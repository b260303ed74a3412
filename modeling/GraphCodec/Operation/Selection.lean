import GraphCodec.Schema.Compiler

/-!
# Compiling selection sets

The response of an operation has the shape of its selection set, so its codec restricts the codecs
of the schema. A selection set on an object type is an intersection: the meta-field `__typename`,
the `Pick` of its leaf fields, and one object for each field with a selection set. A selection set
on a union type has one inline fragment for every member type.
-/

set_option autoImplicit false

namespace GraphCodec

namespace Selection

/-- The language feature of a selection that the compiler does not support: a fragment spread, a
directive, an alias or an inline fragment without a type condition. -/
def unsupported? : Selection → Option Unsupported
  | spread name _ => some (.spread name)
  | leaf _ _ (d :: ds) | node _ _ (d :: ds) _ | inline _ (d :: ds) _ =>
    some (.directives (d :: ds))
  | leaf (some shown) name [] | node (some shown) name [] _ => some (.renamed shown name)
  | inline none [] _ => some .bareFragment
  | leaf none _ [] | node none _ [] _ | inline (some _) [] _ => none

/-- The response name of a leaf field. The meta-field `__typename` is left out, for it is part of
every selection codec. -/
def leaf? : Selection → Option String
  | leaf _ name _ => if name = "__typename" then none else some name
  | _ => none

/-- Whether the selection is a field with a selection set. -/
def isNode : Selection → Bool
  | node _ _ _ _ => true
  | _ => false

/-- The type condition of an inline fragment. -/
def condition? : Selection → Option String
  | inline condition _ _ => condition
  | _ => none

end Selection

namespace Selections

/-- Fails on the first selection of a set that is not supported. -/
def check (selections : List Selection) : Except CompileError Unit :=
  match selections.findSome? Selection.unsupported? with
  | some what => .error (.unsupportedSelection what)
  | none => .ok ()

def leaves (selections : List Selection) : List String := selections.filterMap Selection.leaf?

/-- The type conditions of the inline fragments of a selection set. -/
def conditions (selections : List Selection) : List String :=
  selections.filterMap Selection.condition?

/-- Checks that the inline fragments on a union cover each of its member types, and no other
type. -/
def checkCover (union : String) (members conditions : List String) : Except CompileError Unit :=
  let missing := members.filter (· ∉ conditions)
  if missing ≠ [] then .error (.nonExhaustive union missing)
  else
    match conditions.find? (· ∉ members) with
    | some c => .error (.unresolved c (some (.condition union)))
    | none => .ok ()

/-- The codec of a selection set on an object type: the intersection of `__typename`, the `Pick`
of its leaves, and the codecs of its fields with selection sets. -/
def codec (type : Codec) (selections : List Selection) (nested : List Codec) : Codec :=
  .intersection (.typename type.name :: .pick type.name (leaves selections) :: nested)

/-- The codec of a field of `parent` without sub-selections: the `Pick` of the field itself. -/
def wholeField (parent : Codec) (name : String) : Codec :=
  .intersection [.typename parent.name, .pick parent.name [name]]

/-- The codec of a field in the definition of `parent`. -/
def declared (parent : Codec) (name : String) : Except CompileError Codec :=
  match parent.props.lookup name with
  | some c => .ok c
  | none => .error (.unknownField name parent.label)

/-- The codec of a leaf field of `parent`; a custom scalar keeps its own codec. -/
def leafCodec (parent : Codec) (name : String) : Except CompileError Codec := do
  let c ← declared parent name
  match c.core with
  | .scalar _ => return c
  | _ => return wholeField parent name

mutual

/-- The codec of a field selection on `parent`, by recursion on the selection sets. -/
def fieldCodec (parent : Codec) : Selection → Except CompileError Codec
  | .leaf _ name _ => leafCodec parent name
  | .node _ name _ selections => do
    let type ← declared parent name
    check selections
    match type.core, conditions selections with
    | .scalar _, _ => return type
    | .named union (.union members), c :: cs =>
      checkCover union (members.map Codec.name) (c :: cs)
      let codecs ← members.mapM fun m => memberCodec union m selections
      return type.replaceCore (.union codecs)
    | core, _ :: _ =>
      let shown := if core.name = "" then name else core.name
      throw (.unsupportedSelection (.fragmentOnType shown))
    | core, [] =>
      if leaves selections = [] && !selections.any Selection.isNode then
        return wholeField parent name
      else
        let nested ← nestedCodecs core selections
        return type.replaceCore (codec core selections nested)
  | .spread name _ => .error (.unsupportedSelection (.spread name))
  | .inline _ _ _ => .error (.unsupportedSelection (.fragmentOnRoot parent.name))

/-- One `t.type` with a single property for each field of `parent` with a selection set. -/
def nestedCodecs (parent : Codec) : List Selection → Except CompileError (List Codec)
  | [] => .ok []
  | s :: rest =>
    match s with
    | .node _ name _ _ => do
      let c ← fieldCodec parent s
      let cs ← nestedCodecs parent rest
      return .object [(name, c)] :: cs
    | _ => nestedCodecs parent rest

/-- The codec of a member type of a union, from the first inline fragment on it. -/
def memberCodec (union : String) (member : Codec) : List Selection → Except CompileError Codec
  | [] => .error (.nonExhaustive union [member.name])
  | .inline (some c) _ selections :: rest =>
    if c = member.name then do
      check selections
      let nested ← nestedCodecs member selections
      return codec member selections nested
    else memberCodec union member rest
  | _ :: rest => memberCodec union member rest

end

end Selections

namespace Operation

/-- The root operation type of an operation. Subscriptions are not supported. -/
def root (op : Operation) (schema : Schema) : Except CompileError Codec :=
  let found (root : Option Codec) (name : String) : Except CompileError Codec :=
    match root with
    | some c => .ok c
    | none => .error (.unresolved name none)
  match op.kind with
  | .query => found schema.query? "Query"
  | .mutation => found schema.mutation? "Mutation"
  | .subscription => .error (.unsupportedOperation op.name .subscription)

/-- The properties of the `data` entry of a response. The root selection set may hold only fields,
with distinct response names. -/
def rootProps (root : Codec) (props : List (String × Codec)) :
    List Selection → Except CompileError (List (String × Codec))
  | [] => .ok props
  | s :: rest => do
    Selections.check [s]
    match s with
    | .leaf _ name _ | .node _ name _ _ =>
      if name ∈ Assoc.keys props then throw (.unsupportedSelection (.duplicateField name))
      let c ← Selections.fieldCodec root s
      rootProps root (props ++ [(name, c)]) rest
    | _ => throw (.unsupportedSelection (.fragmentOnRoot root.name))

/-- The codec of the response of a named operation. -/
def selectionCodec (op : Operation) (root : Codec) : Except CompileError Codec :=
  match op.name with
  | none => .error (.unsupportedOperation none .unnamed)
  | some name => do
    let props ← rootProps root [] op.selections
    match op.kind with
    | .mutation => return .mutation name props
    | .query | .subscription => return .query name props

end Operation

end GraphCodec
