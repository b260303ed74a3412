import GraphCodec.Codec.Basic
import GraphCodec.Error
import GraphCodec.Schema.Table

/-!
# Compiling a schema

Every type definition is compiled to a codec of its name. Compilation is memoised, and a definition
that is referred to while it is being compiled closes a reference cycle, which is an error.
-/

set_option autoImplicit false

namespace GraphCodec

/-! ## Type references -/

/-- The codec of a type reference, where `lookup` gives the codec of a named type. A list type is
an `array` and a nullable type an `option`. -/
def Signature.resolve {m : Type → Type} [Monad m] (lookup : String → m Codec) :
    Signature → m Codec
  | .named n nonNull => do
    let c ← lookup n
    return if nonNull then c else .option c
  | .list t nonNull => do
    let c ← t.resolve lookup
    return if nonNull then .array c else .option (.array c)

/-- The built-in scalars by name. -/
def builtins : List (String × Primitive) :=
  [("ID", .id), ("String", .string), ("Boolean", .boolean), ("Int", .int), ("Float", .float)]

/-! ## Definitions -/

/-- The codec of a type definition, where `field` and `member` give the codecs of the named types
of its fields and of its union members. The root operation types are found by name. -/
def Definition.codec {m : Type → Type} [Monad m] [MonadExcept CompileError m]
    (d : Definition) (field member : String → m Codec) : m Codec :=
  let properties (fields : List Field) : m (List (String × Codec)) := do
    return Assoc.ofList (← fields.mapM fun f => do return (f.name, ← f.type.resolve field))
  match d.body with
  | .object fields => do
    let props ← properties fields
    return if d.name = "Query" then .query d.name props
      else if d.name = "Mutation" then .mutation d.name props
      else .named d.name (.object props)
  | .input fields => do return .input d.name (← properties fields)
  | .union members => do return .named d.name (.union (← members.mapM member))
  | .enum values => return .enum d.name values
  | .scalar => return .scalar d.name
  | .foreign kind => throw (.unsupportedDefinition kind)

/-- The memo table of compilation: the codecs of the definitions compiled so far. -/
abbrev Memo := List (String × Codec)

/-- Compilation with a memo table, whose state outlives an error. -/
abbrev Compile := ExceptT CompileError (StateM Memo)

/-- The reference cycle that `name` closes on the recursion stack `path`, innermost name first. -/
def cycle (path : List String) (name : String) : List String :=
  name :: (path.takeWhile (· ≠ name)).reverse ++ [name]

/-- Compiles a definition and what it refers to, depth first; `path` is the recursion stack,
innermost name first. -/
def compileDefinition (table : Table Definition) (path : List String) (d : Definition) :
    Compile Codec := do
  match (← get).lookup d.name with
  | some c => return c
  | none =>
    if _hp : d.name ∈ path then throw (.cyclic (cycle path d.name))
    else
      let refer (site : Option Site) (n : String) : Compile Codec :=
        match _he : table.get? n with
        | none => throw (.unresolved n site)
        | some e => compileDefinition table (d.name :: path) e
      let field (n : String) : Compile Codec :=
        match builtins.lookup n with
        | some p => return .primitive p
        | none => refer none n
      let c ← d.codec field (refer (some (.member d.name)))
      modify ((d.name, c) :: ·)
      return c
termination_by table.unseen path + if d ∈ table then 0 else 1
decreasing_by
  have hmem := Table.mem_of_get? _he
  simp only [hmem, if_true]
  by_cases hd : d ∈ table
  · have : table.unseen (d.name :: path) < table.unseen path := Table.unseen_cons_lt hd _hp
    omega
  · have := Table.unseen_cons_le table path d.name
    simp only [hd, if_false]
    omega

/-- Compiles one definition with an empty memo table. -/
def compileOne (table : Table Definition) (d : Definition) : Except CompileError Codec :=
  (Id.run ((compileDefinition table [] d).run.run [])).1

/-! ## Schemas -/

/-- A compiled schema: the codecs of its types, in the order of the definitions. -/
structure Schema where
  types : List Codec

namespace Schema

/-- Compiles the definitions in order, with one memo table. -/
def compile (definitions : List Definition) : Except CompileError Schema := do
  let all := definitions.mapM (compileDefinition (Table.ofList definitions) [])
  return ⟨← (Id.run (all.run.run [])).1⟩

/-- The codec of a type; the last of several types of one name. -/
def get? (schema : Schema) (name : String) : Option Codec :=
  schema.types.reverse.find? fun c => c.name = name

/-- The query root operation type. -/
def query? (schema : Schema) : Option Codec :=
  match schema.get? "Query" with
  | some (.query n ps) => some (.query n ps)
  | _ => none

/-- The mutation root operation type. -/
def mutation? (schema : Schema) : Option Codec :=
  match schema.get? "Mutation" with
  | some (.mutation n ps) => some (.mutation n ps)
  | _ => none

/-- The input types of the schema: the built-in scalars, and its scalar, input object and enum
types. -/
def inputs (schema : Schema) : List (String × Codec) :=
  Assoc.ofList (builtins.map (fun (n, p) => (n, .primitive p)) ++
    schema.types.filterMap fun c =>
      match c with
      | .scalar n | .input n _ | .enum n _ => some (n, c)
      | _ => none)

end Schema

end GraphCodec
