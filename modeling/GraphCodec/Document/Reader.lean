import GraphCodec.Document.Basic
import GraphCodec.Document.Token

/-!
# Parsing

A recursive descent parser of the GraphQL grammar over lexical tokens. Nonterminals of the grammar
are named in backticks. A syntax error fails the whole document, and a document is parsed to its
last token.

Repetition consumes tokens, so the number of remaining tokens bounds it. The depth of the recursion
has a bound of its own: selection sets, list types and values that nest more than `nestingLimit`
deep are a syntax error.
-/

set_option autoImplicit false

namespace GraphCodec

/-- A parser over lexical tokens. -/
abbrev TokenReader := StateT (List Token) Option

namespace TokenReader

variable {α : Type}

/-! ## Single tokens -/

/-- The lookahead token. -/
def peek : TokenReader (Option Token) := fun ts => some (ts.head?, ts)

/-- Consumes a token. -/
def take : TokenReader Token
  | [] => none
  | t :: ts => some (t, ts)

/-- Consumes a token if it is `t`, and returns whether it did. -/
def accept (t : Token) : TokenReader Bool := do
  if (← peek) == some t then
    let _ ← take
    return true
  else return false

def expect (t : Token) : TokenReader Unit := do
  if ← accept t then return () else failure

def atPunct (c : Char) : TokenReader Bool := do
  return (← peek) == some (.punct c)

def name : TokenReader String := do
  match ← take with
  | .name n => return n
  | _ => failure

/-- The lookahead `Name`. -/
def peekName : TokenReader (Option String) := do
  match ← peek with
  | some (.name n) => return some n
  | _ => return none

/-! ## Repetition -/

/-- Parses items while `more` holds, at most so many times. -/
def repeatWhile (more : TokenReader Bool) (item : TokenReader α) : Nat → TokenReader (List α)
  | 0 => failure
  | bound + 1 => do
    if ← more then
      let a ← item
      let as ← repeatWhile more item bound
      return a :: as
    else return []

/-- Parses items while `more` holds. Every item consumes a token, so the number of tokens bounds
the repetition. -/
def many (more : TokenReader Bool) (item : TokenReader α) : TokenReader (List α) :=
  fun ts => repeatWhile more item (ts.length + 1) ts

/-- Parses items up to a closing punctuator and consumes it. -/
def upTo (close : Char) (item : TokenReader α) : TokenReader (List α) :=
  many (return !(← accept (.punct close))) item

/-- Parses one or more items between two punctuators. -/
def group (opening close : Char) (item : TokenReader α) : TokenReader (List α) := do
  expect (.punct opening)
  let first ← item
  let rest ← upTo close item
  return first :: rest

/-- Parses a `group` if the lookahead is its opening punctuator. -/
def optionalGroup (opening close : Char) (item : TokenReader α) : TokenReader (List α) := do
  if ← atPunct opening then group opening close item else return []

/-- Parses one or more items between separators, with an optional leading one. -/
def delimited (sep : Char) (item : TokenReader α) : TokenReader (List α) := do
  let _ ← accept (.punct sep)
  let first ← item
  let rest ← many (accept (.punct sep)) item
  return first :: rest

/-! ## Values and directives -/

/-- The recursion limit of the parser: how deep selection sets, list types and values may nest. -/
def nestingLimit : Nat := 200

/-- Parses a `Value` that is neither a list nor an object. A constant value may not be a
variable. -/
def simpleValue (constant : Bool) : TokenReader Unit := do
  match ← take with
  | .number | .string | .name _ => return ()
  | .punct '$' => if constant then failure else discard name
  | _ => failure

/-- Parses a `Value` of nesting depth at most `depth`. -/
def value (constant : Bool) : Nat → TokenReader Unit
  | 0 => simpleValue constant
  | depth + 1 => do
    if ← accept (.punct '[') then discard <| upTo ']' (value constant depth)
    else if ← accept (.punct '\x7b') then
      discard <| upTo '\x7d' do
        let _ ← name
        expect (.punct ':')
        value constant depth
    else simpleValue constant

def arguments (constant : Bool) (depth : Nat) : TokenReader Unit :=
  discard <| optionalGroup '(' ')' do
    let _ ← name
    expect (.punct ':')
    value constant depth

/-- Parses `Directives` and returns their names. -/
def directives (constant : Bool) (depth : Nat) : TokenReader (List String) :=
  many (atPunct '@') do
    expect (.punct '@')
    let n ← name
    arguments constant depth
    return n

/-- Parses `Directives[Const]`. -/
def constDirectives : TokenReader (List String) := directives true nestingLimit

/-- Parses an optional `DefaultValue`. -/
def defaultValue : TokenReader Unit := do
  if ← accept (.punct '=') then value true nestingLimit

/-! ## Type references -/

/-- Parses a `NamedType`, non-null or not. -/
def namedSignature : TokenReader Signature := do
  let n ← name
  return .named n (← accept (.punct '!'))

/-- Parses a `Type` of nesting depth at most `depth`. -/
def signatureWithin : Nat → TokenReader Signature
  | 0 => namedSignature
  | depth + 1 => do
    if ← accept (.punct '[') then
      let item ← signatureWithin depth
      expect (.punct ']')
      return .list item (← accept (.punct '!'))
    else namedSignature

def signature : TokenReader Signature := signatureWithin nestingLimit

/-! ## Operations -/

/-- Parses a `SelectionSet` of nesting depth at most `depth`. It may be empty. -/
def selectionSetWithin : Nat → TokenReader (List Selection)
  | 0 => failure
  | depth + 1 => do
    expect (.punct '\x7b')
    upTo '\x7d' do
      if ← accept .spread then
        match ← peekName with
        | some "on" =>
          let _ ← take
          let condition ← name
          let ds ← directives false depth
          return .inline (some condition) ds (← selectionSetWithin depth)
        | some n =>
          let _ ← take
          return .spread n (← directives false depth)
        | none =>
          let ds ← directives false depth
          return .inline none ds (← selectionSetWithin depth)
      else
        let first ← name
        let second ← if ← accept (.punct ':') then some <$> name else pure none
        let (shown, n) := match second with
          | some n => (some first, n)
          | none => (none, first)
        arguments false depth
        let ds ← directives false depth
        if ← atPunct '\x7b' then return .node shown n ds (← selectionSetWithin depth)
        else return .leaf shown n ds

def selectionSet : TokenReader (List Selection) := selectionSetWithin nestingLimit

/-- Parses the directives of an operation or of a fragment. -/
def requestDirectives : TokenReader Unit := discard <| directives false nestingLimit

def description : TokenReader Unit := discard <| accept .string

def variableDefinition : TokenReader Field := do
  description
  expect (.punct '$')
  let n ← name
  expect (.punct ':')
  let type ← signature
  defaultValue
  let _ ← constDirectives
  return ⟨n, type⟩

/-- Parses an `OperationDefinition` after its `OperationType`. -/
def operation (kind : OperationKind) : TokenReader Operation := do
  let operationName ← match ← peekName with
    | some n => discard take; pure (some n)
    | none => pure none
  let vars ← optionalGroup '(' ')' variableDefinition
  requestDirectives
  return ⟨kind, operationName, vars, ← selectionSet⟩

/-- Parses a `FragmentDefinition` after its keyword and returns its name, which may not be `on`. -/
def fragment : TokenReader String := do
  let n ← name
  if n == "on" then failure
  expect (.name "on")
  let _ ← name
  requestDirectives
  let _ ← selectionSet
  return n

/-! ## Type definitions -/

def inputValue : TokenReader Field := do
  description
  let n ← name
  expect (.punct ':')
  let type ← signature
  defaultValue
  let _ ← constDirectives
  return ⟨n, type⟩

def argumentDefinitions : TokenReader Unit := discard <| optionalGroup '(' ')' inputValue

def fieldDefinition : TokenReader Field := do
  description
  let n ← name
  argumentDefinitions
  expect (.punct ':')
  let type ← signature
  let _ ← constDirectives
  return ⟨n, type⟩

def enumValue : TokenReader String := do
  description
  let n ← name
  if ["true", "false", "null"].contains n then failure
  let _ ← constDirectives
  return n

def interfaces : TokenReader (List String) := do
  if ← accept (.name "implements") then delimited '&' name else return []

/-- Parses an object or interface type after its name: its fields, and whether the rest of the
definition is nonempty. -/
def fieldsPart : TokenReader (List Field × Bool) := do
  let supers ← interfaces
  let ds ← constDirectives
  let fields ← optionalGroup '\x7b' '\x7d' fieldDefinition
  return (fields, !supers.isEmpty || !ds.isEmpty || !fields.isEmpty)

/-- Parses a type definition after its name: its body, and whether the rest is nonempty. -/
def bodyPart : TypeKind → TokenReader (Body × Bool)
  | .object => do
    let (fields, any) ← fieldsPart
    return (.object fields, any)
  | .input => do
    let ds ← constDirectives
    let fields ← optionalGroup '\x7b' '\x7d' inputValue
    return (.input fields, !ds.isEmpty || !fields.isEmpty)
  | .union => do
    let ds ← constDirectives
    let members ← if ← accept (.punct '=') then delimited '|' name else pure []
    return (.union members, !ds.isEmpty || !members.isEmpty)
  | .enum => do
    let ds ← constDirectives
    let values ← optionalGroup '\x7b' '\x7d' enumValue
    return (.enum values, !ds.isEmpty || !values.isEmpty)
  | .scalar => do
    let ds ← constDirectives
    return (.scalar, !ds.isEmpty)

def typeDefinition (kind : TypeKind) : TokenReader Item := do
  let n ← name
  return .type ⟨n, (← bodyPart kind).1⟩

/-- Parses a `TypeExtension` after its keywords. It must add something. -/
def typeExtension (kind : TypeKind) : TokenReader Item := do
  let n ← name
  let (body, any) ← bodyPart kind
  if any then return .extension ⟨n, body⟩ else failure

/-- Parses a `RootOperationTypeDefinition`. -/
def rootOperation : TokenReader Unit := do
  let n ← name
  unless ["query", "mutation", "subscription"].contains n do failure
  expect (.punct ':')
  discard name

/-- The `DirectiveLocation`s. -/
def locations : List String :=
  ["QUERY", "MUTATION", "SUBSCRIPTION", "FIELD", "FRAGMENT_DEFINITION", "FRAGMENT_SPREAD",
    "INLINE_FRAGMENT", "VARIABLE_DEFINITION", "SCHEMA", "SCALAR", "OBJECT",
    "FIELD_DEFINITION", "ARGUMENT_DEFINITION", "INTERFACE", "UNION", "ENUM", "ENUM_VALUE",
    "INPUT_OBJECT", "INPUT_FIELD_DEFINITION", "FRAGMENT_VARIABLE_DEFINITION",
    "DIRECTIVE_DEFINITION"]

def location : TokenReader Unit := do
  if locations.contains (← name) then return () else failure

def directiveDefinition : TokenReader Item := do
  expect (.punct '@')
  let n ← name
  argumentDefinitions
  let _ ← constDirectives
  let _ ← accept (.name "repeatable")
  expect (.name "on")
  let _ ← delimited '|' location
  return .other .directive (some n)

/-- Parses a `TypeSystemExtension` after `extend`. -/
def extensionItem : TokenReader Item := do
  match ← name with
  | "type" => typeExtension .object
  | "input" => typeExtension .input
  | "union" => typeExtension .union
  | "enum" => typeExtension .enum
  | "scalar" => typeExtension .scalar
  | "interface" =>
    let n ← name
    if (← fieldsPart).2 then return .other .interfaceExtension (some n) else failure
  | "schema" =>
    let ds ← constDirectives
    let roots ← optionalGroup '\x7b' '\x7d' rootOperation
    if ds.isEmpty && roots.isEmpty then failure
    return .other .schemaExtension none
  | "directive" =>
    expect (.punct '@')
    let n ← name
    if (← constDirectives).isEmpty then failure
    return .other .directiveExtension (some n)
  | _ => failure

/-! ## Documents -/

/-- Parses a `Definition`. All but extensions and anonymous queries may have a description. -/
def item : TokenReader Item := do
  if ← atPunct '\x7b' then
    return .operation ⟨.query, none, [], ← selectionSet⟩
  let described ← accept .string
  match ← name with
  | "type" => typeDefinition .object
  | "input" => typeDefinition .input
  | "union" => typeDefinition .union
  | "enum" => typeDefinition .enum
  | "scalar" => typeDefinition .scalar
  | "interface" =>
    let n ← name
    let _ ← fieldsPart
    return .other .interface (some n)
  | "schema" =>
    let _ ← constDirectives
    let _ ← group '\x7b' '\x7d' rootOperation
    return .other .schema none
  | "directive" => directiveDefinition
  | "query" => return .operation (← operation .query)
  | "mutation" => return .operation (← operation .mutation)
  | "subscription" => return .operation (← operation .subscription)
  | "fragment" => return .other .fragment (some (← fragment))
  | "extend" => if described then failure else extensionItem
  | _ => failure

/-- Parses a source text to its last token. -/
def run? (reader : TokenReader α) (text : String) : Option α := do
  match ← (← Token.scan text.toList) |> reader with
  | (a, []) => some a
  | _ => none

end TokenReader

/-- Parses a `Document`, which has at least one definition. -/
def Document.parse? (text : String) : Option Document :=
  TokenReader.run? (do
    let first ← TokenReader.item
    let rest ← TokenReader.many (return (← TokenReader.peek).isSome) TokenReader.item
    return first :: rest) text

/-- Parses a source text that is a single `Type`. -/
def Signature.parse? (text : String) : Option Signature :=
  TokenReader.run? TokenReader.signature text

end GraphCodec
