import GraphCodec.Codec.Basic
import GraphCodec.Codec.Groups

/-!
# Printing codecs

The `io-ts` expressions of codecs and the exports of a generated module. A named codec inside an
expression is printed as its identifier, since it is exported by the same module.

The two modes differ in nullable types only: `null` in a response is decoded to `none` by
`optionFromNullable`, and `null` in the variables is a member of a `t.union`.
-/

set_option autoImplicit false

namespace GraphCodec

/-- The side of GraphQL that a codec is for: output types (responses) or input types (variables). -/
inductive Mode where
  | output | input
  deriving DecidableEq, Repr

def Primitive.text : Primitive → String
  | .string | .id => "t.string"
  | .int | .float => "t.number"
  | .boolean => "t.boolean"

namespace Codec

def literalText (value : String) : String := "t.literal('" ++ value ++ "')"

def unionText (members : List String) : String :=
  "t.union([" ++ String.intercalate ", " members ++ "])"

def enumText : List String → String
  | [case] => literalText case
  | cases => "t.union([" ++ String.intercalate "," (cases.map literalText) ++ "])"

def optionText : Mode → String → String
  | .output, item => "optionFromNullable(" ++ item ++ ")"
  | .input, item => "t.union([t.null, " ++ item ++ "])"

def pickText (type : String) (fields : List String) : String :=
  "Pick(" ++ type ++ ".props, " ++ String.intercalate "," (fields.map ("'" ++ · ++ "'")) ++ ")"

def intersectionText (members : List String) : String :=
  "t.intersection([" ++ String.intercalate ", " members ++ "])"

/-- `t.intersection` of any number of members, nested by `intersectionGroups`. -/
def groupedText (members : List String) : String :=
  match intersectionGroups members with
  | [group] => intersectionText group
  | groups => intersectionText (groups.map intersectionText)

def objectText (props : List String) : String :=
  "t.type(\x7b " ++ String.intercalate ",\n" props ++ "\x7d)"

/-- `t.type` of an object type, with the literal `__typename` as its first property. -/
def namedObjectText (name : String) (props : List String) : String :=
  "t.type(\x7b \n" ++ String.intercalate ",\n" (("__typename: " ++ literalText name) :: props) ++
    "\n\x7d)"

/-- A codec as an operand of a combinator: the identifier of its export, or its expression if it
is anonymous. -/
@[macro_inline]
def reference (c : Codec) (text : String) : String := if c.name = "" then text else c.name

mutual

/-- The `io-ts` expression of a codec. -/
def text (mode : Mode) : Codec → String
  | primitive k => k.text
  | scalar _ => "t.any"
  | enum _ cases => enumText cases
  | literal v => literalText v
  | object ps | input _ ps | query _ ps | mutation _ ps => objectText (propTexts mode ps)
  | union ts => unionText (texts mode ts)
  | named n (object ps) => namedObjectText n (propTexts mode ps)
  | named _ body => text mode body
  | array c => "t.array(" ++ reference c (text mode c) ++ ")"
  | option c => optionText mode (reference c (text mode c))
  | intersection ts => groupedText (texts mode ts)
  | pick t fs => pickText t fs
  | unknown => ""

def texts (mode : Mode) : List Codec → List String
  | [] => []
  | c :: cs => reference c (text mode c) :: texts mode cs

def propTexts (mode : Mode) : List (String × Codec) → List String
  | [] => []
  | (k, c) :: ps => (k ++ ": " ++ reference c (text mode c)) :: propTexts mode ps

end

/-! ## Unprintable codecs -/

mutual

/-- Whether the expression of a codec holds no `unknown` node. A node behind an identifier is not
part of the expression. -/
def printable : Codec → Bool
  | unknown => false
  | object ps | input _ ps | query _ ps | mutation _ ps => propsPrintable ps
  | union ts | intersection ts => allPrintable ts
  | named _ body => printable body
  | array c | option c => c.name ≠ "" || printable c
  | primitive _ | scalar _ | enum _ _ | literal _ | pick _ _ => true

def allPrintable : List Codec → Bool
  | [] => true
  | c :: cs => (c.name ≠ "" || printable c) && allPrintable cs

def propsPrintable : List (String × Codec) → Bool
  | [] => true
  | (_, c) :: ps => (c.name ≠ "" || printable c) && propsPrintable ps

end

/-- The error of an `unknown` node in an expression. -/
inductive PrintError where
  | unknownNode
  deriving DecidableEq, Repr

def PrintError.message : PrintError → String
  | .unknownNode => "Unsupported IR node: " ++ unknown.nodeName

/-- Applies a printer to a `printable` codec. -/
def written {β : Type} (write : Codec → β) (c : Codec) : Except PrintError β :=
  if c.printable then .ok (write c) else .error .unknownNode

end Codec

/-! ## Exports -/

/-- The `export const` of a codec together with the `export type` of its static type. -/
structure Export where
  name : String
  codec : String
  type : String
  deriving DecidableEq, Repr

namespace Export

def text (e : Export) : String :=
  "export const " ++ e.name ++ " = " ++ e.codec ++ ";\nexport type " ++ e.name ++ " = " ++
    e.type ++ ";\n"

/-- The static type that `io-ts` infers for an exported codec. -/
def typeOf (name : String) : String := "t.TypeOf<typeof " ++ name ++ ">"

/-- The export of a named codec and of its `t.TypeOf`. -/
def ofCodec (mode : Mode) (c : Codec) : Export := ⟨c.name, c.text mode, typeOf c.name⟩

/-- The export of a schema type. Input object types are printed in `input` mode. -/
def ofType : Codec → Export
  | .input n ps => ofCodec .input (.input n ps)
  | c => ofCodec .output c

/-- The export of the variables of an operation. -/
def ofVariables (c : Codec) : Export := ofCodec .input c

/-- The suffix of the identifier of a response codec: the operation type of the operation. -/
def responseTag : Codec → String
  | .mutation _ _ => "Mutation"
  | _ => "Query"

/-- The export of the response of an operation. The codec is for the response map with its `data`
entry, and the static type is that of the entry. -/
def ofSelection (c : Codec) : Export :=
  let name := c.name ++ responseTag c
  ⟨name, "t.type(\x7b data: " ++ c.text .output ++ " \x7d)", typeOf name ++ "['data']"⟩

end Export

end GraphCodec
