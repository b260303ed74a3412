import GraphCodec.Codec.Printer
import GraphCodec.Operation.Selection
import GraphCodec.Operation.Variables
import GraphCodec.Schema.Order

/-!
# The generated module

One TypeScript module holds all io-ts codecs: a fixed preamble, the schema's types in dependency
order, then for every operation the codec of its variables, then for every operation the codec of
its response. Everything is compiled before any text is rendered, so a failure leaves no half of a
module.
-/

set_option autoImplicit false

namespace GraphCodec

/-- The definition blocks of a module, by section: schema types, variables and selections. -/
structure CodecModule where
  types : List Export
  vars : List Export
  selections : List Export
  deriving DecidableEq, Repr

namespace CodecModule

/-- All definition blocks, in the order in which the module prints them. -/
def blocks (m : CodecModule) : List Export := m.types ++ (m.vars ++ m.selections)

/-- The imports of io-ts, and the helper `Pick` that narrows an object codec to some of its
properties. -/
def preamble : String :=
  "import * as t from 'io-ts';\n" ++
  "import \x7b optionFromNullable \x7d from 'io-ts-types';\n" ++
  "\n" ++
  "const Pick = <P extends t.Props, Key extends keyof P>(p: P, ...keys: Array<Key>): " ++
    "t.TypeC<Pick<P, Key>> => \x7b\n" ++
  "  const entries = Object.keys(p).map(k => [k, p[k]]) as Array<[Key, t.mixed]>;\n" ++
  "  const props = entries.reduce<Pick<P, Key>>(\n" ++
  "    (acc, [key, value]) => (keys.includes(key) ? \x7b ...acc, [key]: value \x7d : acc),\n" ++
  "    \x7b\x7d as Pick<P, Key>\n" ++
  "  );\n" ++
  "\n" ++
  "  return t.type(props);\n" ++
  "\x7d;\n"

/-- A section of the built-in template: every block behind a line feed, and one at the end. -/
def sectionText (exports : List Export) : String :=
  String.join (exports.map fun e => "\n" ++ e.text) ++ "\n"

/-- The three sections of the built-in template. -/
def body (m : CodecModule) : String :=
  sectionText m.types ++ sectionText m.vars ++ sectionText m.selections

/-- The module as the built-in template lays it out. -/
def text (m : CodecModule) : String := preamble ++ m.body

/-- The blocks of a schema's types and of compiled operations. -/
def ofCodecs (types : List Codec) (operations : List (Codec × Codec)) : CodecModule where
  types := types.map Export.ofType
  vars := operations.map fun (v, _) => Export.ofVariables v
  selections := operations.map fun (_, s) => Export.ofSelection s

end CodecModule

/-- Sorts the definitions by their dependencies and compiles them. -/
def compileDefinitions (definitions : List Definition) : Except CompileError Schema :=
  Schema.compile (sortDefinitions definitions)

/-- The codecs of an operation: of its variables and of its response. -/
def Operation.codecs (op : Operation) (schema : Schema) : Except CompileError (Codec × Codec) := do
  let vars ← op.variablesCodec schema.inputs
  let root ← op.root schema
  let selection ← op.selectionCodec root
  return (vars, selection)

/-- The module of definitions and operations. -/
def compileModule (definitions : List Definition) (operations : List Operation) :
    Except CompileError CodecModule := do
  let schema ← compileDefinitions definitions
  let codecs ← operations.mapM (·.codecs schema)
  return .ofCodecs schema.types codecs

end GraphCodec
