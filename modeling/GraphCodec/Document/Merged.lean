import GraphCodec.Document.Basic

/-!
# Building a schema from a document

The types of a document that describes a whole schema: type extensions are merged into the types
they extend, and the types are sorted by name. Built-in types are not listed.
-/

set_option autoImplicit false

namespace GraphCodec

/-- The body of a type with the fields, members or values of an extension appended. -/
def Body.extend : Body → Body → Body
  | object fs, object gs => object (fs ++ gs)
  | input fs, input gs => input (fs ++ gs)
  | union ms, union ns => union (ms ++ ns)
  | enum vs, enum ws => enum (vs ++ ws)
  | body, _ => body

namespace Document

/-- The built-in scalars and the introspection types. -/
def builtinNames : List String :=
  ["String", "Int", "Float", "Boolean", "ID", "__Schema", "__Type", "__TypeKind", "__Field",
    "__InputValue", "__EnumValue", "__Directive", "__DirectiveLocation"]

/-- The type extensions of a document. -/
def extensions (doc : Document) : List Definition :=
  doc.filterMap fun
    | .extension d => some d
    | _ => none

/-- A type definition with its extensions applied in source order. -/
def extended (doc : Document) (d : Definition) : Definition :=
  let additions := doc.extensions.filter fun e => e.name = d.name
  { d with body := additions.foldl (fun body e => body.extend e.body) d.body }

/-- The type map of the schema that a document builds, sorted by name. -/
def schemaTypes (doc : Document) : List Definition :=
  ((doc.types.filter fun d => d.name ∉ builtinNames).map doc.extended).mergeSort
    fun a b => a.name ≤ b.name

end Document

end GraphCodec
