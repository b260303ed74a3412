/-!
# Documents

The abstract syntax of GraphQL documents, as far as code generation needs it: type definitions with
the type references of their fields, and operations with their selection sets. Descriptions,
arguments, default values and directive arguments are parsed and not kept.
-/

set_option autoImplicit false

namespace GraphCodec

/-! ## Type references -/

/-- A type reference: a named type or a list type, each nullable or non-null (`!`). -/
inductive Signature where
  | named (name : String) (nonNull : Bool)
  | list (item : Signature) (nonNull : Bool)
  deriving DecidableEq, Repr

namespace Signature

/-- The named type of a type reference, without its list and non-null wrappers. -/
def base : Signature → String
  | named n _ => n
  | list t _ => t.base

/-- The type reference in GraphQL syntax. -/
def text : Signature → String
  | named n nonNull => n ++ (if nonNull then "!" else "")
  | list t nonNull => "[" ++ t.text ++ "]" ++ (if nonNull then "!" else "")

/-- The non-null type of a type reference. -/
def require : Signature → Signature
  | named n _ => named n true
  | list t _ => list t true

end Signature

/-- A field definition, an input value definition or a variable definition. -/
structure Field where
  name : String
  type : Signature
  deriving DecidableEq, Repr

/-! ## Type definitions -/

/-- The kinds of type definition that have a codec. -/
inductive TypeKind where
  | object | input | union | enum | scalar
  deriving DecidableEq, Repr

/-- The kinds of type system definition, extension and fragment that have no codec. -/
inductive ForeignKind where
  | schema
  | interface
  | directive
  | fragment
  | operation
  | schemaExtension
  | interfaceExtension
  | directiveExtension
  | typeExtension (kind : TypeKind)
  deriving DecidableEq, Repr

/-- The right-hand side of a type definition. -/
inductive Body where
  | object (fields : List Field)
  | input (fields : List Field)
  | union (members : List String)
  | enum (values : List String)
  | scalar
  /-- A named definition of a kind that has no codec. -/
  | foreign (kind : ForeignKind)
  deriving DecidableEq, Repr

/-- A type definition. -/
structure Definition where
  name : String
  body : Body
  deriving DecidableEq, Repr

namespace Definition

/-- The named types that the fields or the members of a definition refer to, in order. -/
def dependencies (d : Definition) : List String :=
  match d.body with
  | .object fields | .input fields => fields.map (·.type.base)
  | .union members => members
  | .enum _ | .scalar | .foreign _ => []

end Definition

/-! ## Operations -/

inductive OperationKind where
  | query | mutation | subscription
  deriving DecidableEq, Repr

/-- A selection of a selection set: a field, a fragment spread or an inline fragment. A field is a
`leaf` without a selection set and a `node` with one, even an empty one. -/
inductive Selection where
  | leaf (shown : Option String) (name : String) (directives : List String)
  | node (shown : Option String) (name : String) (directives : List String)
      (selections : List Selection)
  | spread (name : String) (directives : List String)
  | inline (condition : Option String) (directives : List String)
      (selections : List Selection)
  deriving Repr

/-- An operation definition. -/
structure Operation where
  kind : OperationKind
  name : Option String
  vars : List Field
  selections : List Selection
  deriving Repr

/-! ## Documents -/

/-- A top-level definition of a document. A type extension is kept as the definition of its
additions. -/
inductive Item where
  | type (definition : Definition)
  | extension (addition : Definition)
  | operation (operation : Operation)
  | other (kind : ForeignKind) (name : Option String)
  deriving Repr

namespace Body

/-- The kind of type definition that a body belongs to. -/
def kind? : Body → Option TypeKind
  | object _ => some .object
  | input _ => some .input
  | union _ => some .union
  | enum _ => some .enum
  | scalar => some .scalar
  | foreign _ => none

end Body

namespace Item

/-- Whether the item is a type definition that has a codec. -/
def isType : Item → Bool
  | type _ => true
  | _ => false

/-- The type definition of an item. -/
def type? : Item → Option Definition
  | type d => some d
  | _ => none

/-- The operation definition of an item. -/
def operation? : Item → Option Operation
  | operation o => some o
  | _ => none

/-- The kind of an item that is neither a type definition with a codec nor an operation. -/
def skipped? : Item → Option ForeignKind
  | type _ | operation _ => none
  | extension d => d.body.kind?.map .typeExtension
  | other kind _ => some kind

/-- A named item as a definition; one that has no codec is `foreign`. Schema definitions and
anonymous operations have no name. -/
def definition? : Item → Option Definition
  | type d => some d
  | extension d => d.body.kind?.map fun k => ⟨d.name, .foreign (.typeExtension k)⟩
  | operation o => o.name.map fun n => ⟨n, .foreign .operation⟩
  | other kind name => name.map fun n => ⟨n, .foreign kind⟩

end Item

/-- A GraphQL document: its top-level definitions, in source order. -/
abbrev Document := List Item

namespace Document

/-- The type definitions of a document. -/
def types (doc : Document) : List Definition := doc.filterMap Item.type?

/-- The operations of a document. -/
def operations (doc : Document) : List Operation := doc.filterMap Item.operation?

end Document

end GraphCodec
