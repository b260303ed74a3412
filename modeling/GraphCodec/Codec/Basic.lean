import GraphCodec.Assoc

/-!
# Codecs

The intermediate representation: a `Codec` is the syntax tree of an `io-ts` codec, the runtime
validator of a value of a GraphQL request or response. Schema types, variables and selection sets
are compiled to codecs, and the printer writes them as expressions.

A named codec is exported under its name, and other codecs refer to it by that identifier.
-/

set_option autoImplicit false

namespace GraphCodec

/-- The built-in scalars of GraphQL. -/
inductive Primitive where
  | string | int | boolean | float | id
  deriving DecidableEq, Repr

inductive Codec where
  | primitive (kind : Primitive)
  | scalar (name : String)
  | enum (name : String) (cases : List String)
  | literal (value : String)
  | object (props : List (String × Codec))
  | union (types : List Codec)
  /-- An object type or a union type of the schema; `body` is an `object` or a `union`. -/
  | named (name : String) (body : Codec)
  | input (name : String) (props : List (String × Codec))
  | query (name : String) (props : List (String × Codec))
  | mutation (name : String) (props : List (String × Codec))
  | array (item : Codec)
  /-- A nullable type. -/
  | option (item : Codec)
  | intersection (types : List Codec)
  /-- The fields that a selection set picks from the `props` of an exported codec. -/
  | pick (type : String) (fields : List String)
  /-- A null in place of a codec; it has no `io-ts` expression. -/
  | unknown
  deriving Inhabited, Repr

namespace Codec

/-- The codec of the meta-field `__typename`. -/
def typename (name : String) : Codec := object [("__typename", literal name)]

/-! ## Names and properties -/

/-- The name that a codec is exported under. -/
def name? : Codec → Option String
  | scalar n | enum n _ | named n _ | input n _ | query n _ | mutation n _ => some n
  | _ => none

/-- The name that a codec is exported under, empty for an anonymous codec. -/
def name (c : Codec) : String := c.name?.getD ""

def isNamed (c : Codec) : Bool := c.name?.isSome

/-- The fields of an object type, which are the `props` of its `t.type`. -/
def props : Codec → List (String × Codec)
  | object ps | input _ ps | query _ ps | mutation _ ps | named _ (object ps) => ps
  | _ => []

/-- The name of the constructor. -/
def kind : Codec → String
  | primitive _ => "Primitive"
  | scalar _ => "Scalar"
  | enum _ _ => "Enum"
  | literal _ => "Literal"
  | object _ => "Object"
  | union _ => "Union"
  | named _ _ => "Named"
  | input _ _ => "InputObject"
  | query _ _ => "Query"
  | mutation _ _ => "Mutation"
  | array _ => "Array"
  | option _ => "Option"
  | intersection _ => "Intersection"
  | pick _ _ => "Pick"
  | unknown => "Unknown"

/-- The node class of the intermediate representation, as error messages print it. -/
def nodeName : Codec → String
  | unknown => "NoneType"
  | c => "IR" ++ c.kind

/-- How error messages refer to a codec: its name, or the node class of an anonymous codec. -/
def label (c : Codec) : String := if c.name = "" then c.nodeName else c.name

/-! ## List and nullable wrappers -/

/-- The codec of the named type, with the list and nullable wrappers removed. -/
def core : Codec → Codec
  | array c | option c => c.core
  | c => c

/-- Replaces the `core` of a codec and keeps its list and nullable wrappers. -/
def replaceCore : Codec → Codec → Codec
  | array c, new => array (c.replaceCore new)
  | option c, new => option (c.replaceCore new)
  | _, new => new

/-! ## Equality

Structural equality, where the order of properties does not count. -/

mutual

def same : Codec → Codec → Bool
  | primitive k, primitive k' => k == k'
  | scalar n, scalar n' => n == n'
  | enum n cs, enum n' cs' => n == n' && cs == cs'
  | literal v, literal v' => v == v'
  | object ps, object ps' => ps.length == ps'.length && sameProps ps ps'
  | union ts, union ts' => sameAll ts ts'
  | named n b, named n' b' => n == n' && same b b'
  | input n ps, input n' ps' => n == n' && ps.length == ps'.length && sameProps ps ps'
  | query n ps, query n' ps' => n == n' && ps.length == ps'.length && sameProps ps ps'
  | mutation n ps, mutation n' ps' => n == n' && ps.length == ps'.length && sameProps ps ps'
  | array c, array c' => same c c'
  | option c, option c' => same c c'
  | intersection ts, intersection ts' => sameAll ts ts'
  | pick t fs, pick t' fs' => t == t' && fs == fs'
  | unknown, unknown => true
  | _, _ => false

/-- Every key of the first record is bound to the same codec in the second. -/
def sameProps : List (String × Codec) → List (String × Codec) → Bool
  | [], _ => true
  | (k, c) :: ps, ps' =>
    (match ps'.lookup k with
      | some c' => same c c'
      | none => false) && sameProps ps ps'

def sameAll : List Codec → List Codec → Bool
  | [], [] => true
  | c :: cs, c' :: cs' => same c c' && sameAll cs cs'
  | _, _ => false

end

end Codec

end GraphCodec
