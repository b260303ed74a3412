/-!
# Nested intersections

Consecutive groups of a list, and the grouping of the members of a `t.intersection`.
-/

set_option autoImplicit false

namespace GraphCodec

variable {α : Type}

/-- Consecutive groups of `size` elements; the last one may be shorter. -/
def chunks (size : Nat) (items : List α) : List (List α) :=
  if 0 < size ∧ items ≠ [] then items.take size :: chunks size (items.drop size) else []
termination_by items.length
decreasing_by
  rename_i h
  have := List.length_pos_iff.mpr h.2
  simp only [List.length_drop]
  omega

/-- The error of a group size of zero. -/
inductive ChunkError where
  | zeroSize
  deriving DecidableEq, Repr

def ChunkError.message : ChunkError → String
  | .zeroSize => "range() arg 3 must not be zero"

/-- `chunks` for an integer `size`: a negative one gives no group, and zero is an error. -/
def chunk (size : Int) (items : List α) : Except ChunkError (List (List α)) :=
  if size = 0 then .error .zeroSize else .ok (chunks size.toNat items)

/-- The most members of one `t.intersection` that `io-ts` infers a static type for. -/
def maxIntersection : Nat := 5

/-- The nested intersections of an intersection: a single one up to `maxIntersection` members,
else groups of five, or of four where groups of five would leave one member over. -/
def intersectionGroups (types : List α) : List (List α) :=
  if types.length ≤ maxIntersection then [types]
  else if types.length % maxIntersection = 1 then chunks (maxIntersection - 1) types
  else chunks maxIntersection types

end GraphCodec
