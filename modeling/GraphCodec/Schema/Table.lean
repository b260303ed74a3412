import GraphCodec.Document.Basic

/-!
# Symbol tables

Lookup of definitions by name. The last definition of a name shadows the earlier ones.
-/

set_option autoImplicit false

namespace GraphCodec

/-- A node of a dependency graph: it has a name and refers to its dependencies by name. -/
class Node (α : Type) where
  name : α → String
  dependencies : α → List String

instance : Node Definition where
  name := Definition.name
  dependencies := Definition.dependencies

/-- A symbol table, where the last definition of a name comes first and shadows the others. -/
abbrev Table (α : Type) := List α

namespace Table

variable {α : Type} [Node α]

def ofList (items : List α) : Table α := items.reverse

/-- The definition of a name. -/
def get? (table : Table α) (name : String) : Option α :=
  table.find? fun a => Node.name a = name

theorem name_of_get? {table : Table α} {name : String} {a : α}
    (h : table.get? name = some a) : Node.name a = name := by
  simpa using List.find?_some h

theorem mem_of_get? {table : Table α} {name : String} {a : α}
    (h : table.get? name = some a) : a ∈ table :=
  List.mem_of_find?_eq_some h

/-- The number of entries whose names are not in `seen`. -/
def unseen (table : Table α) (seen : List String) : Nat :=
  (table.filter fun a => Node.name a ∉ seen).length

theorem filter_cons_seen (table : Table α) (seen : List String) (name : String) :
    (table.filter fun a => Node.name a ∉ name :: seen) =
      (table.filter fun a => Node.name a ∉ seen).filter fun a => Node.name a ≠ name := by
  rw [List.filter_filter]
  congr 1
  funext a
  simp

theorem unseen_cons_le (table : Table α) (seen : List String) (name : String) :
    table.unseen (name :: seen) ≤ table.unseen seen := by
  unfold unseen
  rw [filter_cons_seen]
  exact List.length_filter_le _ _

/-- Adding the name of an entry to `seen` leaves fewer entries unseen: the measure of the
depth-first searches. -/
theorem unseen_cons_lt {table : Table α} {seen : List String} {a : α}
    (ha : a ∈ table) (hn : Node.name a ∉ seen) :
    table.unseen (Node.name a :: seen) < table.unseen seen := by
  refine Nat.lt_of_le_of_ne (unseen_cons_le ..) fun he => ?_
  unfold unseen at he
  rw [filter_cons_seen] at he
  have := List.length_filter_eq_length_iff.mp he a (by simp [ha, hn])
  simp at this

end Table

end GraphCodec
