import GraphCodec.Schema.Table

/-!
# Topological order

Type definitions are exported in an order in which each one comes after those it refers to, as far
as cycles allow: the postorder of a depth-first search from each definition in turn. The search
keeps an explicit stack and the set of visited names.
-/

set_option autoImplicit false

namespace GraphCodec

namespace Order

variable {α : Type} [Node α]

/-- A frame of the depth-first search: a node and the dependencies still to be visited. -/
structure Waiting (α : Type) where
  node : α
  pending : List String

/-- The frame of a node with none of its dependencies visited. -/
def Waiting.start (a : α) : Waiting α := ⟨a, Node.dependencies a⟩

/-- The size of a stack: its frames and their pending dependencies. -/
def work : List (Waiting α) → Nat
  | [] => 0
  | w :: stack => w.pending.length + 1 + work stack

/-- The visited names and the postorder so far. -/
structure Placed (α : Type) where
  seen : List String
  order : List α

/-- Runs the depth-first search from a stack. An unvisited dependency of the top frame is marked
as visited and pushed; a frame without pending dependencies is popped and its node goes to the end
of the postorder. -/
def walk (table : Table α) (done : Placed α) : List (Waiting α) → Placed α
  | [] => done
  | ⟨a, []⟩ :: stack => walk table { done with order := done.order ++ [a] } stack
  | ⟨a, n :: ns⟩ :: stack =>
    if n ∈ done.seen then walk table done (⟨a, ns⟩ :: stack)
    else
      match _h : table.get? n with
      | none => walk table done (⟨a, ns⟩ :: stack)
      | some b => walk table { done with seen := n :: done.seen } (.start b :: ⟨a, ns⟩ :: stack)
termination_by stack => (table.unseen done.seen, work stack)
decreasing_by
  · exact Prod.Lex.right _ (by simp [work])
  · exact Prod.Lex.right _ (by simp [work])
  · exact Prod.Lex.right _ (by simp [work])
  · rename_i hn
    have hb := Table.name_of_get? _h
    subst hb
    exact Prod.Lex.left _ _ (Table.unseen_cons_lt (Table.mem_of_get? _h) hn)

/-- The depth-first search from a node, unless its name is visited. -/
def place (table : Table α) (done : Placed α) (a : α) : Placed α :=
  if Node.name a ∈ done.seen then done
  else walk table { done with seen := Node.name a :: done.seen } [.start a]

/-- The depth-first postorder of the dependency graph, one node for each name. -/
def sort (nodes : List α) : List α :=
  (nodes.foldl (place (Table.ofList nodes)) ⟨[], []⟩).order

end Order

/-- The type definitions in topological order of their references, one for each name. -/
def sortDefinitions (definitions : List Definition) : List Definition := Order.sort definitions

end GraphCodec
