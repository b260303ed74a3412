import GraphCodec.Proofs.Order

/-!
# Sorting as a recursion

The depth-first search with a stack is equal to the recursive one: visit a node by marking its name,
visiting its dependencies, and appending it to the postorder (`visit`). A frame of the stack is a
call that has not returned, so that running the stack and returning from the calls give the same
postorder (`walk_waiting`, `sort_eq_recursiveSort`).

The recursion shows at once what happens to sorted nodes: the dependencies of each of them are
visited before it, so it is appended after them. So a sorted list is unchanged, and sorting is
idempotent unless different names reach each other.
-/

set_option autoImplicit false

namespace GraphCodec

namespace Table

variable {α : Type} [Node α] {table : Table α} {seen later : List String}

/-- `unseen` is antitone. -/
theorem unseen_le (h : ∀ n ∈ seen, n ∈ later) : table.unseen later ≤ table.unseen seen := by
  refine List.Sublist.length_le (List.monotone_filter_right table fun a ha => ?_)
  have hLater : Node.name a ∉ later := by simpa using ha
  simpa using fun hSeen => hLater (h _ hSeen)

/-- Visiting an unvisited node leaves fewer entries unseen. -/
theorem unseen_name_lt {n : String} {a : α} (ha : table.get? n = some a) (hn : n ∉ seen) :
    table.unseen (Node.name a :: seen) < table.unseen seen := by
  have hNew : Node.name a ∉ seen := by rwa [name_of_get? ha]
  exact unseen_cons_lt (mem_of_get? ha) hNew

end Table

namespace Order

variable {α : Type} [Node α]

/-! ## The recursion -/

namespace Placed

/-- Marks a name as visited. -/
def meet (done : Placed α) (n : String) : Placed α := { done with seen := n :: done.seen }

/-- Appends a node to the postorder. -/
def append (done : Placed α) (a : α) : Placed α := { done with order := done.order ++ [a] }

/-- A later state of the search: no name becomes unvisited. -/
abbrev Later (done : Placed α) := { later : Placed α // ∀ n ∈ done.seen, n ∈ later.seen }

end Placed

mutual

/-- Visits a node: marks its name, visits its dependencies, and appends it to the postorder. -/
def visit (table : Table α) (done : Placed α) (a : α) : (done.meet (Node.name a)).Later :=
  let later := visitAll table (done.meet (Node.name a)) (Node.dependencies a)
  ⟨later.1.append a, later.2⟩
termination_by (table.unseen (Node.name a :: done.seen), (Node.dependencies a).length + 1)
decreasing_by exact Prod.Lex.right _ (Nat.lt_succ_self _)

/-- Visits the nodes of the names in order, except for those that are visited by then or not in the
table. -/
def visitAll (table : Table α) (done : Placed α) : List String → done.Later
  | [] => ⟨done, fun _ hn => hn⟩
  | n :: ns =>
    if n ∈ done.seen then visitAll table done ns
    else
      match _h : table.get? n with
      | none => visitAll table done ns
      | some b =>
        let later := visit table done b
        let last := visitAll table later.1 ns
        ⟨last.1, fun m hm => last.2 m (later.2 m (List.mem_cons_of_mem _ hm))⟩
termination_by ns => (table.unseen done.seen, ns.length)
decreasing_by
  · exact Prod.Lex.right _ (Nat.lt_succ_self _)
  · exact Prod.Lex.right _ (Nat.lt_succ_self _)
  · exact Prod.Lex.left _ _ (Table.unseen_name_lt _h ‹n ∉ done.seen›)
  · have hLess := Table.unseen_name_lt _h ‹n ∉ done.seen›
    exact Prod.Lex.left _ _ (Nat.lt_of_le_of_lt (Table.unseen_le later.2) hLess)

end

/-- Visits a node, unless its name is visited. -/
def visitNew (table : Table α) (done : Placed α) (a : α) : Placed α :=
  if Node.name a ∈ done.seen then done else (visit table done a).1

/-- The postorder of the recursive depth-first search. -/
def recursiveSort (nodes : List α) : List α :=
  (nodes.foldl (visitNew (Table.ofList nodes)) ⟨[], []⟩).order

section

variable {table : Table α} {done : Placed α} {a b : α} {n : String} {ns : List String}

theorem visit_eq :
    (visit table done a).1
      = (visitAll table (done.meet (Node.name a)) (Node.dependencies a)).1.append a := by
  rw [visit]

theorem visitAll_nil : (visitAll table done []).1 = done := by rw [visitAll]

theorem visitAll_pass (h : (table.get? n).isSome → n ∈ done.seen) :
    (visitAll table done (n :: ns)).1 = (visitAll table done ns).1 := by
  rw [visitAll]
  split
  · rfl
  · rename_i hNew
    split
    · rfl
    · rename_i b hb
      exact absurd (h (by rw [hb]; rfl)) hNew

theorem visitAll_new (hNew : n ∉ done.seen) (hb : table.get? n = some b) :
    (visitAll table done (n :: ns)).1 = (visitAll table (visit table done b).1 ns).1 := by
  rw [visitAll, if_neg hNew]
  split
  · rename_i hNone
    rw [hb] at hNone
    cases hNone
  · rename_i c hc
    obtain rfl : b = c := Option.some.inj (hb.symm.trans hc)
    rfl

end

/-! ## The stack and the calls -/

section

variable {table : Table α} {done : Placed α} {a b : α} {n : String} {ns : List String}
  {stack : List (Waiting α)}

theorem walk_pass (h : (table.get? n).isSome → n ∈ done.seen) :
    walk table done (⟨a, n :: ns⟩ :: stack) = walk table done (⟨a, ns⟩ :: stack) := by
  rw [walk]
  split
  · rfl
  · rename_i hNew
    split
    · rfl
    · rename_i b hb
      exact absurd (h (by rw [hb]; rfl)) hNew

theorem walk_new (hNew : n ∉ done.seen) (hb : table.get? n = some b) :
    walk table done (⟨a, n :: ns⟩ :: stack)
      = walk table (done.meet (Node.name b)) (.start b :: ⟨a, ns⟩ :: stack) := by
  rw [walk, if_neg hNew, Table.name_of_get? hb, Placed.meet]
  split
  · rename_i hNone
    rw [hb] at hNone
    cases hNone
  · rename_i c hc
    obtain rfl : b = c := Option.some.inj (hb.symm.trans hc)
    rfl

end

/-- **A frame is a call that has not returned.** Running the search from a stack visits the pending
dependencies of the top frame, pops it, and goes on below. The induction is on the calls. -/
theorem walk_waiting (table : Table α) (done : Placed α) (ns : List String) (a : α)
    (stack : List (Waiting α)) :
    walk table done (⟨a, ns⟩ :: stack)
      = walk table ((visitAll table done ns).1.append a) stack := by
  refine visitAll.induct table
    (fun done a => ∀ stack, walk table (done.meet (Node.name a)) (.start a :: stack)
      = walk table (visit table done a).1 stack)
    (fun done ns => ∀ a stack, walk table done (⟨a, ns⟩ :: stack)
      = walk table ((visitAll table done ns).1.append a) stack)
    ?visit ?nil ?met ?absent ?new done ns a stack
  case visit =>
    intro done a ih stack
    rw [visit_eq, Waiting.start, ih]
  case nil =>
    intro done a stack
    rw [walk, visitAll_nil, Placed.append]
  case met =>
    intro done n ns hSeen ih a stack
    rw [walk_pass fun _ => hSeen, ih, visitAll_pass fun _ => hSeen]
  case absent =>
    intro done n ns _ hNone ih a stack
    rw [walk_pass (by simp [hNone]), ih, visitAll_pass (by simp [hNone])]
  case new =>
    -- the visit of the node returns before the next dependency of the frame below is visited
    intro done n ns hNew b hb later ihVisit ihLater _ a stack
    rw [walk_new hNew hb, ihVisit, ihLater, visitAll_new hNew hb]

theorem place_eq_visitNew (table : Table α) (done : Placed α) (a : α) :
    place table done a = visitNew table done a := by
  unfold place visitNew
  split
  · rfl
  · rw [Waiting.start, walk_waiting, walk, visit_eq, Placed.meet]

/-- **The search with a stack is the recursive search.** -/
theorem sort_eq_recursiveSort (nodes : List α) : sort nodes = recursiveSort nodes := by
  have hPlace : place (Table.ofList nodes) = visitNew (Table.ofList nodes) := by
    funext done a
    exact place_eq_visitNew _ done a
  rw [sort, recursiveSort, hPlace]

/-! ## Sorted nodes -/

/-- **Topologically sorted nodes**: a dependency of a node, other than itself, comes before it. -/
def Sorted (nodes : List α) : Prop :=
  ∀ before a after, nodes = before ++ a :: after →
    ∀ n ∈ Node.dependencies a, n ≠ Node.name a → n ∈ names nodes → n ∈ names before

theorem sorted_sort {nodes : List α} (h : OnlySelfCycles (sort nodes)) : Sorted (sort nodes) := by
  intro before a after hSplit n hn hOther hLocal
  exact sort_precedes_of_onlySelfCycles h hSplit hn hOther (mem_names_sort.mp hLocal)

theorem OnlySelfCycles.sort {nodes : List α} (h : OnlySelfCycles nodes) :
    OnlySelfCycles (sort nodes) := by
  have hLift : ∀ m n, Relation.TransGen (Mentions (Order.sort nodes)) m n →
      Relation.TransGen (Mentions nodes) m n := by
    intro m n hLeads
    exact hLeads.lift id fun _ _ hm => hm.mono fun a ha => mem_of_mem_sort ha
  intro m n hThere hBack
  exact h m n (hLift m n hThere) (hLift n m hBack)

/-- Visiting names that are visited, or not in the table, changes nothing. -/
theorem visitAll_eq_self {table : Table α} {done : Placed α} {ns : List String}
    (h : ∀ n ∈ ns, (table.get? n).isSome → n ∈ done.seen) :
    (visitAll table done ns).1 = done := by
  induction ns with
  | nil => exact visitAll_nil
  | cons n ns ih =>
      rw [visitAll_pass (h n List.mem_cons_self)]
      exact ih fun m hm => h m (List.mem_cons_of_mem n hm)

/-- The state of the search with this postorder and no other visited names. -/
def Placed.ofList (nodes : List α) : Placed α := ⟨(names nodes).reverse, nodes⟩

theorem Placed.mem_seen_ofList {nodes : List α} {n : String} :
    n ∈ (ofList nodes).seen ↔ n ∈ names nodes :=
  List.mem_reverse

/-- A node whose dependencies, other than itself, are visited is appended to the postorder. -/
theorem visitNew_ofList {table : Table α} {before : List α} {a : α}
    (hNew : Node.name a ∉ names before)
    (hDeps : ∀ n ∈ Node.dependencies a, n ≠ Node.name a → (table.get? n).isSome →
      n ∈ names before) :
    visitNew table (.ofList before) a = .ofList (before ++ [a]) := by
  have hMet : ∀ n ∈ Node.dependencies a, (table.get? n).isSome →
      n ∈ ((Placed.ofList before).meet (Node.name a)).seen := by
    intro n hn hLocal
    by_cases hSelf : n = Node.name a
    · rw [hSelf]
      exact List.mem_cons_self
    · exact List.mem_cons_of_mem _ (Placed.mem_seen_ofList.mpr (hDeps n hn hSelf hLocal))
  rw [visitNew, if_neg (mt Placed.mem_seen_ofList.mp hNew), visit_eq, visitAll_eq_self hMet]
  simp [Placed.meet, Placed.append, Placed.ofList, names]

/-- **The run lemma of sorted nodes.** The dependencies of each node are visited before it, so the
postorder is the given order. -/
theorem foldl_visitNew_sorted {nodes : List α} (before rest : List α)
    (hNodes : nodes = before ++ rest) (hDistinct : (names nodes).Nodup) (hSorted : Sorted nodes) :
    rest.foldl (visitNew (Table.ofList nodes)) (.ofList before) = .ofList nodes := by
  induction rest generalizing before with
  | nil => rw [hNodes, List.append_nil, List.foldl_nil]
  | cons a rest ih =>
      have hNew : Node.name a ∉ names before := by
        rw [hNodes, names_append, List.nodup_append] at hDistinct
        exact fun hMem => hDistinct.2.2 _ hMem _ List.mem_cons_self rfl
      have hVisit : visitNew (Table.ofList nodes) (.ofList before) a = .ofList (before ++ [a]) :=
        visitNew_ofList hNew fun n hn hOther hLocal =>
          hSorted before a rest hNodes n hn hOther (get?_ofList_isSome.mp hLocal)
      rw [List.foldl_cons, hVisit]
      exact ih (before ++ [a]) (by simp [hNodes])

theorem sort_eq_self {nodes : List α} (hDistinct : (names nodes).Nodup)
    (hSorted : Sorted nodes) : sort nodes = nodes := by
  rw [sort_eq_recursiveSort, recursiveSort]
  exact congrArg Placed.order (foldl_visitNew_sorted [] nodes rfl hDistinct hSorted)

end Order

/-! ## The order of definitions -/

open GraphCodec.Order

/-- **Sorting is the postorder of the recursive depth-first search.** Each definition is visited in
turn, unless its name is visited: its name is marked, the last definitions of its unvisited
dependencies are visited in order, and then it is appended. -/
theorem sortDefinitions_eq_recursive (ds : List Definition) :
    sortDefinitions ds = recursiveSort ds :=
  sort_eq_recursiveSort ds

/-- Two types refer to each other and share a third. The search enters the cycle at the first of
them, skips the back edge, and appends the shared type once. -/
example :
    let user : Definition :=
      ⟨"User", .object [⟨"team", .named "Team" true⟩, ⟨"joined", .named "Date" true⟩]⟩
    let team : Definition :=
      ⟨"Team", .object [⟨"lead", .named "User" true⟩, ⟨"founded", .named "Date" true⟩]⟩
    let date : Definition := ⟨"Date", .scalar⟩
    sortDefinitions [user, team, date] = [date, team, user] ∧
      recursiveSort [user, team, date] = [date, team, user] := by
  cbv

/-- **Sorting leaves sorted definitions unchanged.** So sorting is idempotent, if the dependency
graph has no cycles but self-loops. -/
theorem sortDefinitions_stable :
    (∀ ds : List Definition, (names ds).Nodup → Sorted ds → sortDefinitions ds = ds) ∧
      ∀ ds : List Definition, OnlySelfCycles ds →
        sortDefinitions (sortDefinitions ds) = sortDefinitions ds := by
  refine ⟨fun ds hDistinct hSorted => sort_eq_self hDistinct hSorted, fun ds hSelf => ?_⟩
  exact sort_eq_self (names_sort_nodup ds) (sorted_sort hSelf.sort)

namespace Thread

theorem definitions_onlySelfCycles : OnlySelfCycles definitions := by
  refine onlySelfCycles_of_rank (fun n => ["Image", "Author", "Post"].idxOf n) ?_
  rintro m n ⟨d, hd, rfl, hn⟩
  simp only [definitions, List.mem_cons, List.not_mem_nil, or_false] at hd
  rcases hd with rfl | rfl | rfl
  · revert n
    decide
  · cases hn
  · revert n
    decide

/-- A self-loop does not keep definitions from being sorted. -/
theorem definitions_stable :
    (names [author, post]).Nodup ∧ Sorted [author, post] ∧
      sortDefinitions [author, post] = [author, post] ∧ OnlySelfCycles definitions ∧
      sortDefinitions (sortDefinitions definitions) = sortDefinitions definitions := by
  have hDistinct : (names [author, post]).Nodup := by decide
  have hSorted : Sorted [author, post] := by
    rw [← sort_definitions]
    exact sorted_sort onlySelfCycles
  exact ⟨hDistinct, hSorted, sortDefinitions_stable.1 _ hDistinct hSorted,
    definitions_onlySelfCycles, sortDefinitions_stable.2 _ definitions_onlySelfCycles⟩

/-- On a cycle sorting is not idempotent. -/
example :
    let fan : Definition := ⟨"Fan", .object [⟨"idol", .named "Star" true⟩]⟩
    let star : Definition := ⟨"Star", .object [⟨"fans", .list (.named "Fan" true) true⟩]⟩
    sortDefinitions [fan, star] = [star, fan] ∧ sortDefinitions [star, fan] = [fan, star] := by
  cbv

end Thread

end GraphCodec
