import Mathlib.Data.List.Chain
import Mathlib.Logic.Relation
import GraphCodec.Schema.Order

/-!
# Sorting is topological

`Order.sort` emits one node for every name, and each of them after its dependencies unless these
reach it (`sort_dependenciesFirst`). The depth-first search has a single invariant, `Walking`: the
visited names are those of the postorder and of the stack, each frame is a dependency of the frame
below it, and the dependencies that are no longer pending are visited. A node is popped when none of
its dependencies is pending; a dependency that is visited and not in the postorder belongs to a
frame further down the stack, and from there the stack itself is the path back.
-/

set_option autoImplicit false

namespace GraphCodec

namespace Order

open Relation

variable {α : Type} [Node α]

/-- The names of nodes, in order. -/
def names (nodes : List α) : List String := nodes.map Node.name

theorem mem_names {nodes : List α} {n : String} :
    n ∈ names nodes ↔ ∃ a ∈ nodes, Node.name a = n := by
  simp [names]

theorem names_append (l l' : List α) : names (l ++ l') = names l ++ names l' := by
  simp [names]

/-- There is an edge from `m` to `n` in the dependency graph. -/
def Mentions (nodes : List α) (m n : String) : Prop :=
  ∃ a ∈ nodes, Node.name a = m ∧ n ∈ Node.dependencies a

theorem Mentions.mono {l l' : List α} (hSub : ∀ a ∈ l, a ∈ l') {m n : String}
    (h : Mentions l m n) : Mentions l' m n := by
  obtain ⟨a, ha, hName, hDep⟩ := h
  exact ⟨a, hSub a ha, hName, hDep⟩

/-- **Topological order, except inside cycles.** Every dependency of a node that is in the table
comes before the node, or reaches it in the dependency graph of `all`. -/
def DependenciesFirst (table : Table α) (all order : List α) : Prop :=
  ∀ before a after, order = before ++ a :: after →
    ∀ n ∈ Node.dependencies a, (table.get? n).isSome →
      n ∈ names before ∨ ReflTransGen (Mentions all) n (Node.name a)

theorem DependenciesFirst.mono {table : Table α} {all all' order : List α}
    (hSub : ∀ a ∈ all, a ∈ all') (h : DependenciesFirst table all order) :
    DependenciesFirst table all' order := by
  intro before a after hOrder n hn hLocal
  rcases h before a after hOrder n hn hLocal with hBefore | hLeads
  · exact Or.inl hBefore
  · exact Or.inr (hLeads.lift id fun _ _ hm => hm.mono hSub)

theorem DependenciesFirst.snoc {table : Table α} {all order : List α} {a : α}
    (h : DependenciesFirst table all order)
    (ha : ∀ n ∈ Node.dependencies a, (table.get? n).isSome →
      n ∈ names order ∨ ReflTransGen (Mentions all) n (Node.name a)) :
    DependenciesFirst table all (order ++ [a]) := by
  intro before b after hOrder
  rcases List.eq_nil_or_concat after with rfl | ⟨after, z, rfl⟩
  · obtain ⟨rfl, hb⟩ := List.append_inj' hOrder rfl
    obtain rfl : a = b := by simpa using hb
    exact ha
  · have hSplit : order ++ [a] = (before ++ b :: after) ++ [z] := by simpa using hOrder
    exact h before b after (List.append_inj' hSplit rfl).1

/-! ## The invariant of the search -/

/-- The visited nodes: the postorder, then the stack. -/
def met (done : Placed α) (stack : List (Waiting α)) : List α :=
  done.order ++ stack.map Waiting.node

/-- **The invariant of the depth-first search.** -/
structure Walking (table : Table α) (done : Placed α) (stack : List (Waiting α)) : Prop where
  known : ∀ a ∈ met done stack, a ∈ table
  nodup : (names (met done stack)).Nodup
  seen : ∀ n, n ∈ done.seen ↔ n ∈ names (met done stack)
  /-- Every frame is a dependency of the frame below it. -/
  chain : (stack.map Waiting.node).IsChain fun a b => Node.name a ∈ Node.dependencies b
  pending : ∀ w ∈ stack, ∀ n ∈ w.pending, n ∈ Node.dependencies w.node
  /-- A dependency that is no longer pending is visited, or not in the table. -/
  looked : ∀ w ∈ stack, ∀ n ∈ Node.dependencies w.node, (table.get? n).isSome →
    n ∈ w.pending ∨ n ∈ done.seen
  first : DependenciesFirst table (met done stack) done.order

/-- Every node of the stack reaches the node on top. -/
theorem leads_of_chain {all : List α} (a : α) (nodes : List α)
    (hSub : ∀ b ∈ nodes, b ∈ all)
    (hChain : (a :: nodes).IsChain fun a b => Node.name a ∈ Node.dependencies b) :
    ∀ n ∈ names (a :: nodes), ReflTransGen (Mentions all) n (Node.name a) := by
  induction nodes generalizing a with
  | nil =>
      intro n hn
      obtain rfl : n = Node.name a := by simpa [names] using hn
      exact .refl
  | cons b nodes ih =>
      intro n hn
      rw [List.isChain_cons_cons] at hChain
      rcases List.mem_cons.mp hn with rfl | hn
      · exact .refl
      · have hb : b ∈ all := hSub b (by simp)
        have hTail := ih b (fun c hc => hSub c (by simp [hc])) hChain.2 n hn
        exact hTail.tail ⟨b, hb, rfl, hChain.1⟩

/-- A frame without pending dependencies can be popped. -/
theorem Walking.place {table : Table α} {done : Placed α} {a : α} {stack : List (Waiting α)}
    (h : Walking table done (⟨a, []⟩ :: stack)) :
    Walking table { done with order := done.order ++ [a] } stack := by
  have hMet : met { done with order := done.order ++ [a] } stack
      = met done (⟨a, []⟩ :: stack) := by simp [met]
  refine ⟨?_, ?_, ?_, ?_, ?_, ?_, ?_⟩
  · rw [hMet]; exact h.known
  · rw [hMet]; exact h.nodup
  · rw [hMet]; exact h.seen
  · exact h.chain.tail
  · exact fun w hw => h.pending w (List.mem_cons_of_mem _ hw)
  · exact fun w hw => h.looked w (List.mem_cons_of_mem _ hw)
  · rw [hMet]
    refine h.first.snoc fun n hn hLocal => ?_
    have hSeen : n ∈ done.seen := by
      simpa using h.looked _ List.mem_cons_self n hn hLocal
    rw [h.seen, met, names_append, List.mem_append] at hSeen
    rcases hSeen with hPlaced | hWaiting
    · exact Or.inl hPlaced
    · refine Or.inr (leads_of_chain a (stack.map Waiting.node) ?_ h.chain n hWaiting)
      intro b hb
      exact List.mem_append_right _ (List.mem_cons_of_mem _ hb)

/-- A pending dependency that is visited, or not in the table, can be dropped. -/
theorem Walking.skip {table : Table α} {done : Placed α} {a : α} {n : String}
    {ns : List String} (top : List (Waiting α)) {stack : List (Waiting α)}
    (h : Walking table done (top ++ ⟨a, n :: ns⟩ :: stack))
    (hn : (table.get? n).isSome → n ∈ done.seen) :
    Walking table done (top ++ ⟨a, ns⟩ :: stack) := by
  have hNodes : (top ++ ⟨a, ns⟩ :: stack).map Waiting.node
      = (top ++ ⟨a, n :: ns⟩ :: stack).map Waiting.node := by simp
  have hMet : met done (top ++ ⟨a, ns⟩ :: stack)
      = met done (top ++ ⟨a, n :: ns⟩ :: stack) := by rw [met, met, hNodes]
  refine ⟨?_, ?_, ?_, ?_, ?_, ?_, ?_⟩
  · rw [hMet]; exact h.known
  · rw [hMet]; exact h.nodup
  · rw [hMet]; exact h.seen
  · rw [hNodes]; exact h.chain
  · intro w hw m hm
    rcases List.mem_append.mp hw with hw | hw
    · exact h.pending w (List.mem_append_left _ hw) m hm
    · rcases List.mem_cons.mp hw with rfl | hw
      · exact h.pending ⟨a, n :: ns⟩ (by simp) m (List.mem_cons_of_mem _ hm)
      · exact h.pending w (by simp [hw]) m hm
  · intro w hw m hm hLocal
    rcases List.mem_append.mp hw with hw | hw
    · exact h.looked w (List.mem_append_left _ hw) m hm hLocal
    · rcases List.mem_cons.mp hw with rfl | hw
      · rcases h.looked ⟨a, n :: ns⟩ (by simp) m hm hLocal with hPending | hSeen
        · rcases List.mem_cons.mp hPending with rfl | hPending
          · exact Or.inr (hn hLocal)
          · exact Or.inl hPending
        · exact Or.inr hSeen
      · exact h.looked w (by simp [hw]) m hm hLocal
  · rw [hMet]; exact h.first

/-- An unvisited node can be pushed, if it is a dependency of the top frame or the stack is
empty. -/
theorem Walking.push {table : Table α} {done : Placed α} {b : α} {stack : List (Waiting α)}
    (h : Walking table done stack) (hb : b ∈ table) (hNew : Node.name b ∉ done.seen)
    (hTop : ∀ w ∈ stack.head?, Node.name b ∈ Node.dependencies w.node) :
    Walking table { done with seen := Node.name b :: done.seen } (.start b :: stack) := by
  have hMem : ∀ c, c ∈ met { done with seen := Node.name b :: done.seen } (.start b :: stack) ↔
      c = b ∨ c ∈ met done stack := by
    intro c
    simp only [met, Waiting.start, List.map_cons, List.mem_append, List.mem_cons]
    tauto
  have hPerm : (names (met { done with seen := Node.name b :: done.seen }
      (.start b :: stack))).Perm (Node.name b :: names (met done stack)) := by
    simp only [met, names, Waiting.start, List.map_append, List.map_cons]
    exact List.perm_middle
  refine ⟨?_, ?_, ?_, ?_, ?_, ?_, ?_⟩
  · intro c hc
    rcases (hMem c).mp hc with rfl | hc
    · exact hb
    · exact h.known c hc
  · rw [hPerm.nodup_iff, List.nodup_cons, ← h.seen]
    exact ⟨hNew, h.nodup⟩
  · intro n
    rw [hPerm.mem_iff, List.mem_cons, List.mem_cons, h.seen]
  · rw [List.map_cons, List.isChain_cons]
    refine ⟨?_, h.chain⟩
    intro c hc
    rw [List.head?_map, Option.mem_def, Option.map_eq_some_iff] at hc
    obtain ⟨w, hw, rfl⟩ := hc
    exact hTop w hw
  · intro w hw n hn
    rcases List.mem_cons.mp hw with rfl | hw
    · exact hn
    · exact h.pending w hw n hn
  · intro w hw n hn hLocal
    rcases List.mem_cons.mp hw with rfl | hw
    · exact Or.inl hn
    · rcases h.looked w hw n hn hLocal with hPending | hSeen
      · exact Or.inl hPending
      · exact Or.inr (List.mem_cons_of_mem _ hSeen)
  · exact h.first.mono fun c hc => (hMem c).mpr (Or.inr hc)

/-- **The run lemma of the depth-first search**: it ends with an empty stack and keeps the visited
names. -/
theorem walk_walking (table : Table α) (done : Placed α) (stack : List (Waiting α))
    (h : Walking table done stack) :
    Walking table (walk table done stack) [] ∧
      ∀ n ∈ done.seen, n ∈ (walk table done stack).seen := by
  fun_induction walk table done stack with
  | case1 done => exact ⟨h, fun _ hn => hn⟩
  | case2 done a stack ih => exact ih h.place
  | case3 done a n ns stack hSeen ih => exact ih (h.skip [] fun _ => hSeen)
  | case4 done a n ns stack hNew hNone ih =>
      refine ih (h.skip [] fun hSome => ?_)
      rw [hNone] at hSome
      cases hSome
  | case5 done a n ns stack hNew b hb ih =>
      -- the node is pushed, and its name is visited before it is popped
      obtain rfl : Node.name b = n := Table.name_of_get? hb
      have hDep : Node.name b ∈ Node.dependencies a :=
        h.pending ⟨a, Node.name b :: ns⟩ List.mem_cons_self _ List.mem_cons_self
      have hPush := h.push (Table.mem_of_get? hb) hNew (by simpa using hDep)
      obtain ⟨hDone, hKeep⟩ := ih (hPush.skip [.start b] fun _ => List.mem_cons_self)
      exact ⟨hDone, fun m hm => hKeep m (List.mem_cons_of_mem _ hm)⟩

/-! ## The whole order -/

theorem place_walking (table : Table α) (done : Placed α) (a : α) (h : Walking table done [])
    (ha : a ∈ table) :
    Walking table (place table done a) [] ∧ Node.name a ∈ (place table done a).seen ∧
      ∀ n ∈ done.seen, n ∈ (place table done a).seen := by
  unfold place
  split
  · rename_i hSeen
    exact ⟨h, hSeen, fun _ hn => hn⟩
  · rename_i hNew
    obtain ⟨hDone, hKeep⟩ := walk_walking table _ _ (h.push ha hNew (by simp))
    exact ⟨hDone, hKeep _ List.mem_cons_self, fun n hn => hKeep n (List.mem_cons_of_mem _ hn)⟩

theorem foldl_place_walking (table : Table α) (nodes : List α) (done : Placed α)
    (h : Walking table done []) (hNodes : ∀ a ∈ nodes, a ∈ table) :
    Walking table (nodes.foldl (place table) done) [] ∧
      (∀ n ∈ done.seen, n ∈ (nodes.foldl (place table) done).seen) ∧
      ∀ a ∈ nodes, Node.name a ∈ (nodes.foldl (place table) done).seen := by
  induction nodes generalizing done with
  | nil => exact ⟨h, fun _ hn => hn, by simp⟩
  | cons a nodes ih =>
      obtain ⟨hPlace, hSeen, hKeep⟩ := place_walking table done a h (hNodes a (by simp))
      obtain ⟨hDone, hKeep', hAll⟩ := ih _ hPlace (fun b hb => hNodes b (by simp [hb]))
      refine ⟨hDone, fun n hn => hKeep' n (hKeep n hn), ?_⟩
      intro b hb
      rcases List.mem_cons.mp hb with rfl | hb
      · exact hKeep' _ hSeen
      · exact hAll b hb

theorem walking_start (table : Table α) : Walking table ⟨[], []⟩ [] := by
  refine ⟨?_, ?_, ?_, ?_, ?_, ?_, ?_⟩
  · simp [met]
  · simp [met, names]
  · simp [met, names]
  · simp
  · simp
  · simp
  · intro before a after hOrder
    simp at hOrder

theorem sort_walking (nodes : List α) :
    ∃ seen, Walking (Table.ofList nodes) ⟨seen, sort nodes⟩ [] ∧
      ∀ a ∈ nodes, Node.name a ∈ seen := by
  obtain ⟨hDone, -, hAll⟩ := foldl_place_walking (Table.ofList nodes) nodes _
    (walking_start _) (fun a ha => by simpa [Table.ofList] using ha)
  exact ⟨_, hDone, hAll⟩

/-- The order consists of the given nodes. -/
theorem mem_of_mem_sort {nodes : List α} {a : α} (ha : a ∈ sort nodes) : a ∈ nodes := by
  obtain ⟨seen, hDone, -⟩ := sort_walking nodes
  have h := hDone.known a (by simpa [met] using ha)
  simpa [Table.ofList] using h

/-- No name occurs twice in the order. -/
theorem names_sort_nodup (nodes : List α) : (names (sort nodes)).Nodup := by
  obtain ⟨seen, hDone, -⟩ := sort_walking nodes
  simpa [met] using hDone.nodup

/-- Every name occurs in the order. -/
theorem mem_names_sort {nodes : List α} {n : String} :
    n ∈ names (sort nodes) ↔ n ∈ names nodes := by
  constructor
  · intro hn
    obtain ⟨a, ha, rfl⟩ := mem_names.mp hn
    exact mem_names.mpr ⟨a, mem_of_mem_sort ha, rfl⟩
  · intro hn
    obtain ⟨a, ha, rfl⟩ := mem_names.mp hn
    obtain ⟨seen, hDone, hAll⟩ := sort_walking nodes
    have hSeen := (hDone.seen _).mp (hAll a ha)
    simpa [met] using hSeen

/-- **The order is topological, except inside cycles.** -/
theorem sort_dependenciesFirst (nodes : List α) :
    DependenciesFirst (Table.ofList nodes) (sort nodes) (sort nodes) := by
  obtain ⟨seen, hDone, -⟩ := sort_walking nodes
  simpa [met] using hDone.first

/-! ## Cycles -/

/-- The only cycles of the dependency graph are self-loops. -/
def OnlySelfCycles (nodes : List α) : Prop :=
  ∀ m n, TransGen (Mentions nodes) m n → TransGen (Mentions nodes) n m → m = n

/-- A rank that decreases along all edges but self-loops excludes other cycles. -/
theorem onlySelfCycles_of_rank {nodes : List α} (rank : String → Nat)
    (h : ∀ m n, Mentions nodes m n → m = n ∨ rank n < rank m) : OnlySelfCycles nodes := by
  have hFalls : ∀ m n, TransGen (Mentions nodes) m n → m = n ∨ rank n < rank m := by
    intro m n hLeads
    induction hLeads with
    | single hStep => exact h _ _ hStep
    | tail hLeads hStep ih =>
        rcases h _ _ hStep with rfl | hLt
        · exact ih
        · rcases ih with rfl | hLt'
          · exact Or.inr hLt
          · exact Or.inr (by omega)
  intro m n hThere hBack
  rcases hFalls m n hThere with hEq | hLt
  · exact hEq
  · rcases hFalls n m hBack with hEq | hLt'
    · exact hEq.symm
    · omega

theorem get?_ofList_isSome {nodes : List α} {n : String} :
    ((Table.ofList nodes).get? n).isSome ↔ n ∈ names nodes := by
  rw [Table.get?, List.find?_isSome, mem_names]
  simp [Table.ofList]

/-- A dependency of a node, other than itself, comes before it or reaches it. -/
theorem sort_precedes_or_leads {nodes before after : List α} {a : α}
    (hSplit : sort nodes = before ++ a :: after) {n : String} (hn : n ∈ Node.dependencies a)
    (hOther : n ≠ Node.name a) (hLocal : n ∈ names nodes) :
    n ∈ names before ∨ TransGen (Mentions (sort nodes)) n (Node.name a) := by
  rcases sort_dependenciesFirst nodes before a after hSplit n hn
    (get?_ofList_isSome.mpr hLocal) with hBefore | hLeads
  · exact Or.inl hBefore
  · rcases reflTransGen_iff_eq_or_transGen.mp hLeads with hEq | hLeads
    · exact absurd hEq.symm hOther
    · exact Or.inr hLeads

theorem sort_precedes_of_onlySelfCycles {nodes before after : List α} {a : α}
    (hSelf : OnlySelfCycles (sort nodes)) (hSplit : sort nodes = before ++ a :: after)
    {n : String} (hn : n ∈ Node.dependencies a) (hOther : n ≠ Node.name a)
    (hLocal : n ∈ names nodes) : n ∈ names before := by
  rcases sort_precedes_or_leads hSplit hn hOther hLocal with hBefore | hLeads
  · exact hBefore
  · have hStep : Mentions (sort nodes) (Node.name a) n := ⟨a, by simp [hSplit], rfl, hn⟩
    exact absurd (hSelf n (Node.name a) hLeads (.single hStep)) hOther

end Order

/-! ## The order of definitions -/

open GraphCodec.Order Relation

/-- **Sorting is complete, without duplicates, and topological except inside cycles.** There is one
definition for each name, taken from those given; a dependency of a definition comes before it or
reaches it in the dependency graph; and if the graph has no cycles but self-loops, it comes before
it. -/
theorem sortDefinitions_complete_ordered (ds : List Definition) :
    (names (sortDefinitions ds)).Nodup ∧
      (∀ n, n ∈ names (sortDefinitions ds) ↔ n ∈ names ds) ∧
      (∀ d ∈ sortDefinitions ds, d ∈ ds) ∧
      (∀ before d after, sortDefinitions ds = before ++ d :: after →
        ∀ n ∈ d.dependencies, n ≠ d.name → n ∈ names ds →
          n ∈ names before ∨ TransGen (Mentions (sortDefinitions ds)) n d.name) ∧
      (OnlySelfCycles (sortDefinitions ds) →
        ∀ before d after, sortDefinitions ds = before ++ d :: after →
          ∀ n ∈ d.dependencies, n ≠ d.name → n ∈ names ds → n ∈ names before) := by
  refine ⟨names_sort_nodup ds, fun n => mem_names_sort, fun d hd => mem_of_mem_sort hd, ?_, ?_⟩
  · intro before d after hSplit n hn hOther hLocal
    exact sort_precedes_or_leads hSplit hn hOther hLocal
  · intro hSelf before d after hSplit n hn hOther hLocal
    exact sort_precedes_of_onlySelfCycles hSelf hSplit hn hOther hLocal

namespace Thread

def author : Definition := ⟨"Author", .object [⟨"avatar", .named "Image" false⟩]⟩

def post : Definition :=
  ⟨"Post", .object [⟨"parent", .named "Post" false⟩, ⟨"author", .named "Author" true⟩]⟩

/-- A self-loop, a type defined twice, and a reference to an undefined type. -/
def definitions : List Definition := [post, ⟨"Author", .scalar⟩, author]

theorem sort_definitions : sortDefinitions definitions = [author, post] := by cbv

theorem onlySelfCycles : OnlySelfCycles (sortDefinitions definitions) := by
  rw [sort_definitions]
  refine onlySelfCycles_of_rank (fun n => ["Image", "Author", "Post"].idxOf n) ?_
  rintro m n ⟨d, hd, rfl, hn⟩
  simp only [List.mem_cons, List.not_mem_nil, or_false] at hd
  rcases hd with rfl | rfl
  · revert n
    decide
  · revert n
    decide

/-- The author comes before the post, by its last definition. -/
theorem author_precedes_post :
    OnlySelfCycles (sortDefinitions definitions) ∧
      sortDefinitions definitions = [author] ++ post :: [] ∧ "Author" ∈ post.dependencies ∧
      "Author" ∈ names [author] :=
  ⟨onlySelfCycles, sort_definitions, by decide,
    (sortDefinitions_complete_ordered definitions).2.2.2.2 onlySelfCycles [author] post []
      sort_definitions "Author" (by decide) (by decide) (by decide)⟩

end Thread

end GraphCodec
