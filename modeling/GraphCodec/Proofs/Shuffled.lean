import GraphCodec.Proofs.Coverage

/-!
# Reordered selections

The compiler partitions a selection set into leaf fields, fields with selection sets, and inline
fragments by type condition. Only the order inside each of these lanes matters, and the meta-field
`__typename` is on no lane. So selection sets may be reordered at every depth at once, as long as
each lane keeps its order, and `__typename`s may be added and removed: the operation compiles to the
same codec (`selectionCodec_shuffled`). At the root the order of the fields is that of the response,
so the root selection set is not reordered.
-/

set_option autoImplicit false

namespace GraphCodec

/-! ## Lanes -/

/-- The classes of selections whose relative order matters. -/
inductive Lane where
  | leaf
  | node
  | fragment (condition : Option String)
  | spread
  deriving DecidableEq

/-- The lane of a selection. The meta-field `__typename` has none. -/
def Selection.lane? : Selection → Option Lane
  | leaf shown name directives =>
    if shown = none ∧ name = "__typename" ∧ directives = [] then none else some .leaf
  | node _ _ _ _ => some .node
  | inline condition _ _ => some (.fragment condition)
  | spread _ _ => some .spread

/-- The selections on a lane, in order. -/
def Selections.onLane (lane : Lane) (selections : List Selection) : List Selection :=
  selections.filter (·.lane? = some lane)

/-- **Selections with reordered selection sets**, at any depth. Corresponding selection sets have
the same selections on each lane. -/
inductive Selection.Reordered : Selection → Selection → Prop
  | leaf (shown : Option String) (name : String) (directives : List String) :
      Reordered (.leaf shown name directives) (.leaf shown name directives)
  | spread (name : String) (directives : List String) :
      Reordered (.spread name directives) (.spread name directives)
  | node {shown : Option String} {name : String} {directives : List String}
      {l l' : List Selection}
      (h : ∀ lane, List.Forall₂ Reordered (Selections.onLane lane l) (Selections.onLane lane l')) :
      Reordered (.node shown name directives l) (.node shown name directives l')
  | inline {condition : Option String} {directives : List String} {l l' : List Selection}
      (h : ∀ lane, List.Forall₂ Reordered (Selections.onLane lane l) (Selections.onLane lane l')) :
      Reordered (.inline condition directives l) (.inline condition directives l')

/-- Reordered selection sets. -/
def Selections.Shuffled (l l' : List Selection) : Prop :=
  ∀ lane, List.Forall₂ Selection.Reordered (onLane lane l) (onLane lane l')

/-- **Operations with reordered selection sets** below the root fields. -/
structure Operation.Shuffled (op op' : Operation) : Prop where
  kind : op'.kind = op.kind
  name : op'.name = op.name
  selections : List.Forall₂ Selection.Reordered op.selections op'.selections

namespace Selection

variable {s s' : Selection}

theorem Reordered.inner (h : Reordered s s') : Selections.Shuffled s.inner s'.inner := by
  cases h with
  | leaf => exact fun _ => .nil
  | spread => exact fun _ => .nil
  | node h => exact h
  | inline h => exact h

theorem Reordered.name_eq (h : Reordered s s') : s'.name = s.name := by
  cases h <;> rfl

theorem Reordered.isField_eq (h : Reordered s s') : s'.isField = s.isField := by
  cases h <;> rfl

theorem Reordered.leaf?_eq (h : Reordered s s') : s'.leaf? = s.leaf? := by
  cases h <;> rfl

theorem Reordered.plain (h : Reordered s s') (hs : s.Plain) : s'.Plain := by
  cases h with
  | leaf => exact hs
  | spread => exact hs
  | node h =>
      cases hs
      exact .node _ _
  | inline h =>
      cases hs
      exact .inline _ _

theorem Reordered.refl (s : Selection) : Reordered s s := by
  -- the relation goes through lanes, which are lists, so the induction is on the size
  induction hk : sizeOf s using Nat.strongRecOn generalizing s with
  | _ k ih =>
    subst hk
    have hInner : Selections.Shuffled s.inner s.inner := by
      intro lane
      rw [List.forall₂_same]
      intro t ht
      exact ih _ (sizeOf_lt_of_mem_inner (List.mem_filter.mp ht).1) t rfl
    cases s with
    | leaf shown name directives => exact .leaf shown name directives
    | spread name directives => exact .spread name directives
    | node shown name directives ss => exact .node hInner
    | inline condition directives ss => exact .inline hInner

theorem Reordered.symm (h : Reordered s s') : Reordered s' s := by
  induction hk : sizeOf s using Nat.strongRecOn generalizing s s' with
  | _ k ih =>
    subst hk
    have hInner : Selections.Shuffled s'.inner s.inner := by
      intro lane
      have hMem : ∀ t ∈ Selections.onLane lane s.inner, t ∈ s.inner := fun t ht =>
        (List.mem_filter.mp ht).1
      refine (((List.forall₂_and_left _ _).mpr ⟨hMem, h.inner lane⟩).imp ?_).flip
      rintro t t' ⟨ht, hReordered⟩
      exact ih _ (sizeOf_lt_of_mem_inner ht) hReordered rfl
    cases h with
    | leaf shown name directives => exact .leaf shown name directives
    | spread name directives => exact .spread name directives
    | node h => exact .node hInner
    | inline h => exact .inline hInner

end Selection

namespace Selections

open Selection

variable {l l' : List Selection}

/-! ## Invariants of reordering -/

theorem mem_onLane {lane : Lane} {t : Selection} :
    t ∈ onLane lane l ↔ t ∈ l ∧ t.lane? = some lane := by
  simp [onLane]

theorem Shuffled.symm (h : Shuffled l l') : Shuffled l' l :=
  fun lane => ((h lane).imp fun _ _ ht => ht.symm).flip

/-- Every selection of a reordered set is one of the original, or is a `__typename`. -/
theorem Shuffled.exists_of_mem (h : Shuffled l l') {t' : Selection} (ht' : t' ∈ l') :
    t' = .leaf none "__typename" [] ∨ ∃ t ∈ l, Reordered t t' := by
  cases hLane : t'.lane? with
  | none =>
      cases t' with
      | leaf shown name directives =>
          obtain ⟨rfl, rfl, rfl⟩ : shown = none ∧ name = "__typename" ∧ directives = [] := by
            simpa [lane?] using hLane
          exact Or.inl rfl
      | _ => cases hLane
  | some lane =>
      obtain ⟨t, ht, hReordered⟩ :=
        exists_left_of_forall₂ (h lane) (mem_onLane.mpr ⟨ht', hLane⟩)
      exact Or.inr ⟨t, (mem_onLane.mp ht).1, hReordered⟩

theorem Shuffled.check_eq_ok (h : Shuffled l l') (hCheck : check l = .ok ()) :
    check l' = .ok () := by
  rw [Selections.check_eq_ok] at hCheck ⊢
  intro t' ht'
  rcases h.exists_of_mem ht' with rfl | ⟨t, ht, hReordered⟩
  · exact .leaf _
  · exact hReordered.plain (hCheck t ht)

theorem nodes_eq_onLane (l : List Selection) : nodes l = onLane .node l := by
  refine List.filter_congr fun t _ => ?_
  cases t with
  | leaf shown name directives =>
      rw [lane?]
      split_ifs <;> rfl
  | _ => rfl

theorem Shuffled.nodes (h : Shuffled l l') :
    List.Forall₂ Reordered (nodes l) (nodes l') := by
  rw [nodes_eq_onLane, nodes_eq_onLane]
  exact h .node

theorem leaves_eq_onLane (l : List Selection) :
    leaves l = (onLane .leaf l).filterMap leaf? := by
  rw [leaves, onLane, List.filterMap_filter]
  refine List.filterMap_congr fun t _ => ?_
  cases t with
  | leaf shown name directives =>
      by_cases hBare : shown = none ∧ name = "__typename" ∧ directives = []
      · simp [lane?, leaf?, hBare]
      · simp [lane?, hBare]
  | _ => simp [leaf?]

theorem Shuffled.leaves_eq (h : Shuffled l l') : leaves l' = leaves l := by
  rw [leaves_eq_onLane, leaves_eq_onLane]
  have hLane := h .leaf
  -- only the lane of leaves counts; what else is in the sets is forgotten
  generalize onLane .leaf l = r, onLane .leaf l' = r' at hLane
  induction hLane with
  | nil => rfl
  | cons hHead hTail ih => rw [List.filterMap_cons, List.filterMap_cons, hHead.leaf?_eq, ih]

theorem Shuffled.isBare_eq (h : Shuffled l l') : isBare l' = isBare l := by
  have hAny : l'.any isNode = l.any isNode := by
    rw [Bool.eq_iff_iff, List.any_eq_true, List.any_eq_true]
    constructor
    · rintro ⟨t', ht', hNode⟩
      obtain ⟨t, ht, -⟩ := exists_left_of_forall₂ h.nodes (mem_nodes.mpr ⟨ht', hNode⟩)
      exact ⟨t, mem_nodes.mp ht⟩
    · rintro ⟨t, ht, hNode⟩
      obtain ⟨t', ht', -⟩ := exists_right_of_forall₂ h.nodes (mem_nodes.mpr ⟨ht, hNode⟩)
      exact ⟨t', mem_nodes.mp ht'⟩
  rw [isBare, isBare, h.leaves_eq, hAny]

/-- The first inline fragment on a type is the first of its lane. -/
theorem fragment?_eq_onLane (type : String) (l : List Selection) :
    fragment? type l = (onLane (.fragment (some type)) l).head?.map inner := by
  induction l with
  | nil => rfl
  | cons s rest ih =>
      by_cases hs : s.condition? = some type
      · obtain ⟨directives, inner, rfl⟩ := eq_inline_of_condition? hs
        simp [fragment?, onLane, lane?, Selection.inner]
      · have hLane : s.lane? ≠ some (.fragment (some type)) := by
          cases s with
          | leaf shown name directives =>
              rw [lane?]
              split_ifs <;> simp
          | inline condition directives inner => simpa [lane?, condition?] using hs
          | _ => simp [lane?]
        rw [fragment?_cons_other hs, ih, onLane, onLane,
          List.filter_cons_of_neg (by simpa using hLane)]

theorem Shuffled.fragment? (h : Shuffled l l') {type : String} {inner : List Selection}
    (hInner : fragment? type l = some inner) :
    ∃ inner', Selections.fragment? type l' = some inner' ∧ Shuffled inner inner' := by
  rw [fragment?_eq_onLane] at hInner ⊢
  have hLane := h (.fragment (some type))
  generalize onLane (.fragment (some type)) l = r at hLane hInner
  generalize onLane (.fragment (some type)) l' = r' at hLane ⊢
  cases hLane with
  | nil => cases hInner
  | cons hHead hTail =>
      cases hInner
      exact ⟨_, rfl, hHead.inner⟩

/-- Reordering keeps the type conditions. -/
theorem Shuffled.mem_conditions_iff (h : Shuffled l l') {type : String} :
    type ∈ conditions l' ↔ type ∈ conditions l := by
  -- one direction is enough, for shuffling is symmetric
  have hMono : ∀ {k k' : List Selection}, Shuffled k k' → type ∈ conditions k →
      type ∈ conditions k' := by
    intro k k' hk hMem
    by_contra hNot
    cases hInner : Selections.fragment? type k with
    | none => exact fragment?_eq_none.mp hInner hMem
    | some inner =>
        obtain ⟨inner', hInner', -⟩ := hk.fragment? hInner
        rw [fragment?_eq_none.mpr hNot] at hInner'
        cases hInner'
  exact ⟨hMono h.symm, hMono h⟩

theorem Shuffled.conditions_eq_nil_iff (h : Shuffled l l') :
    conditions l' = [] ↔ conditions l = [] := by
  simp only [List.eq_nil_iff_forall_not_mem, h.mem_conditions_iff]

theorem Shuffled.checkCover (h : Shuffled l l') {union : String} {names : List String}
    (hCover : checkCover union names (conditions l) = .ok ()) :
    checkCover union names (conditions l') = .ok () := by
  rw [checkCover_eq_ok] at hCover ⊢
  simpa only [h.mem_conditions_iff] using hCover

/-! ## Reordered selections compile to the same codec -/

/-- The field compiles to the codec under every reordering below it. -/
def CompilesShuffled (parent : Codec) (s : Selection) (c : Codec) : Prop :=
  ∀ s', Reordered s s' → Compiles parent s' c

theorem BodyCodec.shuffled {on c : Codec} (hBody : BodyCodec CompilesShuffled on l c)
    (h : Shuffled l l') : BodyCodec Compiles on l' c := by
  obtain ⟨nested, hNested, rfl⟩ := hBody
  refine ⟨nested, (forall₂_of_left h.nodes hNested).imp ?_, by rw [codec, codec, h.leaves_eq]⟩
  rintro t' d ⟨t, hReordered, type, hType, rfl⟩
  exact ⟨type, hType t' hReordered, by rw [hReordered.name_eq]⟩

/-- **The step lemma of reordering.** If reordering preserves the codecs of the nested fields, it
preserves that of the field. -/
theorem Exit.shuffled {parent c : Codec} {name : String}
    (hExit : Exit CompilesShuffled parent name l c) (h : Shuffled l l') :
    Exit Compiles parent name l' c := by
  cases hExit with
  | scalar hType hCheck hCore => exact .scalar hType (h.check_eq_ok hCheck) hCore
  | union hType hCheck hCore hSome hCover hMembers =>
      refine .union hType (h.check_eq_ok hCheck) hCore (by rwa [Ne, h.conditions_eq_nil_iff])
        (h.checkCover hCover) (hMembers.imp ?_)
      rintro m d ⟨inner, hInner, hInnerCheck, hBody⟩
      obtain ⟨inner', hInner', hShuffled⟩ := h.fragment? hInner
      exact ⟨inner', hInner', hShuffled.check_eq_ok hInnerCheck, hBody.shuffled hShuffled⟩
  | whole hType hCheck hCore hNone hBare =>
      exact .whole hType (h.check_eq_ok hCheck) hCore (h.conditions_eq_nil_iff.mpr hNone)
        (h.isBare_eq.trans hBare)
  | object hType hCheck hCore hNone hBare hBody =>
      exact .object hType (h.check_eq_ok hCheck) hCore (h.conditions_eq_nil_iff.mpr hNone)
        (h.isBare_eq.trans hBare) (hBody.shuffled h)

/-- **Reordering preserves the codec of a field**, at every depth. -/
theorem Compiles.shuffled {parent c : Codec} {s : Selection} (h : Compiles parent s c) :
    CompilesShuffled parent s c := by
  refine h.induct (motive := CompilesShuffled) fun parent s c hField hExit s' hs => ?_
  rw [compiles_iff, hs.isField_eq, hs.name_eq]
  exact ⟨hField, (hExit.imp fun _ _ _ _ hNested => hNested.2).shuffled hs.inner⟩

end Selections

namespace Operation

open Selections

theorem rootProps_shuffled {root : Codec} {l l' : List Selection}
    {props all : List (String × Codec)} (h : List.Forall₂ Selection.Reordered l l')
    (hAll : rootProps root props l = .ok all) : rootProps root props l' = .ok all := by
  induction h generalizing props with
  | nil => exact hAll
  | @cons s s' rest rest' hHead hTail ih =>
      obtain ⟨hCheck, hField, hNew, c, hc, hRest⟩ := rootProps_cons.mp hAll
      rw [rootProps_cons, hHead.isField_eq, hHead.name_eq]
      refine ⟨?_, hField, hNew, c, hc.shuffled s' hHead, ih hRest⟩
      rw [check_eq_ok, List.forall_mem_singleton] at hCheck ⊢
      exact hHead.plain hCheck

theorem Shuffled.symm {op op' : Operation} (h : op.Shuffled op') : op'.Shuffled op :=
  ⟨h.kind.symm, h.name.symm, (h.selections.imp fun _ _ hs => hs.symm).flip⟩

theorem Shuffled.selectionCodec_eq_ok {op op' : Operation} (h : op.Shuffled op') {root c : Codec}
    (hc : op.selectionCodec root = .ok c) : op'.selectionCodec root = .ok c := by
  obtain ⟨name, props, hName, hProps, rfl⟩ := Operation.selectionCodec_eq_ok.mp hc
  refine Operation.selectionCodec_eq_ok.mpr ⟨name, props, ?_, ?_, ?_⟩
  · rw [h.name, hName]
  · exact rootProps_shuffled h.selections hProps
  · rw [h.kind]

/-- **The order of selections is irrelevant below the root**, if leaf fields, fields with selection
sets, and the inline fragments on each type keep their relative order; and so is `__typename`. On
the same root type, one operation compiles to a codec if and only if the other compiles to that
codec. -/
theorem selectionCodec_shuffled {op op' : Operation} (h : op.Shuffled op') :
    (∀ schema : Schema, op'.root schema = op.root schema) ∧
      ∀ root c, op.selectionCodec root = .ok c ↔ op'.selectionCodec root = .ok c := by
  refine ⟨fun schema => ?_, fun root c => ⟨h.selectionCodec_eq_ok, h.symm.selectionCodec_eq_ok⟩⟩
  rw [Operation.root, Operation.root, h.kind, h.name]

end Operation

namespace Board

open Selections

/-- The board's operation with reordered selections and with `__typename`s. -/
def shuffledOperation : Operation where
  kind := .query
  name := some "Board"
  vars := [⟨"filter", .named "Filter" false⟩]
  selections :=
    [.leaf none "now" [],
      .node none "todos" [] [.node none "due" [] [.leaf none "day" []],
        .leaf none "__typename" [], .leaf none "id" [],
        .node none "owner" [] [.leaf none "__typename" [], .leaf none "name" []]],
      .node none "found" []
        [.inline (some "Todo") [] [.leaf none "id" []], .leaf none "__typename" [],
          .inline (some "User") [] [.leaf none "name" []]]]

theorem operation_shuffled : operation.Shuffled shuffledOperation := by
  refine ⟨rfl, rfl, .cons (.refl _) (.cons (.node ?_) (.cons (.node ?_) .nil))⟩
  · rintro (_ | _ | condition | _)
    · exact .cons (.refl _) .nil
    · refine .cons (.refl _) (.cons (.node ?_) .nil)
      rintro (_ | _ | condition | _)
      · exact .cons (.refl _) .nil
      all_goals exact .nil
    all_goals exact .nil
  · rintro (_ | _ | condition | _)
    · exact .nil
    · exact .nil
    · by_cases hUser : condition = some "User"
      · subst hUser
        exact .cons (.refl _) .nil
      by_cases hTodo : condition = some "Todo"
      · subst hTodo
        exact .cons (.refl _) .nil
      · simp [onLane, Selection.lane?, Ne.symm hUser, Ne.symm hTodo]
    · exact .nil

/-- The board's operation compiles to the same response in either order. -/
theorem shuffledOperation_response :
    operation.Shuffled shuffledOperation ∧ operation.selectionCodec query = .ok response ∧
      shuffledOperation.selectionCodec query = .ok response := by
  have hc : operation.selectionCodec query = .ok response := by cbv
  exact ⟨operation_shuffled, hc,
    ((Operation.selectionCodec_shuffled operation_shuffled).2 query response).mp hc⟩

end Board

end GraphCodec
