import Mathlib.Data.List.Flatten
import Mathlib.Data.List.Nodup
import Mathlib.Data.List.Perm.Subperm
import GraphCodec.Proofs.Coverage

/-!
# Responses are linear in their operations

The codecs of a schema are whole trees: a type contains the types of its fields, and these contain
theirs. Nothing of that is copied into a response. The only codecs that a selection codec takes from
the schema are custom scalars, which are leaves (`Compiles.scalar_of_named`).

So a response can be counted against its operation. Without list and nullable wrappers, a selection
set takes four nodes, a union one, and a nested field one more for its object. Each of these is
charged to a field or an inline fragment of the operation, at five nodes apiece
(`Compiles.afforded`). For this an inline fragment must be compiled once only, and so a union must
not have a member type twice.
-/

set_option autoImplicit false

namespace GraphCodec

/-! ## Counting nodes -/

namespace Codec

/-- The number of nodes other than list and nullable wrappers. -/
def weight (nodes : List Codec) : Nat := nodes.countP fun c => !c.isWrapper

theorem weight_cons (c : Codec) (nodes : List Codec) :
    weight (c :: nodes) = weight nodes + if c.isWrapper then 0 else 1 := by
  rw [weight, weight, List.countP_cons]
  cases c.isWrapper <;> rfl

theorem weight_append (as bs : List Codec) : weight (as ++ bs) = weight as + weight bs :=
  List.countP_append

/-- Wrappers have no weight. -/
theorem weight_replaceCore (t new : Codec) :
    weight (t.replaceCore new).parts = weight new.parts := by
  fun_induction replaceCore t new with
  | case1 c new ih => rw [parts_array, weight_cons, ih]; rfl
  | case2 c new ih => rw [parts_option, weight_cons, ih]; rfl
  | case3 c new => rfl

theorem weight_field (name : String) (c : Codec) :
    weight (object [(name, c)]).parts = weight c.parts + 1 := by
  rw [parts_object, weight_cons, List.flatMap_singleton]
  rfl

/-- The intersection, the two nodes of `__typename` and the `Pick` weigh four. -/
theorem weight_intersection (n : String) (fields : List String) (rest : List Codec) :
    weight (intersection (typename n :: pick n fields :: rest)).parts
      = weight (rest.flatMap parts) + 4 := by
  rw [parts_intersection, weight_cons, List.flatMap_cons, List.flatMap_cons, weight_append,
    weight_append]
  have hTypename : weight (typename n).parts = 2 := rfl
  have hPick : weight (pick n fields).parts = 1 := rfl
  rw [hTypename, hPick]
  simp only [isWrapper, Bool.false_eq_true, if_false]
  omega

end Codec

/-! ## Counting requests -/

mutual

/-- The fields and inline fragments of a selection at any depth, itself first. -/
def Selection.requests : Selection → List Selection
  | .leaf shown name directives => [.leaf shown name directives]
  | .node shown name directives selections =>
    .node shown name directives selections :: Selections.requests selections
  | .inline condition directives selections =>
    .inline condition directives selections :: Selections.requests selections
  | .spread _ _ => []

/-- **The fields and inline fragments of a selection set**, at any depth. -/
def Selections.requests : List Selection → List Selection
  | [] => []
  | s :: rest => s.requests ++ Selections.requests rest

end

theorem Selection.requests_of_isField {s : Selection} (h : s.isField = true) :
    s.requests = s :: Selections.requests s.inner := by
  cases s with
  | leaf => rfl
  | node => rfl
  | _ => cases h

namespace Selections

theorem requests_eq (selections : List Selection) :
    requests selections = selections.flatMap Selection.requests := by
  induction selections with
  | nil => rfl
  | cons s rest ih => rw [requests, ih, List.flatMap_cons]

/-- A sublist of selections, up to order, has no more requests. -/
theorem length_requests_le {kept selections : List Selection} (h : kept.Subperm selections) :
    (requests kept).length ≤ (requests selections).length := by
  obtain ⟨l, hPerm, hSublist⟩ := h
  rw [requests_eq, requests_eq]
  calc (kept.flatMap Selection.requests).length
      = (l.flatMap Selection.requests).length := (hPerm.flatMap_right _).length_eq.symm
    _ ≤ (selections.flatMap Selection.requests).length := (hSublist.flatMap _).length_le

end Selections

/-! ## Charging nodes to requests -/

namespace Selections

open Codec

/-- The codec of a field and an object around it weigh at most five for each request. -/
def Afforded (_ : Codec) (s : Selection) (c : Codec) : Prop :=
  weight c.parts + 1 ≤ 5 * s.requests.length

section

variable {on : Codec} {selections : List Selection}

/-- Bounds on the weights of the parts add up. -/
theorem weight_flatMap_le {α : Type} {nodesOf : α → List Codec} {as : List α}
    (h : List.Forall₂ (fun s a => weight (nodesOf a) ≤ 5 * s.requests.length) selections as) :
    weight (as.flatMap nodesOf) ≤ 5 * (requests selections).length := by
  induction h with
  | nil => exact Nat.zero_le _
  | cons hHead hTail ih =>
      rw [List.flatMap_cons, weight_append, requests, List.length_append]
      omega

theorem weight_nested_le {nested : List Codec}
    (h : List.Forall₂ (NestedCodec Afforded on) selections nested) :
    weight (nested.flatMap parts) ≤ 5 * (requests selections).length := by
  refine weight_flatMap_le (h.imp ?_)
  rintro s o ⟨c, hAfforded, rfl⟩
  rw [weight_field]
  exact hAfforded

theorem BodyCodec.weight_le {c : Codec} (h : BodyCodec Afforded on selections c) :
    weight c.parts ≤ 5 * (requests selections).length + 4 := by
  obtain ⟨nested, hNested, rfl⟩ := h
  have hNodes : (nodes selections).Subperm selections := List.filter_sublist.subperm
  calc weight (codec on selections nested).parts
      = weight (nested.flatMap parts) + 4 := weight_intersection _ _ _
    _ ≤ 5 * (requests (nodes selections)).length + 4 :=
        Nat.add_le_add_right (weight_nested_le hNested) 4
    _ ≤ 5 * (requests selections).length + 4 :=
        Nat.add_le_add_right (Nat.mul_le_mul_left 5 (length_requests_le hNodes)) 4

/-- The entries of a union come from inline fragments that bound their weight. -/
theorem exists_fragments {members entries : List Codec}
    (h : List.Forall₂ (MemberCodec Afforded selections) members entries) :
    ∃ fragments : List Selection,
      fragments.map Selection.condition? = (members.map Codec.name).map some ∧
      fragments ⊆ selections ∧
      weight (entries.flatMap parts) ≤ 5 * (requests fragments).length := by
  induction h with
  | nil => exact ⟨[], rfl, List.nil_subset _, Nat.zero_le _⟩
  | @cons m c members entries hHead hTail ih =>
      obtain ⟨inner, hInner, -, hBody⟩ := hHead
      obtain ⟨directives, hMem⟩ := mem_of_fragment? hInner
      obtain ⟨fragments, hConditions, hSubset, hWeight⟩ := ih
      refine ⟨.inline (some m.name) directives inner :: fragments, ?_, ?_, ?_⟩
      · rw [List.map_cons, hConditions]
        rfl
      · exact List.cons_subset.mpr ⟨hMem, hSubset⟩
      · have hc := hBody.weight_le
        rw [List.flatMap_cons, weight_append, requests, List.length_append, Selection.requests,
          List.length_cons]
        omega

/-- Distinct member types have distinct inline fragments, so their bounds add up to that of the
selection set. -/
theorem weight_entries_le {members entries : List Codec} (hNames : (members.map Codec.name).Nodup)
    (h : List.Forall₂ (MemberCodec Afforded selections) members entries) :
    weight (entries.flatMap parts) ≤ 5 * (requests selections).length := by
  obtain ⟨fragments, hConditions, hSubset, hWeight⟩ := exists_fragments h
  have hNodup : fragments.Nodup := by
    refine List.Nodup.of_map Selection.condition? ?_
    rw [hConditions]
    exact hNames.map (Option.some_injective _)
  have hLength := length_requests_le (List.subperm_of_subset hNodup hSubset)
  omega

end

end Selections

/-- No union has a member type twice. -/
def Schema.DistinctMembers (schema : Schema) : Prop :=
  ∀ union members, .named union (.union members) ∈ schema.types → (members.map Codec.name).Nodup

namespace Selections

open Codec

variable {schema : Schema} {parent c : Codec} {s : Selection}

/-- **The codec of a field is linear in its selection set.** -/
theorem Compiles.afforded (hClosed : schema.Closed) (hDistinct : schema.DistinctMembers)
    (h : Compiles parent s c) (hParent : schema.Knows parent) : Afforded parent s c := by
  refine h.induct (motive := fun parent s c => schema.Knows parent → Afforded parent s c) ?_ hParent
  clear h hParent
  intro parent s c hField hExit hParent
  unfold Afforded
  rw [Selection.requests_of_isField hField, List.length_cons]
  cases hExit with
  | @scalar _ n hType hCheck hCore =>
      have hWeight : weight c.parts = 1 := by
        rw [← replaceCore_self c, weight_replaceCore, hCore]
        rfl
      omega
  | whole hType hCheck hCore hNone hBare =>
      have hWeight : weight (wholeField parent s.name).parts = 4 := weight_intersection _ _ []
      omega
  | object hType hCheck hCore hNone hBare hBody =>
      obtain ⟨-, -, -, hKnows⟩ := hClosed.lookup_prop hParent hType
      have hWeight := (hBody.imp fun t _ d hd => hd.2 hKnows).weight_le
      rw [weight_replaceCore]
      omega
  | @union _ union members entries hType hCheck hCore hSome hCover hMembers =>
      obtain ⟨-, -, -, hKnows⟩ := hClosed.lookup_prop hParent hType
      rw [hCore] at hKnows
      have hUnion : .named union (.union members) ∈ schema.types := by
        rcases hKnows with ⟨p, hp⟩ | hMem
        · cases hp
        · exact hMem
      have hEntries : List.Forall₂ (MemberCodec Afforded s.inner) members entries := by
        refine ((List.forall₂_and_left _ _).mpr ⟨fun m hm => hm, hMembers⟩).imp ?_
        rintro m d ⟨hm, inner, hInner, hInnerCheck, hBody⟩
        exact ⟨inner, hInner, hInnerCheck,
          hBody.imp fun t _ e he => he.2 (hClosed.knows_member hKnows hm)⟩
      have hWeight := weight_entries_le (hDistinct union members hUnion) hEntries
      have hSelf : weight (Codec.union entries).parts = weight (entries.flatMap parts) + 1 := by
        rw [parts_union, weight_cons]
        rfl
      rw [weight_replaceCore, hSelf]
      omega

/-! ## Named nodes -/

/-- Wrappers are anonymous. -/
theorem mem_parts_of_replaceCore {t new p : Codec} (hp : p ∈ (t.replaceCore new).parts)
    (hNamed : p.isNamed = true) : p ∈ new.parts := by
  rcases exists_of_mem_parts_replaceCore hp with hp | ⟨item, ⟨-, rfl⟩ | ⟨-, rfl⟩⟩
  · exact hp
  · cases hNamed
  · cases hNamed

/-- The named nodes of a selection set are those of its nested fields. -/
theorem BodyCodec.exists_of_named {field : Codec → Selection → Codec → Prop} {on p : Codec}
    {selections : List Selection} (h : BodyCodec field on selections c) (hp : p ∈ c.parts)
    (hNamed : p.isNamed = true) : ∃ t d, field on t d ∧ p ∈ d.parts := by
  rcases h.node_cases hp with ⟨-, hUnnamed⟩ | hField
  · rw [hNamed] at hUnnamed
    cases hUnnamed
  · exact hField

/-- **The named nodes below a response are custom scalars of the schema.** -/
theorem Compiles.scalar_of_named (hClosed : schema.Closed) (h : Compiles parent s c)
    (hParent : schema.Knows parent) {p : Codec} (hp : p ∈ c.parts) (hNamed : p.isNamed = true) :
    p ∈ schema.types ∧ ∃ n, p = .scalar n := by
  refine h.induct (motive := fun parent _ c => schema.Knows parent → p ∈ c.parts →
    p ∈ schema.types ∧ ∃ n, p = .scalar n) ?_ hParent hp
  clear h hParent hp
  intro parent s c hField hExit hParent hp
  cases hExit with
  | @scalar _ n hType hCheck hCore =>
      obtain ⟨-, -, -, hKnows⟩ := hClosed.lookup_prop hParent hType
      rw [← replaceCore_self c] at hp
      have hSelf := mem_parts_of_replaceCore hp hNamed
      rw [hCore] at hSelf hKnows
      obtain rfl := List.mem_singleton.mp hSelf
      rcases hKnows with ⟨kind, hKind⟩ | hMem
      · cases hKind
      · exact ⟨hMem, n, rfl⟩
  | whole hType hCheck hCore hNone hBare =>
      rcases added_or_nested hp with ⟨-, hUnnamed⟩ | ⟨part, hPart, -⟩
      · rw [hNamed] at hUnnamed
        cases hUnnamed
      · cases hPart
  | object hType hCheck hCore hNone hBare hBody =>
      obtain ⟨-, -, -, hKnows⟩ := hClosed.lookup_prop hParent hType
      obtain ⟨t, d, hd, hp⟩ := hBody.exists_of_named (mem_parts_of_replaceCore hp hNamed) hNamed
      exact hd.2 hKnows hp
  | union hType hCheck hCore hSome hCover hMembers =>
      obtain ⟨-, -, -, hKnows⟩ := hClosed.lookup_prop hParent hType
      rw [hCore] at hKnows
      have hUnion := mem_parts_of_replaceCore hp hNamed
      rw [parts_union] at hUnion
      rcases List.mem_cons.mp hUnion with rfl | hUnion
      · cases hNamed
      obtain ⟨entry, hEntry, hp⟩ := List.mem_flatMap.mp hUnion
      obtain ⟨m, hm, inner, -, -, hBody⟩ := exists_left_of_forall₂ hMembers hEntry
      obtain ⟨t, d, hd, hp⟩ := hBody.exists_of_named hp hNamed
      exact hd.2 (hClosed.knows_member hKnows hm) hp

end Selections

/-! ## Responses -/

open Selections in
/-- **A response is linear in its operation.** Its named nodes are custom scalars of the schema, and
without list and nullable wrappers it has at most five nodes for each field and inline fragment of
the operation, and one more. -/
theorem Operation.selectionCodec_bounded {ds : List Definition} {schema : Schema}
    (hSchema : Schema.compile ds = .ok schema) (hDistinct : schema.DistinctMembers)
    {op : Operation} {root c : Codec} (hRoot : root ∈ schema.types)
    (hc : op.selectionCodec root = .ok c) :
    (∀ p ∈ c.parts.tail, p.isNamed = true → p ∈ schema.types ∧ ∃ n, p = .scalar n) ∧
      Codec.weight c.parts ≤ 1 + 5 * (requests op.selections).length := by
  have hClosed := compile_closed hSchema
  have hKnows : schema.Knows root := Or.inr hRoot
  have hProps := forall₂_rootProp hc
  rw [parts_response hc, List.tail_cons]
  constructor
  · intro p hp hNamed
    obtain ⟨q, hq, hPart⟩ := List.mem_flatMap.mp hp
    obtain ⟨s, -, -, hd⟩ := exists_left_of_forall₂ hProps hq
    exact hd.scalar_of_named hClosed hKnows hPart hNamed
  · have hFields : Codec.weight (c.props.flatMap fun q => q.2.parts)
        ≤ 5 * (requests op.selections).length := by
      refine weight_flatMap_le (hProps.imp ?_)
      rintro s q ⟨-, hd⟩
      have hAfforded : _ + 1 ≤ _ := hd.afforded hClosed hDistinct hKnows
      omega
    rw [Codec.weight_cons]
    split_ifs <;> omega

namespace Board

/-- The board's operation has twelve fields and inline fragments. -/
theorem response_bounded :
    Schema.compile (sortDefinitions definitions) = .ok schema ∧ schema.DistinctMembers ∧
      operation.root schema = .ok query ∧ operation.selectionCodec query = .ok response ∧
      (∀ p ∈ response.parts.tail, p.isNamed = true → p ∈ schema.types ∧ ∃ n, p = .scalar n) ∧
      (Selections.requests operation.selections).length = 12 ∧
      Codec.weight response.parts ≤ 61 := by
  have hDistinct : schema.DistinctMembers := by
    intro union members hUnion
    simp only [schema, List.mem_cons, List.not_mem_nil, or_false] at hUnion
    rcases hUnion with h | h | h | h | h | h <;> cases h
    decide
  have hRoot : operation.root schema = .ok query := by cbv
  have hc : operation.selectionCodec query = .ok response := by cbv
  obtain ⟨hScalars, hWeight⟩ :=
    Operation.selectionCodec_bounded compile_definitions hDistinct
      (Operation.mem_types_of_root hRoot) hc
  exact ⟨compile_definitions, hDistinct, hRoot, hc, hScalars, rfl, hWeight⟩

end Board

end GraphCodec
