import GraphCodec.Proofs.Pieces
import GraphCodec.Proofs.Picks

/-!
# The arity of intersections

The static type of a `t.intersection` is inferred for two to five members. A longer intersection is
printed as an intersection of groups, and the size of the groups depends on the remainder that
groups of five would leave. The choice is not enough. Groups of four may leave a single member over
in their turn, which happens first at 21 members, and the groups are not grouped again, so that from
26 members on there are too many of them (`intersection_arities_iff`). An operation has such an
intersection if it selects 19 fields with selection sets on one type (`Board.crowded_overflows`).
-/

set_option autoImplicit false

namespace GraphCodec

/-! ## Sizes of groups -/

section

variable {α : Type}

/-- The lengths of `chunks`: full groups, and a last one with the remainder. -/
theorem map_length_chunks {size : Nat} (h : 0 < size) (items : List α) :
    (chunks size items).map List.length =
      List.replicate (items.length / size) size ++
        if items.length % size = 0 then [] else [items.length % size] := by
  fun_induction chunks size items with
  | case1 items hItems ih =>
      rw [List.map_cons, ih, List.length_take, List.length_drop]
      -- a full group is dropped, or the remainder
      by_cases hFull : size ≤ items.length
      · rw [Nat.min_eq_left hFull, ← Nat.mod_eq_sub_mod hFull, Nat.div_eq_sub_div h hFull,
          List.replicate_succ, List.cons_append]
      · have hLess : items.length < size := Nat.lt_of_not_le hFull
        have hPos : items.length ≠ 0 := by simpa using hItems.2
        rw [Nat.min_eq_right hLess.le, Nat.sub_eq_zero_of_le hLess.le, Nat.div_eq_of_lt hLess,
          Nat.mod_eq_of_lt hLess, if_neg hPos]
        simp
  | case2 items hItems =>
      obtain rfl : items = [] := by
        by_contra hne
        exact hItems ⟨h, hne⟩
      simp

end

/-- The group size that `intersectionGroups` chooses for `n` members. -/
def groupSize (n : Nat) : Nat :=
  if n % maxIntersection = 1 then maxIntersection - 1 else maxIntersection

theorem groupSize_bounds (n : Nat) : 2 ≤ groupSize n ∧ groupSize n ≤ maxIntersection := by
  unfold groupSize
  split_ifs <;> decide

/-- The sizes of the groups of `n` members, where `n` is above `maxIntersection`. -/
def groupSizes (n : Nat) : List Nat :=
  List.replicate (n / groupSize n) (groupSize n) ++
    if n % groupSize n = 0 then [] else [n % groupSize n]

theorem map_length_intersectionGroups {α : Type} {types : List α}
    (h : maxIntersection < types.length) :
    (intersectionGroups types).map List.length = groupSizes types.length := by
  rw [intersectionGroups, if_neg (Nat.not_le_of_lt h), groupSizes, groupSize]
  split_ifs with hLeft
  all_goals
    rw [map_length_chunks (by decide)]
    simp [*]

theorem length_groupSizes (n : Nat) :
    (groupSizes n).length = n / groupSize n + if n % groupSize n = 0 then 0 else 1 := by
  rw [groupSizes]
  split_ifs <;> simp

/-- Above `maxIntersection` members there are at least two groups. -/
theorem two_le_length_groupSizes {n : Nat} (h : maxIntersection < n) :
    2 ≤ (groupSizes n).length := by
  rw [length_groupSizes, groupSize]
  unfold maxIntersection at *
  split_ifs <;> omega

/-- When the number of groups itself is at most `maxIntersection`. -/
theorem length_groupSizes_le_iff {n : Nat} (h : maxIntersection < n) :
    (groupSizes n).length ≤ maxIntersection ↔ n ≤ 25 ∧ n ≠ 21 := by
  rw [length_groupSizes, groupSize]
  unfold maxIntersection at *
  split_ifs <;> omega

/-- When all groups have two to five members; it depends on the remainders modulo five and four. -/
theorem forall_mem_groupSizes_iff (n : Nat) :
    (∀ k ∈ groupSizes n, 2 ≤ k ∧ k ≤ maxIntersection) ↔ n % 20 ≠ 1 := by
  have hFull := groupSize_bounds n
  have hRest : (∀ k ∈ if n % groupSize n = 0 then [] else [n % groupSize n],
      2 ≤ k ∧ k ≤ maxIntersection) ↔ n % groupSize n ≠ 1 := by
    have hLess : n % groupSize n < groupSize n := Nat.mod_lt _ (by omega)
    split_ifs with hZero
    · simp [hZero]
    · simp only [List.forall_mem_singleton]
      omega
  -- one left over by fives makes groups of four, and 20 is the period of both together
  have hTwenty : n % groupSize n ≠ 1 ↔ n % 20 ≠ 1 := by
    unfold groupSize maxIntersection
    split_ifs <;> omega
  rw [groupSizes, List.forall_mem_append, hRest, hTwenty]
  refine and_iff_right fun k hk => ?_
  rw [List.eq_of_mem_replicate hk]
  exact hFull

/-! ## Printed intersections -/

/-- The shape of a printed intersection: one `t.intersection`, or a `t.intersection` of groups. -/
inductive Layout where
  | flat (members : List String)
  | grouped (groups : List (List String))

namespace Layout

def ofMembers (members : List String) : Layout :=
  match intersectionGroups members with
  | [group] => flat group
  | groups => grouped groups

def text : Layout → String
  | flat members => Codec.intersectionText members
  | grouped groups => Codec.intersectionText (groups.map Codec.intersectionText)

/-- The arity of the outer `t.intersection`. -/
def outer : Layout → Nat
  | flat members => members.length
  | grouped groups => groups.length

/-- The arities of the inner `t.intersection`s. -/
def inner : Layout → List Nat
  | flat _ => []
  | grouped groups => groups.map List.length

theorem ofMembers_of_le {members : List String} (h : members.length ≤ maxIntersection) :
    ofMembers members = flat members := by
  rw [ofMembers, intersectionGroups, if_pos h]

theorem ofMembers_of_lt {members : List String} (h : maxIntersection < members.length) :
    ofMembers members = grouped (intersectionGroups members) := by
  have hTwo := two_le_length_groupSizes h
  rw [← map_length_intersectionGroups h, List.length_map] at hTwo
  unfold ofMembers
  split
  · rename_i group hGroups
    rw [hGroups] at hTwo
    simp at hTwo
  · rfl

theorem inner_of_lt {members : List String} (h : maxIntersection < members.length) :
    (ofMembers members).inner = groupSizes members.length := by
  rw [ofMembers_of_lt h, inner, map_length_intersectionGroups h]

theorem outer_of_lt {members : List String} (h : maxIntersection < members.length) :
    (ofMembers members).outer = (groupSizes members.length).length := by
  rw [ofMembers_of_lt h, outer, ← map_length_intersectionGroups h, List.length_map]

/-- The inner arities are two to five, unless `n` leaves the remainder one modulo five and modulo
four. -/
theorem inner_iff {members : List String} (h : 2 ≤ members.length) :
    (∀ k ∈ (ofMembers members).inner, 2 ≤ k ∧ k ≤ maxIntersection) ↔
      members.length % 20 ≠ 1 := by
  rcases Nat.lt_or_ge maxIntersection members.length with hMany | hFew
  · rw [inner_of_lt hMany, forall_mem_groupSizes_iff]
  · have hMod : members.length % 20 ≠ 1 := by
      unfold maxIntersection at hFew
      omega
    simp [ofMembers_of_le hFew, inner, hMod]

/-- The outer arity is two to five exactly up to 25 members, except for 21. -/
theorem outer_iff {members : List String} (h : 2 ≤ members.length) :
    2 ≤ (ofMembers members).outer ∧ (ofMembers members).outer ≤ maxIntersection ↔
      members.length ≤ 25 ∧ members.length ≠ 21 := by
  rcases Nat.lt_or_ge maxIntersection members.length with hMany | hFew
  · rw [outer_of_lt hMany, ← length_groupSizes_le_iff hMany]
    exact and_iff_right (two_le_length_groupSizes hMany)
  · rw [ofMembers_of_le hFew, outer]
    unfold maxIntersection at *
    omega

end Layout

namespace Codec

theorem length_texts (mode : Mode) (cs : List Codec) : (texts mode cs).length = cs.length := by
  induction cs with
  | nil => rfl
  | cons c cs ih => rw [texts, List.length_cons, ih, List.length_cons]

theorem groupedText_eq (members : List String) :
    groupedText members = (Layout.ofMembers members).text := by
  rw [groupedText, Layout.ofMembers]
  rcases intersectionGroups members with _ | ⟨group, _ | ⟨second, rest⟩⟩ <;> rfl

/-- The expression of an intersection is that of the layout of its members. -/
theorem text_intersection (mode : Mode) (ts : List Codec) :
    (intersection ts).text mode = (Layout.ofMembers (texts mode ts)).text := by
  rw [text, groupedText_eq]

end Codec

/-! ## Intersections of responses -/

namespace Selections

open Codec

/-- Every intersection in the codec has at least two members. -/
def Paired (c : Codec) : Prop := ∀ ts, .intersection ts ∈ c.parts → 2 ≤ ts.length

/-- The intersections of a response have a `__typename` and a `Pick` as their first members. -/
theorem Compiles.paired {parent c : Codec} {s : Selection} (h : Compiles parent s c) :
    Paired c := by
  refine h.induct (motive := fun _ _ c => Paired c) ?_
  clear h
  intro parent s c hField hExit ts hts
  cases hExit.fieldNode hts with
  | added h =>
      cases h
      simp
  | nested hType hd hp => exact hd.2 ts hp
  | member hType hCore hm hd hp => exact hd.2 ts hp

end Selections

open Selections in
theorem Operation.paired_selectionCodec {op : Operation} {root c : Codec}
    (h : op.selectionCodec root = .ok c) : Paired c := by
  intro ts hts
  obtain ⟨s, -, d, hd, hPart⟩ := exists_field_of_mem_parts h rfl hts
  exact hd.paired ts hPart

/-- **When a printed intersection has arities from two to five.** An intersection of two or more
members, and all those of responses are such, is printed by the layout of its members. Its inner
arities are two to five unless one member is left over both by fives and by fours, and its outer
arity is two to five only up to 25 members, except for 21. -/
theorem Codec.intersection_arities_iff (mode : Mode) {ts : List Codec}
    (h : 2 ≤ ts.length ∨ ∃ (op : Operation) (root c : Codec), op.selectionCodec root = .ok c ∧
      .intersection ts ∈ c.parts) :
    2 ≤ ts.length ∧
      (intersection ts).text mode = (Layout.ofMembers (texts mode ts)).text ∧
      ((∀ k ∈ (Layout.ofMembers (texts mode ts)).inner, 2 ≤ k ∧ k ≤ maxIntersection) ↔
        ts.length % 20 ≠ 1) ∧
      (2 ≤ (Layout.ofMembers (texts mode ts)).outer ∧
          (Layout.ofMembers (texts mode ts)).outer ≤ maxIntersection ↔
        ts.length ≤ 25 ∧ ts.length ≠ 21) := by
  have hTwo : 2 ≤ ts.length := by
    rcases h with h | ⟨op, root, c, hc, hPart⟩
    · exact h
    · exact Operation.paired_selectionCodec hc ts hPart
  rw [← length_texts mode ts] at hTwo ⊢
  exact ⟨hTwo, text_intersection mode ts, Layout.inner_iff hTwo, Layout.outer_iff hTwo⟩

/-! ## A crowded selection -/

namespace Board

/-- An operation that selects the owner 19 times over. -/
def crowded : Operation where
  kind := .query
  name := some "Crowded"
  vars := []
  selections :=
    [.node none "todos" []
      (.leaf none "id" [] :: List.replicate 19 (.node none "owner" [] [.leaf none "name" []]))]

/-- The `__typename`, the `Pick`, and the 19 owners. -/
def crowdedMembers : List Codec :=
  .typename "Todo" :: .pick "Todo" ["id"] ::
    List.replicate 19 (.object [("owner", .intersection [.typename "User", .pick "User" ["name"]])])

def crowdedResponse : Codec :=
  .query "Crowded" [("todos", .array (.intersection crowdedMembers))]

/-- At this number of members neither arity condition holds. -/
theorem crowded_arities_iff :
    crowded.root schema = .ok query ∧ crowded.selectionCodec query = .ok crowdedResponse ∧
      2 ≤ crowdedMembers.length ∧
      (Codec.intersection crowdedMembers).text .output
        = (Layout.ofMembers (Codec.texts .output crowdedMembers)).text ∧
      ((∀ k ∈ (Layout.ofMembers (Codec.texts .output crowdedMembers)).inner,
          2 ≤ k ∧ k ≤ maxIntersection) ↔ crowdedMembers.length % 20 ≠ 1) ∧
      (2 ≤ (Layout.ofMembers (Codec.texts .output crowdedMembers)).outer ∧
          (Layout.ofMembers (Codec.texts .output crowdedMembers)).outer ≤ maxIntersection ↔
        crowdedMembers.length ≤ 25 ∧ crowdedMembers.length ≠ 21) := by
  have hc : crowded.selectionCodec query = .ok crowdedResponse := by cbv
  have hPart : Codec.intersection crowdedMembers ∈ crowdedResponse.parts := by
    simp [crowdedResponse]
  exact ⟨by cbv, hc, Codec.intersection_arities_iff .output
    (Or.inr ⟨crowded, query, crowdedResponse, hc, hPart⟩)⟩

/-- **A printed intersection has six groups, and one of them a single member.** -/
theorem crowded_overflows :
    crowded.root schema = .ok query ∧ crowded.selectionCodec query = .ok crowdedResponse ∧
      .intersection crowdedMembers ∈ crowdedResponse.parts ∧
      (Codec.intersection crowdedMembers).text .output
        = (Layout.ofMembers (Codec.texts .output crowdedMembers)).text ∧
      (Layout.ofMembers (Codec.texts .output crowdedMembers)).inner = [4, 4, 4, 4, 4, 1] ∧
      (Layout.ofMembers (Codec.texts .output crowdedMembers)).outer = 6 := by
  have hLength : (Codec.texts .output crowdedMembers).length = 21 := by
    rw [Codec.length_texts]
    rfl
  have hMany : maxIntersection < (Codec.texts .output crowdedMembers).length := by
    rw [hLength]
    decide
  refine ⟨by cbv, by cbv, by simp [crowdedResponse], ?_, ?_, ?_⟩
  · exact Codec.text_intersection .output crowdedMembers
  · rw [Layout.inner_of_lt hMany, hLength]
    rfl
  · rw [Layout.outer_of_lt hMany, hLength]
    rfl

end Board

end GraphCodec
