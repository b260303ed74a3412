import GraphCodec.Proofs.Arity

/-!
# Groups of members

The concatenation of the groups of a list is the list; all groups but the last are full, and the
last is not empty (`Cut`). Such a partition is unique, so that this specifies `chunk` (`cut_iff`).
An intersection is a single group up to five members, and is partitioned by fives or by fours beyond
(`cut_intersectionGroups`).
-/

set_option autoImplicit false

namespace GraphCodec

variable {α : Type} {size : Nat} {items group : List α} {groups : List (List α)}

/-! ## Partitions -/

/-- A partition of a list into consecutive groups, all full but for a nonempty last one. -/
structure Cut (size : Nat) (items : List α) (groups : List (List α)) : Prop where
  flatten : groups.flatten = items
  full : ∀ group ∈ groups.dropLast, group.length = size
  last : ∀ group ∈ groups.getLast?, 1 ≤ group.length ∧ group.length ≤ size

namespace Cut

theorem nil_iff : Cut size items [] ↔ items = [] := by
  constructor
  · intro h
    exact h.flatten.symm
  · rintro rfl
    exact ⟨rfl, by simp, by simp⟩

theorem singleton_iff :
    Cut size items [group] ↔ group = items ∧ 1 ≤ group.length ∧ group.length ≤ size := by
  constructor
  · intro h
    exact ⟨by simpa using h.flatten, h.last group rfl⟩
  · rintro ⟨rfl, hLength⟩
    exact ⟨by simp, by simp, by simpa using hLength⟩

/-- A group before others is full, and the others partition the rest of the list. -/
theorem cons_cons_iff {second : List α} :
    Cut size items (group :: second :: groups) ↔
      group.length = size ∧ ∃ rest, group ++ rest = items ∧ Cut size rest (second :: groups) := by
  have hInit : (group :: second :: groups).dropLast = group :: (second :: groups).dropLast :=
    List.dropLast_cons_of_ne_nil (by simp)
  constructor
  · rintro ⟨hFlatten, hFull, hLast⟩
    rw [hInit, List.forall_mem_cons] at hFull
    rw [List.getLast?_cons_cons] at hLast
    exact ⟨hFull.1, (second :: groups).flatten, hFlatten, rfl, hFull.2, hLast⟩
  · rintro ⟨hFull, rest, rfl, h⟩
    refine ⟨by rw [List.flatten_cons, h.flatten], ?_, ?_⟩
    · rw [hInit, List.forall_mem_cons]
      exact ⟨hFull, h.full⟩
    · rw [List.getLast?_cons_cons]
      exact h.last

theorem length_bounds (hSize : 0 < size) (h : Cut size items groups) (hGroup : group ∈ groups) :
    1 ≤ group.length ∧ group.length ≤ size := by
  have hSome : groups ≠ [] := List.ne_nil_of_mem hGroup
  rw [← List.dropLast_concat_getLast hSome, List.mem_append, List.mem_singleton] at hGroup
  rcases hGroup with hFull | rfl
  · have hLength := h.full group hFull
    omega
  · exact h.last _ (List.getLast?_eq_some_getLast hSome)

theorem ne_nil (hSize : 0 < size) (h : Cut size items (group :: groups)) : items ≠ [] := by
  have hPos := (h.length_bounds hSize List.mem_cons_self).1
  rw [← h.flatten]
  exact List.append_ne_nil_of_left_ne_nil (List.length_pos_iff.mp hPos) _

/-- The first group is a prefix of the list, and the others partition the rest. -/
theorem cons_iff (hSize : 0 < size) :
    Cut size items (group :: groups) ↔
      items ≠ [] ∧ group = items.take size ∧ Cut size (items.drop size) groups := by
  cases groups with
  | nil =>
      rw [singleton_iff, nil_iff, List.drop_eq_nil_iff]
      constructor
      · rintro ⟨rfl, hPos, hLe⟩
        exact ⟨List.length_pos_iff.mp hPos, (List.take_of_length_le hLe).symm, hLe⟩
      · rintro ⟨hSome, rfl, hLe⟩
        rw [List.take_of_length_le hLe]
        exact ⟨rfl, List.length_pos_iff.mpr hSome, hLe⟩
  | cons second groups =>
      constructor
      · intro h
        have hSome := h.ne_nil hSize
        obtain ⟨hFull, rest, rfl, hRest⟩ := cons_cons_iff.mp h
        rw [List.take_left' hFull, List.drop_left' hFull]
        exact ⟨hSome, rfl, hRest⟩
      · rintro ⟨-, rfl, h⟩
        -- another group follows and is not empty, so there are enough members for this one
        have hMore : size < items.length := by simpa using h.ne_nil hSize
        exact cons_cons_iff.mpr
          ⟨List.length_take_of_le hMore.le, _, List.take_append_drop size items, h⟩

end Cut

theorem cut_chunks (hSize : 0 < size) (items : List α) : Cut size items (chunks size items) := by
  fun_induction chunks size items with
  | case1 items hItems ih => exact (Cut.cons_iff hSize).mpr ⟨hItems.2, rfl, ih⟩
  | case2 items hItems =>
      obtain rfl : items = [] := by simpa [hSize] using hItems
      exact Cut.nil_iff.mpr rfl

/-- The partition is unique. -/
theorem cut_iff (hSize : 0 < size) : Cut size items groups ↔ groups = chunks size items := by
  constructor
  · intro h
    induction groups generalizing items with
    | nil =>
        obtain rfl := Cut.nil_iff.mp h
        rw [chunks, if_neg (by simp)]
    | cons group groups ih =>
        obtain ⟨hSome, rfl, hRest⟩ := (Cut.cons_iff hSize).mp h
        rw [chunks, if_pos ⟨hSize, hSome⟩, ih hRest]
  · rintro rfl
    exact cut_chunks hSize items

theorem chunk_eq_ok {n : Int} (h : 0 < n) (items : List α) :
    chunk n items = .ok (chunks n.toNat items) := by
  rw [chunk, if_neg h.ne']

/-! ## Groups of an intersection -/

theorem cut_intersectionGroups {types : List α} (h : maxIntersection < types.length) :
    Cut (groupSize types.length) types (intersectionGroups types) := by
  rw [intersectionGroups, if_neg (Nat.not_le_of_lt h), groupSize]
  split_ifs
  · exact cut_chunks (by decide) types
  · exact cut_chunks (by decide) types

theorem length_le_of_mem_intersectionGroups {types : List α}
    (h : group ∈ intersectionGroups types) : group.length ≤ maxIntersection := by
  rcases Nat.lt_or_ge maxIntersection types.length with hMany | hFew
  · obtain ⟨hTwo, hFive⟩ := groupSize_bounds types.length
    have hBounds := (cut_intersectionGroups hMany).length_bounds (by omega) h
    exact hBounds.2.trans hFive
  · rw [intersectionGroups, if_pos hFew, List.mem_singleton] at h
    rwa [h]

/-- There is a single group exactly up to `maxIntersection` members. -/
theorem length_intersectionGroups_eq_one_iff {types : List α} :
    (intersectionGroups types).length = 1 ↔ types.length ≤ maxIntersection := by
  constructor
  · intro h
    obtain ⟨group, hGroup⟩ := List.length_eq_one_iff.mp h
    have hAll := flatten_intersectionGroups types
    rw [hGroup, List.flatten_singleton] at hAll
    rw [← hAll]
    exact length_le_of_mem_intersectionGroups (by rw [hGroup, List.mem_singleton])
  · intro h
    rw [intersectionGroups, if_pos h, List.length_singleton]

/-- **Grouping keeps members and order.** For a positive size, `chunk` is the unique partition of a
list into consecutive groups that are full but for a nonempty last one. The members of an
intersection keep their order as well: there is a single group exactly up to five members, no group
has more than five, and longer intersections are partitioned by the size chosen for them. -/
theorem groups_keep_members (α : Type) :
    (∀ (size : Int) (items : List α), 0 < size →
      ∃ groups, chunk size items = .ok groups ∧ Cut size.toNat items groups ∧
        ∀ other, Cut size.toNat items other → other = groups) ∧
    ∀ types : List α,
      (intersectionGroups types).flatten = types ∧
      ((intersectionGroups types).length = 1 ↔ types.length ≤ 5) ∧
      (∀ group ∈ intersectionGroups types, group.length ≤ 5) ∧
      (5 < types.length → Cut (groupSize types.length) types (intersectionGroups types)) := by
  refine ⟨fun size items hSize => ?_, fun types => ?_⟩
  · have hNat : 0 < size.toNat := by omega
    exact ⟨chunks size.toNat items, chunk_eq_ok hSize items, cut_chunks hNat items,
      fun other hOther => (cut_iff hNat).mp hOther⟩
  · exact ⟨flatten_intersectionGroups types, length_intersectionGroups_eq_one_iff,
      fun group hGroup => length_le_of_mem_intersectionGroups hGroup, cut_intersectionGroups⟩

/-- Eleven members are grouped by four, as groups of five would leave one over. -/
theorem eleven_members_cut :
    (0 : Int) < 4 ∧ chunk 4 (List.range 11) = .ok [[0, 1, 2, 3], [4, 5, 6, 7], [8, 9, 10]] ∧
      5 < (List.range 11).length ∧
      intersectionGroups (List.range 11) = [[0, 1, 2, 3], [4, 5, 6, 7], [8, 9, 10]] := by
  have hCut : Cut 4 (List.range 11) [[0, 1, 2, 3], [4, 5, 6, 7], [8, 9, 10]] :=
    ⟨by decide, by decide, by decide⟩
  have hMany : 5 < (List.range 11).length := by decide
  obtain ⟨hChunk, hGroups⟩ := groups_keep_members Nat
  obtain ⟨groups, hOk, -, hOnly⟩ := hChunk 4 (List.range 11) (by decide)
  obtain ⟨-, -, -, hIntersection⟩ := hGroups (List.range 11)
  -- both are partitions by four, and there is only one
  rw [hOk, hOnly _ (hIntersection hMany), ← hOnly _ hCut]
  exact ⟨by decide, rfl, hMany, rfl⟩

end GraphCodec
