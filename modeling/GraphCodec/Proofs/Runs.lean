import Mathlib

/-!
# Inversion of successful runs

A run in `Except` succeeds only if each of its steps does. These lemmas invert a successful run,
step by step, and a run over a list into one fact for each element.
-/

set_option autoImplicit false

namespace GraphCodec

variable {α β γ ε : Type}

/-! ## Lists related element by element -/

theorem exists_right_of_forall₂ {R : α → β → Prop} {l : List α} {r : List β}
    (h : List.Forall₂ R l r) {a : α} (ha : a ∈ l) : ∃ b ∈ r, R a b := by
  induction h with
  | nil => simp at ha
  | cons hHead hTail ih =>
      rcases List.mem_cons.mp ha with rfl | ha
      · exact ⟨_, List.mem_cons_self, hHead⟩
      · obtain ⟨b, hb, hR⟩ := ih ha
        exact ⟨b, List.mem_cons_of_mem _ hb, hR⟩

theorem exists_left_of_forall₂ {R : α → β → Prop} {l : List α} {r : List β}
    (h : List.Forall₂ R l r) {b : β} (hb : b ∈ r) : ∃ a ∈ l, R a b :=
  exists_right_of_forall₂ h.flip hb

/-- Two lists that are related to a third one are related to each other. -/
theorem forall₂_of_left {R : α → β → Prop} {S : α → γ → Prop} {l : List α} {r : List β}
    {r' : List γ} (h : List.Forall₂ R l r) (h' : List.Forall₂ S l r') :
    List.Forall₂ (fun b c => ∃ a, R a b ∧ S a c) r r' := by
  induction h generalizing r' with
  | nil =>
      cases h'
      exact .nil
  | cons hHead hTail ih =>
      cases h' with
      | cons hHead' hTail' => exact .cons ⟨_, hHead, hHead'⟩ (ih hTail')

/-- A split of the second list gives a split of the first. -/
theorem exists_split_of_forall₂ {R : α → β → Prop} {l : List α} {before after : List β} {b : β}
    (h : List.Forall₂ R l (before ++ b :: after)) :
    ∃ before' a after', l = before' ++ a :: after' ∧ List.Forall₂ R before' before ∧ R a b := by
  induction before generalizing l with
  | nil =>
      obtain ⟨a, l', hR, -, rfl⟩ := List.forall₂_cons_right_iff.mp h
      exact ⟨[], a, l', rfl, .nil, hR⟩
  | cons c before ih =>
      obtain ⟨a, l', hR, hTail, rfl⟩ := List.forall₂_cons_right_iff.mp h
      obtain ⟨before', a', after', rfl, hBefore, hR'⟩ := ih hTail
      exact ⟨a :: before', a', after', rfl, .cons hR hBefore, hR'⟩

theorem exists_eq_ok {x : Except ε α} (h : x.isOk = true) : ∃ a, x = .ok a := by
  cases x with
  | error e => cases h
  | ok a => exact ⟨a, rfl⟩

theorem ok_bind (a : α) (f : α → Except ε β) : Except.ok a >>= f = f a := rfl

theorem bind_eq_ok {x : Except ε α} {f : α → Except ε β} {b : β} :
    x >>= f = .ok b ↔ ∃ a, x = .ok a ∧ f a = .ok b := by
  cases x with
  | error e =>
      constructor
      · intro h
        cases h
      · rintro ⟨a, h, -⟩
        cases h
  | ok a =>
      constructor
      · intro h
        exact ⟨a, rfl, h⟩
      · rintro ⟨a', h, hf⟩
        cases h
        exact hf

theorem mapError_eq_ok {ε' : Type} {f : ε → ε'} {x : Except ε α} {a : α} :
    x.mapError f = .ok a ↔ x = .ok a := by
  cases x <;> simp [Except.mapError]

theorem bind_eq_error {x : Except ε α} {f : α → Except ε β} {e : ε} :
    x >>= f = .error e ↔ x = .error e ∨ ∃ a, x = .ok a ∧ f a = .error e := by
  cases x with
  | error e' =>
      constructor
      · intro h
        cases h
        exact Or.inl rfl
      · rintro (h | ⟨a, h, -⟩)
        · cases h
          rfl
        · cases h
  | ok a =>
      constructor
      · intro h
        exact Or.inr ⟨a, rfl, h⟩
      · rintro (h | ⟨a', h, hf⟩)
        · cases h
        · cases h
          exact hf

/-- `mapM` succeeds exactly if it does on each element. -/
theorem mapM_eq_ok {f : α → Except ε β} {l : List α} {r : List β} :
    l.mapM f = .ok r ↔ List.Forall₂ (fun a b => f a = .ok b) l r := by
  induction l generalizing r with
  | nil =>
      rw [List.mapM_nil, List.forall₂_nil_left_iff]
      constructor
      · intro h
        cases h
        rfl
      · rintro rfl
        rfl
  | cons a l ih =>
      rw [List.mapM_cons, List.forall₂_cons_left_iff, bind_eq_ok]
      constructor
      · rintro ⟨b, hb, hRest⟩
        obtain ⟨bs, hbs, hr⟩ := bind_eq_ok.mp hRest
        cases hr
        exact ⟨b, bs, hb, ih.mp hbs, rfl⟩
      · rintro ⟨b, bs, hb, hbs, rfl⟩
        exact ⟨b, hb, bind_eq_ok.mpr ⟨bs, ih.mpr hbs, rfl⟩⟩

/-- `mapM` fails with the error of one element. -/
theorem exists_of_mapM_eq_error {f : α → Except ε β} {l : List α} {e : ε}
    (h : l.mapM f = .error e) : ∃ a ∈ l, f a = .error e := by
  induction l with
  | nil => cases h
  | cons a l ih =>
      rw [List.mapM_cons] at h
      rcases bind_eq_error.mp h with hHead | ⟨b, -, h⟩
      · exact ⟨a, List.mem_cons_self, hHead⟩
      rcases bind_eq_error.mp h with hTail | ⟨bs, -, h⟩
      · obtain ⟨a', ha', hError⟩ := ih hTail
        exact ⟨a', List.mem_cons_of_mem _ ha', hError⟩
      · cases h

theorem mapM_congr {f g : α → Except ε β} {l : List α} (h : ∀ a ∈ l, f a = g a) :
    l.mapM f = l.mapM g := by
  induction l with
  | nil => rfl
  | cons a l ih =>
      rw [List.mapM_cons, List.mapM_cons, h a List.mem_cons_self,
        ih fun b hb => h b (List.mem_cons_of_mem _ hb)]

end GraphCodec
