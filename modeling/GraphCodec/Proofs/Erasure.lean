import GraphCodec.Proofs.Selection

/-!
# Erasing ignored selections

The compiler ignores some selections: those on a custom scalar, the fields beside inline fragments
on a union, and the inline fragments on a member type after the first. An erasure removes them,
along the types of fields and the type conditions of inline fragments. What it leaves in their place
is a parameter, and so is whether it enters inline fragments that are not directly on a union
(`Erasure`).

Two erasures are used: one to say which paths a response has, and one to say which selections are
checked.
-/

set_option autoImplicit false

namespace GraphCodec

namespace Codec

/-- The member type of this name. -/
def memberNamed (members : List Codec) (name : String) : Codec :=
  (members.find? fun m => m.name = name).getD .unknown

/-- The codec of a field of `on`. -/
def fieldType (on : Codec) (name : String) : Codec := (on.props.lookup name).getD .unknown

theorem fieldType_eq {on t : Codec} {name : String} (h : on.props.lookup name = some t) :
    on.fieldType name = t := by
  rw [fieldType, h, Option.getD_some]

/-- The type that an inline fragment on `on` applies to, by its type condition. -/
def narrowed (on : Codec) : Option String → Codec
  | some condition =>
    match on with
    | .named _ (.union members) => memberNamed members condition
    | on => on
  | none => on

end Codec

/-- **An erasure of the selections that the compiler ignores.** -/
structure Erasure where
  /-- The remains of an ignored selection. -/
  remains : Selection → List Selection
  /-- Whether an inline fragment that is not directly on a union keeps its selection set. -/
  keepsFragments : Bool

mutual

/-- The erasure of a selection on `on`. -/
def Selection.erased (e : Erasure) (on : Codec) : Selection → Selection
  | .node shown name directives selections =>
    .node shown name directives <|
      match (on.fieldType name).core, Selections.conditions selections with
      | .scalar _, _ => selections.flatMap e.remains
      | .named _ (.union members), _ :: _ => Selections.erasedFragments e members [] selections
      | core, _ => Selections.erased e core selections
  | .inline condition directives selections =>
    .inline condition directives <|
      if e.keepsFragments then Selections.erased e (on.narrowed condition) selections else []
  | .leaf shown name directives => .leaf shown name directives
  | .spread name directives => .spread name directives

def Selections.erased (e : Erasure) (on : Codec) : List Selection → List Selection
  | [] => []
  | s :: rest => s.erased e on :: Selections.erased e on rest

/-- The erasure of a selection set on a union: the first inline fragment on each member type is
kept, except for the type conditions in `done`. -/
def Selections.erasedFragments (e : Erasure) (members : List Codec) (done : List String) :
    List Selection → List Selection
  | [] => []
  | .inline (some condition) directives selections :: rest =>
    if condition ∈ done then
      e.remains (.inline (some condition) directives selections) ++
        Selections.erasedFragments e members done rest
    else
      .inline (some condition) directives
        (Selections.erased e (Codec.memberNamed members condition) selections) ::
        Selections.erasedFragments e members (condition :: done) rest
  | s :: rest => e.remains s ++ Selections.erasedFragments e members done rest

end

theorem Selection.eq_inline_of_condition? {s : Selection} {condition : String}
    (h : s.condition? = some condition) :
    ∃ directives inner, s = .inline (some condition) directives inner := by
  cases s with
  | inline c directives inner =>
      cases h
      exact ⟨directives, inner, rfl⟩
  | _ => cases h

namespace Selections

variable {e : Erasure} {on : Codec} {members : List Codec} {done : List String}
  {selections : List Selection}

theorem erased_eq (e : Erasure) (on : Codec) (selections : List Selection) :
    erased e on selections = selections.map (Selection.erased e on) := by
  induction selections with
  | nil => rfl
  | cons s rest ih => rw [erased, ih, List.map_cons]

/-! ## Inline fragments on a union -/

theorem erasedFragments_cons_done {condition : String} {directives : List String}
    {inner rest : List Selection} (h : condition ∈ done) :
    erasedFragments e members done (.inline (some condition) directives inner :: rest) =
      e.remains (.inline (some condition) directives inner) ++
        erasedFragments e members done rest := by
  rw [erasedFragments, if_pos h]

theorem erasedFragments_cons_new {condition : String} {directives : List String}
    {inner rest : List Selection} (h : condition ∉ done) :
    erasedFragments e members done (.inline (some condition) directives inner :: rest) =
      .inline (some condition) directives (erased e (Codec.memberNamed members condition) inner) ::
        erasedFragments e members (condition :: done) rest := by
  rw [erasedFragments, if_neg h]

theorem erasedFragments_cons_other {s : Selection} {rest : List Selection}
    (h : s.condition? = none) :
    erasedFragments e members done (s :: rest) =
      e.remains s ++ erasedFragments e members done rest := by
  rw [erasedFragments]
  rintro condition directives inner rfl
  cases h

theorem fragment?_cons_self (type : String) (directives : List String)
    (inner rest : List Selection) :
    fragment? type (.inline (some type) directives inner :: rest) = some inner := by
  rw [fragment?, if_pos rfl]

theorem fragment?_cons_other {type : String} {s : Selection} {rest : List Selection}
    (h : s.condition? ≠ some type) : fragment? type (s :: rest) = fragment? type rest := by
  cases s with
  | inline condition directives inner =>
      cases condition with
      | none => rfl
      | some c => exact if_neg fun hc => h (congrArg some hc)
  | _ => rfl

/-- A selection of an erased selection set on a union remains of an ignored one, or is the first
inline fragment on its type condition. -/
theorem of_mem_erasedFragments {t : Selection}
    (h : t ∈ erasedFragments e members done selections) :
    (∃ s ∈ selections, t ∈ e.remains s) ∨ ∃ type directives inner, type ∉ done ∧
      fragment? type selections = some inner ∧
      t = .inline (some type) directives (erased e (Codec.memberNamed members type) inner) := by
  induction selections generalizing done with
  | nil => cases h
  | cons s rest ih =>
      -- a first fragment of the rest is still the first if `s` has another type condition
      have hLater : ∀ {done'}, (∀ type, type ∉ done' → type ∉ done ∧ s.condition? ≠ some type) →
          t ∈ erasedFragments e members done' rest →
          (∃ u ∈ s :: rest, t ∈ e.remains u) ∨ ∃ type directives inner, type ∉ done ∧
            fragment? type (s :: rest) = some inner ∧
            t = .inline (some type) directives
              (erased e (Codec.memberNamed members type) inner) := by
        intro done' hDone' ht
        refine (ih ht).imp (fun ⟨u, hu, htu⟩ => ⟨u, List.mem_cons_of_mem _ hu, htu⟩) ?_
        rintro ⟨type, directives, inner, hNew, hInner, rfl⟩
        obtain ⟨hStill, hOther⟩ := hDone' type hNew
        exact ⟨type, directives, inner, hStill, by rw [fragment?_cons_other hOther, hInner], rfl⟩
      cases hs : s.condition? with
      | none =>
          rw [erasedFragments_cons_other hs] at h
          rcases List.mem_append.mp h with h | h
          · exact Or.inl ⟨s, List.mem_cons_self, h⟩
          · exact hLater (fun type hNew => ⟨hNew, by simp [hs]⟩) h
      | some condition =>
          obtain ⟨directives, body, rfl⟩ := Selection.eq_inline_of_condition? hs
          by_cases hDone : condition ∈ done
          · rw [erasedFragments_cons_done hDone] at h
            rcases List.mem_append.mp h with h | h
            · exact Or.inl ⟨_, List.mem_cons_self, h⟩
            · refine hLater (fun type hNew => ⟨hNew, ?_⟩) h
              rintro ⟨rfl⟩
              exact hNew hDone
          · rw [erasedFragments_cons_new hDone] at h
            rcases List.mem_cons.mp h with rfl | h
            · exact Or.inr ⟨condition, directives, body, hDone, fragment?_cons_self .., rfl⟩
            · refine hLater (fun type hNew => ?_) h
              rw [List.mem_cons, not_or] at hNew
              exact ⟨hNew.2, fun hc => hNew.1 (Option.some.inj hc).symm⟩

/-- The first inline fragment on a type outside `done` is kept, with its selection set erased. -/
theorem exists_mem_erasedFragments {type : String} {inner : List Selection} (hNew : type ∉ done)
    (h : fragment? type selections = some inner) :
    ∃ directives, .inline (some type) directives (erased e (Codec.memberNamed members type) inner) ∈
      erasedFragments e members done selections := by
  induction selections generalizing done with
  | nil => cases h
  | cons s rest ih =>
      cases hs : s.condition? with
      | none =>
          rw [fragment?_cons_other (by simp [hs])] at h
          rw [erasedFragments_cons_other hs]
          exact (ih hNew h).imp fun _ => List.mem_append_right _
      | some condition =>
          obtain ⟨directives, body, rfl⟩ := Selection.eq_inline_of_condition? hs
          by_cases hType : condition = type
          · subst hType
            rw [fragment?_cons_self, Option.some.injEq] at h
            rw [erasedFragments_cons_new hNew, h]
            exact ⟨directives, List.mem_cons_self⟩
          · have hOther :
                (Selection.inline (some condition) directives body).condition? ≠ some type :=
              fun hc => hType (Option.some.inj hc)
            rw [fragment?_cons_other hOther] at h
            by_cases hDone : condition ∈ done
            · rw [erasedFragments_cons_done hDone]
              exact (ih hNew h).imp fun _ => List.mem_append_right _
            · have hStill : type ∉ condition :: done := by simp [Ne.symm hType, hNew]
              rw [erasedFragments_cons_new hDone]
              exact (ih hStill h).imp fun _ => List.mem_cons_of_mem _

/-! ## The selection set of a field -/

/-- The erasure of the selection set of a field whose type has this `core`. -/
def erasedBelow (e : Erasure) (core : Codec) (selections : List Selection) : List Selection :=
  match core, conditions selections with
  | .scalar _, _ => selections.flatMap e.remains
  | .named _ (.union members), _ :: _ => erasedFragments e members [] selections
  | core, _ => erased e core selections

theorem erasedBelow_union {union : String} (hSome : conditions selections ≠ []) :
    erasedBelow e (.named union (.union members)) selections =
      erasedFragments e members [] selections := by
  obtain ⟨k, ks, hConditions⟩ := List.exists_cons_of_ne_nil hSome
  simp only [erasedBelow, hConditions]

theorem erasedBelow_plain {core : Codec} (hCore : ∀ n, core ≠ .scalar n)
    (hNone : conditions selections = []) :
    erasedBelow e core selections = erased e core selections := by
  unfold erasedBelow
  split
  · rename_i n
    exact absurd rfl (hCore n)
  · rename_i hSome
    rw [hNone] at hSome
    cases hSome
  · rfl

/-- The erased selection set of a field. -/
theorem inner_erased {s : Selection} (h : s.isField = true) (on : Codec) :
    (s.erased e on).inner = erasedBelow e (on.fieldType s.name).core s.inner := by
  cases s with
  | leaf shown name directives =>
      simp only [Selection.erased, Selection.inner, erasedBelow]
      split
      · rfl
      · contradiction
      · rfl
  | node shown name directives ss => rfl
  | _ => cases h

end Selections

end GraphCodec
