import GraphCodec.Proofs.Paths

/-!
# The checked part of an operation

Unsupported selections are rejected when their selection set is checked, and a selection set is
checked when it is compiled. Four kinds of selection sets are never checked: those on a custom
scalar, those of fields beside the inline fragments on a union, those of inline fragments on a
member type after the first, and those of inline fragments inside an inline fragment.
`Operation.seen` empties them and keeps everything else (`Erasure.unseen`).

The rest of a compiled operation is supported, at any depth. The erased selection sets do not
matter: the operation compiles to the same codec, or fails with the same error, whatever they are
(`selectionCodec_seen`). So an operation with fragment spreads in them compiles
(`Board.hidden_spread_accepted`).
-/

set_option autoImplicit false

namespace GraphCodec

/-- A selection with an empty selection set. -/
def Selection.shallow : Selection → Selection
  | .node shown name directives _ => .node shown name directives []
  | .inline condition directives _ => .inline condition directives []
  | .leaf shown name directives => .leaf shown name directives
  | .spread name directives => .spread name directives

/-- Empties the selection sets that are never checked. -/
def Erasure.unseen : Erasure := ⟨fun s => [s.shallow], false⟩

@[simp] theorem Erasure.flatMap_unseen (selections : List Selection) :
    selections.flatMap unseen.remains = selections.map Selection.shallow := by
  induction selections with
  | nil => rfl
  | cons s rest ih =>
      rw [List.flatMap_cons, ih, List.map_cons]
      rfl

/-- **The checked part of an operation** on a root type. -/
def Operation.seen (root : Codec) (op : Operation) : Operation :=
  { op with selections := Selections.erased .unseen root op.selections }

/-- The supported selections: fields without alias and inline fragments with a type condition,
without directives. -/
inductive Selection.Plain : Selection → Prop
  | leaf (name : String) : Plain (.leaf none name [])
  | node (name : String) (selections : List Selection) : Plain (.node none name [] selections)
  | inline (condition : String) (selections : List Selection) :
      Plain (.inline (some condition) [] selections)

theorem Selection.plain_iff {s : Selection} : s.Plain ↔ s.unsupported? = none := by
  constructor
  · rintro (_ | _ | _) <;> rfl
  · intro h
    unfold unsupported? at h
    split at h
    case h_8 name => exact .leaf name
    case h_9 name selections => exact .node name selections
    case h_10 condition selections => exact .inline condition selections
    all_goals cases h

/-! ## A selection from outside

What a selection is by itself does not depend on the selections below it, and a selection set is
checked and sorted by what its selections are by themselves. -/

namespace Selection

@[simp] theorem shallow_shallow (s : Selection) : s.shallow.shallow = s.shallow := by
  cases s <;> rfl

@[simp] theorem shallow_erased (e : Erasure) (on : Codec) (s : Selection) :
    (s.erased e on).shallow = s.shallow := by
  cases s <;> rfl

@[simp] theorem inner_shallow (s : Selection) : s.shallow.inner = [] := by
  cases s <;> rfl

theorem unsupported?_shallow (s : Selection) : s.shallow.unsupported? = s.unsupported? := by
  cases s with
  | node shown name directives ss => cases directives <;> cases shown <;> rfl
  | inline condition directives ss => cases directives <;> cases condition <;> rfl
  | leaf => rfl
  | spread => rfl

theorem leaf?_shallow (s : Selection) : s.shallow.leaf? = s.leaf? := by
  cases s <;> rfl

theorem condition?_shallow (s : Selection) : s.shallow.condition? = s.condition? := by
  cases s <;> rfl

theorem isNode_shallow (s : Selection) : s.shallow.isNode = s.isNode := by
  cases s <;> rfl

/-- The erasure of a selection that is no field with a selection set has an empty one. -/
theorem inner_unseen_of_not_isNode {s : Selection} (h : s.isNode = false) (on : Codec) :
    (s.erased .unseen on).inner = [] := by
  cases s with
  | node shown name directives ss => cases h
  | _ => rfl

end Selection

namespace Selections

/-- Selection sets that are equal up to the selection sets of their selections. -/
def ShallowEq (l l' : List Selection) : Prop := l.map Selection.shallow = l'.map Selection.shallow

namespace ShallowEq

variable {l l' : List Selection}

theorem eq_of_shallow {β : Type} {f : List Selection → β}
    (hf : ∀ k, f (k.map Selection.shallow) = f k) (h : ShallowEq l l') : f l = f l' := by
  rw [← hf l, ← hf l', h]

theorem check_eq (h : ShallowEq l l') : check l = check l' := by
  refine h.eq_of_shallow fun k => ?_
  have hSame : Selection.unsupported? ∘ Selection.shallow = Selection.unsupported? :=
    funext Selection.unsupported?_shallow
  rw [check, List.findSome?_map, hSame, check]

theorem leaves_eq (h : ShallowEq l l') : leaves l = leaves l' := by
  refine h.eq_of_shallow fun k => ?_
  have hSame : Selection.leaf? ∘ Selection.shallow = Selection.leaf? :=
    funext Selection.leaf?_shallow
  rw [leaves, List.filterMap_map, hSame, leaves]

theorem conditions_eq (h : ShallowEq l l') : conditions l = conditions l' := by
  refine h.eq_of_shallow fun k => ?_
  have hSame : Selection.condition? ∘ Selection.shallow = Selection.condition? :=
    funext Selection.condition?_shallow
  rw [conditions, List.filterMap_map, hSame, conditions]

theorem any_isNode_eq (h : ShallowEq l l') : l.any Selection.isNode = l'.any Selection.isNode := by
  refine h.eq_of_shallow (f := fun k => k.any Selection.isNode) fun k => ?_
  have hSame : Selection.isNode ∘ Selection.shallow = Selection.isNode :=
    funext Selection.isNode_shallow
  rw [List.any_map, hSame]

theorem codec_eq (h : ShallowEq l l') (type : Codec) (nested : List Codec) :
    codec type l nested = codec type l' nested := by
  rw [codec, codec, h.leaves_eq]

end ShallowEq

variable {on : Codec} {members : List Codec} {done : List String} {selections : List Selection}

theorem shallowEq_shallow (selections : List Selection) :
    ShallowEq (selections.map Selection.shallow) selections := by
  rw [ShallowEq, List.map_map]
  exact List.map_congr_left fun s _ => s.shallow_shallow

theorem shallowEq_erased (e : Erasure) (on : Codec) (selections : List Selection) :
    ShallowEq (erased e on selections) selections := by
  rw [ShallowEq, erased_eq, List.map_map]
  exact List.map_congr_left fun s _ => s.shallow_erased e on

/-! ## Inline fragments on a union -/

theorem shallowEq_unseenFragments (members : List Codec) (done : List String)
    (selections : List Selection) :
    ShallowEq (erasedFragments .unseen members done selections) selections := by
  unfold ShallowEq
  induction selections generalizing done with
  | nil => rfl
  | cons s rest ih =>
      have hShallow : (Erasure.unseen.remains s).map Selection.shallow = [s.shallow] := by
        simp [Erasure.unseen]
      cases hs : s.condition? with
      | none =>
          rw [erasedFragments_cons_other hs, List.map_append, hShallow, ih, List.map_cons]
          rfl
      | some condition =>
          obtain ⟨directives, inner, rfl⟩ := Selection.eq_inline_of_condition? hs
          by_cases hDone : condition ∈ done
          · rw [erasedFragments_cons_done hDone, List.map_append, hShallow, ih, List.map_cons]
            rfl
          · rw [erasedFragments_cons_new hDone, List.map_cons, List.map_cons, ih]
            rfl

/-- The first inline fragment on a member type is kept, with its selection set erased. -/
theorem fragment?_unseenFragments {type : String} (h : type ∉ done) :
    fragment? type (erasedFragments .unseen members done selections) =
      (fragment? type selections).map (erased .unseen (Codec.memberNamed members type)) := by
  induction selections generalizing done with
  | nil => rfl
  | cons s rest ih =>
      have hPassed : s.condition? ≠ some type → ∀ more : List Selection,
          fragment? type (Erasure.unseen.remains s ++ more) = fragment? type more := by
        intro hs more
        exact fragment?_cons_other (by rwa [Selection.condition?_shallow])
      cases hs : s.condition? with
      | none =>
          have hOther : s.condition? ≠ some type := by simp [hs]
          rw [erasedFragments_cons_other hs, hPassed hOther, fragment?_cons_other hOther, ih h]
      | some condition =>
          obtain ⟨directives, inner, rfl⟩ := Selection.eq_inline_of_condition? hs
          by_cases hType : condition = type
          · subst hType
            rw [erasedFragments_cons_new h, fragment?_cons_self, fragment?_cons_self]
            rfl
          · have hOther : ∀ inner : List Selection,
                (Selection.inline (some condition) directives inner).condition? ≠ some type :=
              fun _ hc => hType (Option.some.inj hc)
            rw [fragment?_cons_other (hOther inner)]
            by_cases hDone : condition ∈ done
            · rw [erasedFragments_cons_done hDone, hPassed (hOther inner), ih h]
            · rw [erasedFragments_cons_new hDone, fragment?_cons_other (hOther _), ih]
              simp [Ne.symm hType, h]

/-! ## The checked part below a field -/

theorem shallowEq_unseenBelow (core : Codec) (selections : List Selection) :
    ShallowEq (erasedBelow .unseen core selections) selections := by
  unfold erasedBelow
  split
  · rw [Erasure.flatMap_unseen]
    exact shallowEq_shallow selections
  · exact shallowEq_unseenFragments _ _ selections
  · exact shallowEq_erased _ _ selections

/-! ## The checked part is supported -/

/-- The selection set contains the selection, at any depth. -/
inductive Holds : List Selection → Selection → Prop
  | here {selections : List Selection} {t : Selection} (h : t ∈ selections) : Holds selections t
  | inside {selections : List Selection} {s t : Selection} (hs : s ∈ selections)
      (h : Holds s.inner t) : Holds selections t

/-- All selections are supported, at any depth. -/
def Supported (selections : List Selection) : Prop := ∀ t, Holds selections t → t.Plain

theorem check_eq_ok : check selections = .ok () ↔ ∀ t ∈ selections, t.Plain := by
  simp only [Selection.plain_iff]
  refine ⟨fun h t ht => unsupported?_eq_none h ht, fun h => ?_⟩
  rw [check, List.findSome?_eq_none_iff.mpr h]

theorem supported_nil : Supported [] := by
  intro t h
  cases h with
  | here h => cases h
  | inside hs h => cases hs

theorem supported_of_check (hCheck : check selections = .ok ())
    (hInner : ∀ s ∈ selections, Supported s.inner) : Supported selections := by
  intro t h
  cases h with
  | here ht => exact check_eq_ok.mp hCheck t ht
  | inside hs h => exact hInner _ hs t h

theorem supported_seen (hCheck : check selections = .ok ())
    (hNodes : ∀ s ∈ nodes selections, Supported (s.erased .unseen on).inner) :
    Supported (erased .unseen on selections) := by
  refine supported_of_check (by rw [(shallowEq_erased .unseen on selections).check_eq, hCheck]) ?_
  intro t ht
  rw [erased_eq] at ht
  obtain ⟨s, hs, rfl⟩ := List.mem_map.mp ht
  cases hNode : s.isNode with
  | false =>
      rw [Selection.inner_unseen_of_not_isNode hNode]
      exact supported_nil
  | true => exact hNodes s (mem_nodes.mpr ⟨hs, hNode⟩)

/-- The checked part below a compiled field is supported. -/
def SupportedField (parent : Codec) (s : Selection) (_ : Codec) : Prop :=
  Supported (s.erased .unseen parent).inner

theorem BodyCodec.supported {c : Codec} (h : BodyCodec SupportedField on selections c)
    (hCheck : check selections = .ok ()) : Supported (erased .unseen on selections) := by
  obtain ⟨nested, hNested, -⟩ := h
  refine supported_seen hCheck fun s hs => ?_
  obtain ⟨_, -, _, hSupported, -⟩ := exists_right_of_forall₂ hNested hs
  exact hSupported

theorem nodes_eq_nil_of_isBare (h : isBare selections = true) : nodes selections = [] := by
  simp only [isBare, Bool.and_eq_true, Bool.not_eq_true'] at h
  exact List.filter_eq_nil_iff.mpr (List.any_eq_false.mp h.2)

/-- The member type of a name has this name. -/
theorem memberNamed_spec {name : String} (h : name ∈ members.map Codec.name) :
    Codec.memberNamed members name ∈ members ∧ (Codec.memberNamed members name).name = name := by
  unfold Codec.memberNamed
  cases hFind : members.find? fun m => m.name = name with
  | none =>
      obtain ⟨m, hm, hName⟩ := List.mem_map.mp h
      exact absurd hName (by simpa using List.find?_eq_none.mp hFind m hm)
  | some m => exact ⟨List.mem_of_find?_eq_some hFind, by simpa using List.find?_some hFind⟩

/-- **The checked part below a field is supported**, if it is below the nested fields. -/
theorem Exit.supported {parent c : Codec} {s : Selection} (hField : s.isField = true)
    (h : Exit SupportedField parent s.name s.inner c) : SupportedField parent s c := by
  unfold SupportedField
  cases h with
  | @scalar type n hType hCheck hCore =>
      rw [inner_erased hField, Codec.fieldType_eq hType, hCore]
      refine supported_of_check (by rw [(shallowEq_unseenBelow _ s.inner).check_eq, hCheck]) ?_
      intro t ht
      obtain ⟨u, -, hu⟩ := List.mem_flatMap.mp ht
      cases List.mem_singleton.mp hu
      rw [Selection.inner_shallow]
      exact supported_nil
  | @union type union members codecs hType hCheck hCore hSome hCover hMembers =>
      rw [inner_erased hField, Codec.fieldType_eq hType, hCore]
      refine supported_of_check (by rw [(shallowEq_unseenBelow _ s.inner).check_eq, hCheck]) ?_
      intro t ht
      rw [erasedBelow_union hSome] at ht
      rcases of_mem_erasedFragments ht with ⟨u, -, hu⟩ | ⟨type, directives, inner, -, hInner, rfl⟩
      · cases List.mem_singleton.mp hu
        rw [Selection.inner_shallow]
        exact supported_nil
      · -- the cover was checked, so the fragment is for a member, and that member was compiled
        have hName := mem_of_checkCover hCover (mem_conditions_of_fragment? hInner)
        obtain ⟨hMember, hNamed⟩ := memberNamed_spec hName
        obtain ⟨c, -, inner', hInner', hInnerCheck, hBody⟩ :=
          exists_right_of_forall₂ hMembers hMember
        rw [hNamed, hInner] at hInner'
        cases hInner'
        exact hBody.supported hInnerCheck
  | @whole type hType hCheck hCore hNone hBare =>
      rw [inner_erased hField, Codec.fieldType_eq hType, erasedBelow_plain hCore hNone]
      refine supported_seen hCheck fun t ht => ?_
      rw [nodes_eq_nil_of_isBare hBare] at ht
      cases ht
  | @object type body hType hCheck hCore hNone hBare hBody =>
      rw [inner_erased hField, Codec.fieldType_eq hType, erasedBelow_plain hCore hNone]
      exact hBody.supported hCheck

theorem Compiles.supported {parent c : Codec} {s : Selection} (h : Compiles parent s c) :
    SupportedField parent s c := by
  refine h.induct (motive := SupportedField) fun q t d hField hExit => ?_
  exact Exit.supported hField (hExit.imp fun _ _ _ _ hNested => hNested.2)

/-! ## The rest does not matter -/

theorem nestedCodecs_cons_other {s : Selection} {rest : List Selection} (h : s.isNode = false) :
    nestedCodecs on (s :: rest) = nestedCodecs on rest := by
  cases s with
  | node shown name directives ss => cases h
  | _ => rfl

/-- The erased nested fields compile as before, if each of them does. -/
theorem nestedCodecs_unseen
    (h : ∀ s ∈ selections, fieldCodec on (s.erased .unseen on) = fieldCodec on s) :
    nestedCodecs on (erased .unseen on selections) = nestedCodecs on selections := by
  induction selections with
  | nil => rfl
  | cons s rest ih =>
      have hTail := ih fun t ht => h t (List.mem_cons_of_mem _ ht)
      cases s with
      | node shown name directives ss =>
          have hHead := h _ List.mem_cons_self
          rw [erased, nestedCodecs, ← hHead, ← hTail]
          rfl
      | _ => rw [erased, nestedCodecs_cons_other rfl, hTail, nestedCodecs_cons_other rfl]

theorem memberCodec_eq (union : String) (member : Codec) (selections : List Selection) :
    memberCodec union member selections =
      match fragment? member.name selections with
      | none => .error (.nonExhaustive union [member.name])
      | some inner => do
        check inner
        let nested ← nestedCodecs member inner
        return codec member inner nested := by
  fun_induction fragment? member.name selections with
  | case1 => rfl
  | case2 directives inner rest => rw [memberCodec, if_pos rfl]
  | case3 condition directives inner rest hc ih => rw [memberCodec, if_neg hc, ih]
  | case4 s rest hs ih =>
      rw [memberCodec, ih]
      exact hs

/-- A member type compiles as before, if the fields of its first inline fragment do. -/
theorem memberCodec_unseenFragments {union : String} {m : Codec}
    (hNamed : Codec.memberNamed members m.name = m)
    (h : ∀ inner, fragment? m.name selections = some inner → ∀ s ∈ inner,
      fieldCodec m (s.erased .unseen m) = fieldCodec m s) :
    memberCodec union m (erasedFragments .unseen members [] selections) =
      memberCodec union m selections := by
  rw [memberCodec_eq, memberCodec_eq, fragment?_unseenFragments List.not_mem_nil, hNamed]
  cases hInner : fragment? m.name selections with
  | none => rfl
  | some inner =>
      simp only [Option.map_some, (shallowEq_erased .unseen m inner).check_eq,
        nestedCodecs_unseen (h inner hInner), (shallowEq_erased .unseen m inner).codec_eq]

/-- The outcome of a field depends on its selection set up to `ShallowEq`, and on the outcomes of
nested fields and member types. -/
theorem fieldCodec_congr {parent : Codec} {shown : Option String} {name : String}
    {directives : List String} {l l' : List Selection} (hSame : ShallowEq l l')
    (hMember : ∀ type union members, parent.props.lookup name = some type →
      type.core = .named union (.union members) → conditions l' ≠ [] →
      ∀ m ∈ members, memberCodec union m l = memberCodec union m l')
    (hNested : ∀ type, parent.props.lookup name = some type → (∀ n, type.core ≠ .scalar n) →
      conditions l' = [] → nestedCodecs type.core l = nestedCodecs type.core l') :
    fieldCodec parent (.node shown name directives l) =
      fieldCodec parent (.node shown name directives l') := by
  rw [fieldCodec, fieldCodec, hSame.check_eq, hSame.conditions_eq]
  cases hDeclared : declared parent name with
  | error e => rfl
  | ok type =>
      have hType := declared_eq_ok.mp hDeclared
      rw [ok_bind, ok_bind]
      refine bind_congr fun _ => ?_
      split
      · rfl
      · rename_i union members c cs hCore hConditions
        have hCodecs : members.mapM (fun m => memberCodec union m l) =
            members.mapM fun m => memberCodec union m l' :=
          mapM_congr (hMember type union members hType hCore (by simp [hConditions]))
        rw [hCodecs]
      · rfl
      · rename_i hNone hScalar
        rw [hSame.leaves_eq, hSame.any_isNode_eq, hNested type hType hScalar hNone]
        simp only [hSame.codec_eq]

/-- **Erasing the selection sets that are never checked keeps the outcome of a field.** -/
theorem fieldCodec_unseen {schema : Schema} (hClosed : schema.Closed) {parent : Codec}
    (hParent : schema.Knows parent) (s : Selection) :
    fieldCodec parent (s.erased .unseen parent) = fieldCodec parent s := by
  -- as for `Compiles.induct`, the fragments lie two levels below the field
  induction hk : sizeOf s using Nat.strongRecOn generalizing parent s with
  | _ k ih =>
    subst hk
    cases s with
    | leaf shown name directives => rfl
    | spread name directives => rfl
    | inline condition directives ss => rfl
    | node shown name directives ss =>
        refine fieldCodec_congr (l := erasedBelow .unseen (parent.fieldType name).core ss)
          (shallowEq_unseenBelow _ ss) ?_ ?_
        · intro type union members hType hCore hSome m hm
          obtain ⟨-, -, -, hUnion⟩ := hClosed.lookup_prop hParent hType
          rw [hCore] at hUnion
          rw [Codec.fieldType_eq hType, hCore, erasedBelow_union hSome]
          refine memberCodec_unseenFragments (hClosed.memberNamed_eq hUnion hm) ?_
          intro inner hInner t ht
          exact ih _ (sizeOf_lt_of_mem_fragment hInner ht) (hClosed.knows_member hUnion hm) t rfl
        · intro type hType hCore hNone
          obtain ⟨-, -, -, hKnows⟩ := hClosed.lookup_prop hParent hType
          rw [Codec.fieldType_eq hType, erasedBelow_plain hCore hNone]
          refine nestedCodecs_unseen fun t ht => ?_
          exact ih _ (Selection.sizeOf_lt_of_mem_inner ht) hKnows t rfl

end Selections

namespace Operation

open Selections

variable {schema : Schema} {root : Codec}

theorem rootProps_unseen (hClosed : schema.Closed) (hRoot : schema.Knows root)
    (props : List (String × Codec)) (selections : List Selection) :
    rootProps root props (Selections.erased .unseen root selections) =
      rootProps root props selections := by
  induction selections generalizing props with
  | nil => rfl
  | cons s rest ih =>
      have hCheck : check [s.erased .unseen root] = check [s] :=
        (shallowEq_erased .unseen root [s]).check_eq
      have hField := fieldCodec_unseen hClosed hRoot s
      cases s with
      | leaf shown name directives =>
          rw [Selections.erased, Selection.erased, rootProps, rootProps]
          simp only [ih]
      | node shown name directives ss =>
          rw [Selection.erased] at hCheck hField
          rw [Selections.erased, Selection.erased, rootProps, rootProps, hCheck, hField]
          simp only [ih]
      | spread name directives => rfl
      | inline condition directives ss =>
          rw [Selection.erased] at hCheck
          rw [Selections.erased, Selection.erased, rootProps, rootProps, hCheck]
          all_goals simp

/-- **Selection sets that are never checked do not matter**: erasing them keeps the codec or the
error of an operation. -/
theorem selectionCodec_seen (hClosed : schema.Closed) (hRoot : schema.Knows root)
    (op : Operation) : (op.seen root).selectionCodec root = op.selectionCodec root := by
  rw [selectionCodec, selectionCodec, ← rootProps_unseen hClosed hRoot [] op.selections, seen]

theorem check_of_rootProps {selections : List Selection} {props all : List (String × Codec)}
    (h : rootProps root props selections = .ok all) : check selections = .ok () := by
  rw [check_eq_ok]
  induction selections generalizing props with
  | nil => simp
  | cons s rest ih =>
      obtain ⟨hCheck, -, -, c, -, hRest⟩ := rootProps_cons.mp h
      refine List.forall_mem_cons.mpr ⟨?_, ih hRest⟩
      exact check_eq_ok.mp hCheck s List.mem_cons_self

theorem supported_seen {op : Operation} {c : Codec} (h : op.selectionCodec root = .ok c) :
    Supported (op.seen root).selections := by
  obtain ⟨-, props, -, hProps, -⟩ := selectionCodec_eq_ok.mp h
  refine Selections.supported_seen (check_of_rootProps hProps) fun s hs => ?_
  obtain ⟨q, -, -, hCompiles⟩ := exists_right_of_forall₂ (forall₂_rootProp h) (mem_nodes.mp hs).1
  exact hCompiles.supported

/-- **The checked part of a compiled operation is supported, and nothing else matters.** It has no
fragment spread, directive, alias or inline fragment without a type condition, at any depth. The
operation compiles as if the rest were empty. -/
theorem selectionCodec_supports {ds : List Definition} {schema : Schema} {op : Operation}
    {root : Codec} (hSchema : Schema.compile ds = .ok schema)
    (hRoot : op.root schema = .ok root) :
    (∀ c, op.selectionCodec root = .ok c →
        ∀ t, Holds (op.seen root).selections t → t.Plain) ∧
      (op.seen root).selectionCodec root = op.selectionCodec root :=
  ⟨fun _ hc => supported_seen hc,
    selectionCodec_seen (compile_closed hSchema) (Or.inr (mem_types_of_root hRoot)) op⟩

end Operation

namespace Board

/-- An operation with a fragment spread in each kind of selection set that is never checked: on a
custom scalar, beside the inline fragments on a union, in a nested inline fragment, and in the
second inline fragment on a member type. -/
def hidden : Operation where
  kind := .query
  name := some "Hidden"
  vars := []
  selections :=
    [.node none "now" [] [.node none "day" [] [.spread "Gone" []]],
      .node none "found" []
        [.node none "owner" [] [.spread "Gone" []],
          .inline (some "User") [] [.inline (some "User") [] [.spread "Gone" []]],
          .inline (some "Todo") [] [.leaf none "id" []],
          .inline (some "Todo") [] [.spread "Gone" []]]]

def hiddenResponse : Codec :=
  .query "Hidden" [("now", date), ("found", .option (.array (.union
    [.intersection [.typename "Todo", .pick "Todo" ["id"]],
      .intersection [.typename "User", .pick "User" []]])))]

/-- Four fragment spreads are not checked, and the rest is supported. -/
theorem hidden_supports :
    Schema.compile (sortDefinitions definitions) = .ok schema ∧ hidden.root schema = .ok query ∧
      hidden.selectionCodec query = .ok hiddenResponse ∧
      (∀ t, Selections.Holds (hidden.seen query).selections t → t.Plain) ∧
      (hidden.seen query).selectionCodec query = hidden.selectionCodec query := by
  have hRoot : hidden.root schema = .ok query := by cbv
  have hc : hidden.selectionCodec query = .ok hiddenResponse := by cbv
  obtain ⟨hSupported, hSame⟩ := Operation.selectionCodec_supports compile_definitions hRoot
  exact ⟨compile_definitions, hRoot, hc, hSupported _ hc, hSame⟩

/-- **An operation with unchecked fragment spreads compiles.** -/
theorem hidden_spread_accepted :
    hidden.root schema = .ok query ∧ hidden.selectionCodec query = .ok hiddenResponse ∧
      ∃ t, Selections.Holds hidden.selections t ∧ ¬ t.Plain := by
  refine ⟨by cbv, by cbv, .spread "Gone" [], ?_, nofun⟩
  exact .inside List.mem_cons_self (.inside List.mem_cons_self (.here List.mem_cons_self))

end Board

end GraphCodec
