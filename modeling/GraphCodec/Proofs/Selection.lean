import GraphCodec.CodecModule
import GraphCodec.Proofs.Schema

/-!
# The cases of compiling a field

`Selections.fieldCodec` has four cases: a custom scalar, a union covered by inline fragments, a
field without sub-selections, and an object type. `Exit` lists them with all that holds there, and
`compiles_iff` says that there are no others; properties of selections are proved by these cases and
an induction on the selection.

`Scope` says which selection sets are compiled on which type. It follows the types of fields and the
type conditions of inline fragments only, not the resulting codecs.
-/

set_option autoImplicit false

namespace GraphCodec

namespace Selection

/-- The name of a field or of a fragment spread, empty for an inline fragment. -/
def name : Selection → String
  | leaf _ n _ | node _ n _ _ | spread n _ => n
  | inline _ _ _ => ""

/-- The selection set of a selection, empty if it has none. -/
def inner : Selection → List Selection
  | node _ _ _ ss | inline _ _ ss => ss
  | leaf _ _ _ | spread _ _ => []

/-- Whether the selection is a field. -/
def isField : Selection → Bool
  | leaf _ _ _ | node _ _ _ _ => true
  | _ => false

theorem sizeOf_lt_of_mem_inner {s t : Selection} (h : t ∈ s.inner) : sizeOf t < sizeOf s := by
  cases s with
  | node shown n directives ss =>
      have := List.sizeOf_lt_of_mem h
      simp only [node.sizeOf_spec]
      simp only [inner] at this
      omega
  | inline condition directives ss =>
      have := List.sizeOf_lt_of_mem h
      simp only [inline.sizeOf_spec]
      simp only [inner] at this
      omega
  | leaf => simp [inner] at h
  | spread => simp [inner] at h

end Selection

namespace Selections

/-- The fields with a selection set. -/
def nodes (selections : List Selection) : List Selection := selections.filter Selection.isNode

theorem mem_nodes {selections : List Selection} {s : Selection} :
    s ∈ nodes selections ↔ s ∈ selections ∧ s.isNode = true := by
  simp [nodes]

/-- Whether the selection set has no field other than `__typename`. -/
def isBare (selections : List Selection) : Bool :=
  leaves selections = [] && !selections.any Selection.isNode

/-- The selection set of the first inline fragment on a type. -/
def fragment? (type : String) : List Selection → Option (List Selection)
  | [] => none
  | .inline (some c) _ inner :: rest => if c = type then some inner else fragment? type rest
  | _ :: rest => fragment? type rest

theorem mem_of_fragment? {type : String} {selections inner : List Selection}
    (h : fragment? type selections = some inner) :
    ∃ directives, .inline (some type) directives inner ∈ selections := by
  fun_induction fragment? type selections with
  | case1 => cases h
  | case2 directives inner' rest =>
      cases h
      exact ⟨directives, List.mem_cons_self⟩
  | case3 c directives inner' rest hc ih =>
      obtain ⟨ds, hMem⟩ := ih h
      exact ⟨ds, List.mem_cons_of_mem _ hMem⟩
  | case4 s rest hs ih =>
      obtain ⟨ds, hMem⟩ := ih h
      exact ⟨ds, List.mem_cons_of_mem _ hMem⟩

theorem mem_conditions_of_fragment? {type : String} {selections inner : List Selection}
    (h : fragment? type selections = some inner) : type ∈ conditions selections := by
  obtain ⟨ds, hMem⟩ := mem_of_fragment? h
  exact List.mem_filterMap.mpr ⟨_, hMem, rfl⟩

theorem conditions_ne_nil_of_fragment? {type : String} {selections inner : List Selection}
    (h : fragment? type selections = some inner) : conditions selections ≠ [] :=
  List.ne_nil_of_mem (mem_conditions_of_fragment? h)

/-- Inline fragments that cover a union are on its member types. -/
theorem mem_of_checkCover {union condition : String} {members conditions : List String}
    (h : checkCover union members conditions = .ok ()) (hc : condition ∈ conditions) :
    condition ∈ members := by
  simp only [checkCover] at h
  split at h
  · cases h
  · split at h
    · cases h
    · rename_i hNone
      simpa using List.find?_eq_none.mp hNone condition hc

theorem unsupported?_eq_none {selections : List Selection} (h : check selections = .ok ())
    {t : Selection} (ht : t ∈ selections) : t.unsupported? = none := by
  unfold check at h
  split at h
  · cases h
  · rename_i hNone
    exact List.findSome?_eq_none_iff.mp hNone t ht

/-- Supported selections without inline fragments are fields. -/
theorem isField_of_check {selections : List Selection} (hCheck : check selections = .ok ())
    (hNone : conditions selections = []) {t : Selection} (ht : t ∈ selections) :
    t.isField = true := by
  have hSupported := unsupported?_eq_none hCheck ht
  cases t with
  | leaf shown name directives => rfl
  | node shown name directives inner => rfl
  | spread name directives => simp [Selection.unsupported?] at hSupported
  | inline condition directives inner =>
      cases condition with
      | none => cases directives <;> simp [Selection.unsupported?] at hSupported
      | some type =>
          have hCondition := List.filterMap_eq_nil_iff.mp hNone _ ht
          cases hCondition

/-! ## Cases -/

section

variable (field : Codec → Selection → Codec → Prop)

/-- The object of a nested field, where `field` gives the codecs of fields. -/
def NestedCodec (parent : Codec) (s : Selection) (c : Codec) : Prop :=
  ∃ type, field parent s type ∧ c = .object [(s.name, type)]

/-- The codec of a selection set on an object type. -/
def BodyCodec (type : Codec) (selections : List Selection) (c : Codec) : Prop :=
  ∃ nested, List.Forall₂ (NestedCodec field type) (nodes selections) nested ∧
    c = codec type selections nested

/-- The codec of a member type of a union, from the first inline fragment on it. -/
def MemberCodec (selections : List Selection) (member c : Codec) : Prop :=
  ∃ inner, fragment? member.name selections = some inner ∧ check inner = .ok () ∧
    BodyCodec field member inner c

/-- **The cases of compiling a field** with a selection set. A field without one is compiled like a
field with an empty one. -/
inductive Exit (parent : Codec) (name : String) (selections : List Selection) : Codec → Prop
  | scalar {type : Codec} {n : String} (hType : parent.props.lookup name = some type)
      (hCheck : check selections = .ok ()) (hCore : type.core = .scalar n) :
      Exit parent name selections type
  | union {type : Codec} {union : String} {members codecs : List Codec}
      (hType : parent.props.lookup name = some type) (hCheck : check selections = .ok ())
      (hCore : type.core = .named union (.union members)) (hSome : conditions selections ≠ [])
      (hCover : checkCover union (members.map Codec.name) (conditions selections) = .ok ())
      (hMembers : List.Forall₂ (MemberCodec field selections) members codecs) :
      Exit parent name selections (type.replaceCore (.union codecs))
  | whole {type : Codec} (hType : parent.props.lookup name = some type)
      (hCheck : check selections = .ok ()) (hCore : ∀ n, type.core ≠ .scalar n)
      (hNone : conditions selections = []) (hBare : isBare selections = true) :
      Exit parent name selections (wholeField parent name)
  | object {type c : Codec} (hType : parent.props.lookup name = some type)
      (hCheck : check selections = .ok ()) (hCore : ∀ n, type.core ≠ .scalar n)
      (hNone : conditions selections = []) (hBare : isBare selections = false)
      (hBody : BodyCodec field type.core selections c) :
      Exit parent name selections (type.replaceCore c)

end

/-- The field selection on `parent` compiles to the codec. -/
def Compiles (parent : Codec) (s : Selection) (c : Codec) : Prop := fieldCodec parent s = .ok c

theorem declared_eq_ok {parent type : Codec} {name : String} :
    declared parent name = .ok type ↔ parent.props.lookup name = some type := by
  unfold declared
  cases parent.props.lookup name with
  | none => simp
  | some c => simp

theorem nestedCodecs_eq_ok {parent : Codec} {selections : List Selection} {r : List Codec} :
    nestedCodecs parent selections = .ok r ↔
      List.Forall₂ (NestedCodec Compiles parent) (nodes selections) r := by
  induction selections generalizing r with
  | nil =>
      simp only [nestedCodecs, nodes, List.filter_nil, List.forall₂_nil_left_iff]
      constructor
      · intro h
        cases h
        rfl
      · rintro rfl
        rfl
  | cons s selections ih =>
      cases s with
      | node shown name directives ss =>
          rw [nestedCodecs, nodes, List.filter_cons_of_pos (by rfl), ← nodes,
            List.forall₂_cons_left_iff, bind_eq_ok]
          constructor
          · rintro ⟨type, hType, hRest⟩
            obtain ⟨cs, hcs, hr⟩ := bind_eq_ok.mp hRest
            cases hr
            exact ⟨_, cs, ⟨type, hType, rfl⟩, ih.mp hcs, rfl⟩
          · rintro ⟨_, cs, ⟨type, hType, rfl⟩, hcs, rfl⟩
            exact ⟨type, hType, bind_eq_ok.mpr ⟨cs, ih.mpr hcs, rfl⟩⟩
      | _ =>
          rw [nestedCodecs, nodes, List.filter_cons_of_neg (by simp [Selection.isNode])]
          · exact ih
          · simp

theorem memberCodec_eq_ok {union : String} {member c : Codec} {selections : List Selection} :
    memberCodec union member selections = .ok c ↔ MemberCodec Compiles selections member c := by
  fun_induction fragment? member.name selections with
  | case1 => simp [memberCodec, MemberCodec, fragment?]
  | case2 directives inner rest =>
      rw [memberCodec, if_pos rfl, bind_eq_ok]
      constructor
      · rintro ⟨_, hCheck, hRest⟩
        obtain ⟨nested, hNested, hc⟩ := bind_eq_ok.mp hRest
        cases hc
        exact ⟨inner, by simp [fragment?], hCheck, nested, nestedCodecs_eq_ok.mp hNested, rfl⟩
      · rintro ⟨inner', hInner, hCheck, nested, hNested, rfl⟩
        obtain rfl : inner = inner' := by simpa [fragment?] using hInner
        exact ⟨(), hCheck, bind_eq_ok.mpr ⟨nested, nestedCodecs_eq_ok.mpr hNested, rfl⟩⟩
  | case3 condition directives inner rest hc ih =>
      rw [memberCodec, if_neg hc, ih, MemberCodec, MemberCodec, fragment?, if_neg hc]
  | case4 s rest hs ih =>
      rw [memberCodec, ih, MemberCodec, MemberCodec, fragment?]
      · exact hs
      · exact hs

theorem leafCodec_eq_ok {parent c : Codec} {name : String} :
    leafCodec parent name = .ok c ↔ Exit Compiles parent name [] c := by
  rw [leafCodec, bind_eq_ok]
  constructor
  · rintro ⟨type, hType, hMatch⟩
    rw [declared_eq_ok] at hType
    split at hMatch
    · rename_i n hCore
      cases hMatch
      exact .scalar hType rfl hCore
    · rename_i hCore
      cases hMatch
      exact .whole hType rfl hCore rfl rfl
  · intro h
    cases h with
    | scalar hType hCheck hCore =>
        refine ⟨c, declared_eq_ok.mpr hType, ?_⟩
        rw [hCore]
        rfl
    | union hType hCheck hCore hSome => exact absurd rfl hSome
    | @whole type hType hCheck hCore =>
        refine ⟨type, declared_eq_ok.mpr hType, ?_⟩
        split
        · rename_i n hScalar
          exact absurd hScalar (hCore n)
        · rfl
    | object hType hCheck hCore hNone hBare => exact absurd hBare (by decide)

theorem exit_of_fieldCodec {parent c : Codec} {shown : Option String} {name : String}
    {directives : List String} {selections : List Selection}
    (h : fieldCodec parent (.node shown name directives selections) = .ok c) :
    Exit Compiles parent name selections c := by
  rw [fieldCodec] at h
  obtain ⟨type, hType, hRest⟩ := bind_eq_ok.mp h
  rw [declared_eq_ok] at hType
  obtain ⟨_, hCheck, hMatch⟩ := bind_eq_ok.mp hRest
  split at hMatch
  · rename_i n hCore
    cases hMatch
    exact .scalar hType hCheck hCore
  · rename_i union members k ks hCore hConditions
    obtain ⟨_, hCover, hRest⟩ := bind_eq_ok.mp hMatch
    obtain ⟨codecs, hCodecs, hc⟩ := bind_eq_ok.mp hRest
    cases hc
    rw [← hConditions] at hCover
    refine .union hType hCheck hCore (by simp [hConditions]) hCover ?_
    exact (mapM_eq_ok.mp hCodecs).imp fun _ _ h => memberCodec_eq_ok.mp h
  · cases hMatch
  · rename_i hNone hScalar
    split at hMatch
    · rename_i hBare
      cases hMatch
      exact .whole hType hCheck hScalar hNone hBare
    · rename_i hBare
      obtain ⟨nested, hNested, hc⟩ := bind_eq_ok.mp hMatch
      cases hc
      exact .object hType hCheck hScalar hNone (by simpa [isBare] using hBare)
        ⟨nested, nestedCodecs_eq_ok.mp hNested, rfl⟩

/-- A field without inline fragments whose type is no custom scalar is compiled as an object, or as
a `Pick` of the field itself. -/
theorem fieldCodec_no_fragments {parent type : Codec} {shown : Option String} {name : String}
    {directives : List String} {selections : List Selection}
    (hType : parent.props.lookup name = some type) (hCheck : check selections = .ok ())
    (hCore : ∀ n, type.core ≠ .scalar n) (hNone : conditions selections = []) :
    fieldCodec parent (.node shown name directives selections) =
      if isBare selections then .ok (wholeField parent name)
      else do
        let nested ← nestedCodecs type.core selections
        return type.replaceCore (codec type.core selections nested) := by
  rw [fieldCodec, declared_eq_ok.mpr hType, hCheck, ok_bind, ok_bind, hNone]
  split
  · rename_i n hScalar
    exact absurd hScalar (hCore n)
  · contradiction
  · contradiction
  · rfl

theorem fieldCodec_of_exit {parent c : Codec} {name : String} {selections : List Selection}
    (h : Exit Compiles parent name selections c) (shown : Option String)
    (directives : List String) :
    fieldCodec parent (.node shown name directives selections) = .ok c := by
  cases h with
  | scalar hType hCheck hCore =>
      rw [fieldCodec, bind_eq_ok]
      refine ⟨c, declared_eq_ok.mpr hType, bind_eq_ok.mpr ⟨(), hCheck, ?_⟩⟩
      rw [hCore]
      rfl
  | @union type union members codecs hType hCheck hCore hSome hCover hMembers =>
      rw [fieldCodec, bind_eq_ok]
      refine ⟨type, declared_eq_ok.mpr hType, bind_eq_ok.mpr ⟨(), hCheck, ?_⟩⟩
      obtain ⟨k, ks, hConditions⟩ := List.exists_cons_of_ne_nil hSome
      have hCodecs : members.mapM (fun m => memberCodec union m selections) = .ok codecs :=
        mapM_eq_ok.mpr (hMembers.imp fun _ _ h => memberCodec_eq_ok.mpr h)
      rw [hConditions] at hCover
      rw [hCore, hConditions]
      exact bind_eq_ok.mpr ⟨(), hCover, bind_eq_ok.mpr ⟨codecs, hCodecs, rfl⟩⟩
  | whole hType hCheck hCore hNone hBare =>
      rw [fieldCodec_no_fragments hType hCheck hCore hNone, if_pos hBare]
  | object hType hCheck hCore hNone hBare hBody =>
      obtain ⟨nested, hNested, rfl⟩ := hBody
      rw [fieldCodec_no_fragments hType hCheck hCore hNone, hBare, if_neg (by decide)]
      exact bind_eq_ok.mpr ⟨nested, nestedCodecs_eq_ok.mpr hNested, rfl⟩

/-- **The cases are exhaustive and sound.** -/
theorem compiles_iff {parent c : Codec} {s : Selection} :
    Compiles parent s c ↔ s.isField = true ∧ Exit Compiles parent s.name s.inner c := by
  cases s with
  | leaf shown name directives =>
      rw [Compiles, fieldCodec, leafCodec_eq_ok]
      simp [Selection.isField, Selection.name, Selection.inner]
  | spread name directives => simp [Compiles, fieldCodec, Selection.isField]
  | inline condition directives ss => simp [Compiles, fieldCodec, Selection.isField]
  | node shown name directives ss =>
      constructor
      · intro h
        exact ⟨rfl, exit_of_fieldCodec h⟩
      · rintro ⟨-, h⟩
        exact fieldCodec_of_exit h shown directives

/-! ## Induction on the selections -/

theorem sizeOf_lt_of_mem_fragment {s t : Selection} {type : String} {inner : List Selection}
    (hInner : fragment? type s.inner = some inner) (ht : t ∈ inner) : sizeOf t < sizeOf s := by
  obtain ⟨directives, hMem⟩ := mem_of_fragment? hInner
  have hOuter := Selection.sizeOf_lt_of_mem_inner hMem
  have hLast : sizeOf t < sizeOf (Selection.inline (some type) directives inner) :=
    Selection.sizeOf_lt_of_mem_inner ht
  omega

section

variable {field field' : Codec → Selection → Codec → Prop}

theorem BodyCodec.imp {type c : Codec} {selections : List Selection}
    (h : BodyCodec field type selections c)
    (hImp : ∀ s ∈ selections, ∀ d, field type s d → field' type s d) :
    BodyCodec field' type selections c := by
  obtain ⟨nested, hNested, rfl⟩ := h
  have hMem : ∀ s ∈ nodes selections, s ∈ selections := fun s hs => (mem_nodes.mp hs).1
  refine ⟨nested, ((List.forall₂_and_left _ _).mpr ⟨hMem, hNested⟩).imp ?_, rfl⟩
  rintro s d ⟨hs, type', hField, rfl⟩
  exact ⟨type', hImp s hs type' hField, rfl⟩

theorem Exit.imp {parent c : Codec} {s : Selection} (h : Exit field parent s.name s.inner c)
    (hImp : ∀ type t d, sizeOf t < sizeOf s → field type t d → field' type t d) :
    Exit field' parent s.name s.inner c := by
  cases h with
  | scalar hType hCheck hCore => exact .scalar hType hCheck hCore
  | union hType hCheck hCore hSome hCover hMembers =>
      refine .union hType hCheck hCore hSome hCover (hMembers.imp ?_)
      rintro m d ⟨inner, hInner, hInnerCheck, hBody⟩
      exact ⟨inner, hInner, hInnerCheck,
        hBody.imp fun t ht d => hImp m t d (sizeOf_lt_of_mem_fragment hInner ht)⟩
  | whole hType hCheck hCore hNone hBare => exact .whole hType hCheck hCore hNone hBare
  | object hType hCheck hCore hNone hBare hBody =>
      exact .object hType hCheck hCore hNone hBare
        (hBody.imp fun t ht d => hImp _ t d (Selection.sizeOf_lt_of_mem_inner ht))

end

/-- **Induction on the compilation of a field.** A property that carries over from the codecs of all
nested fields to that of the field holds of the codec of every field. -/
theorem Compiles.induct {motive : Codec → Selection → Codec → Prop}
    (step : ∀ parent s c, s.isField = true →
      Exit (fun p t d => Compiles p t d ∧ motive p t d) parent s.name s.inner c →
      motive parent s c)
    {parent c : Codec} {s : Selection} (h : Compiles parent s c) : motive parent s c := by
  -- a union compiles the selections inside its fragments, two levels below the field, so the
  -- induction is on the size of the selection and not on its constructors
  induction hk : sizeOf s using Nat.strongRecOn generalizing parent s c with
  | _ k ih =>
    subst hk
    obtain ⟨hField, hExit⟩ := compiles_iff.mp h
    refine step parent s c hField (hExit.imp fun p t d hLt ht => ⟨ht, ?_⟩)
    exact ih _ hLt ht rfl

/-! ## Scopes -/

/-- **The scope of a selection set.** Below the field `s` of `parent`, the selection set is on the
type: the named type of the field, or the member type of an inline fragment. A selection set on a
custom scalar, and those of the fields beside inline fragments on a union, are on no type. -/
inductive Scope : Codec → Selection → Codec → List Selection → Prop
  | object {parent type : Codec} {s : Selection} (hType : parent.props.lookup s.name = some type)
      (hCore : ∀ n, type.core ≠ .scalar n) (hNone : conditions s.inner = [])
      (hBare : isBare s.inner = false) : Scope parent s type.core s.inner
  | member {parent type m : Codec} {s : Selection} {union : String} {members : List Codec}
      {inner : List Selection} (hType : parent.props.lookup s.name = some type)
      (hCore : type.core = .named union (.union members)) (hMember : m ∈ members)
      (hInner : fragment? m.name s.inner = some inner) : Scope parent s m inner
  | nested {parent type type' : Codec} {s t : Selection} {selections selections' : List Selection}
      (h : Scope parent s type selections) (ht : t ∈ nodes selections)
      (h' : Scope type t type' selections') : Scope parent s type' selections'

end Selections

/-! ## Operations -/

namespace Operation

open Selections

/-- A property of a response: the name and the codec of a root field. -/
def RootProp (root : Codec) (s : Selection) (p : String × Codec) : Prop :=
  p.1 = s.name ∧ Compiles root s p.2

/-- The root selections are compiled in order: each is a supported field with a new name. -/
theorem rootProps_cons {root : Codec} {s : Selection} {rest : List Selection}
    {props all : List (String × Codec)} :
    rootProps root props (s :: rest) = .ok all ↔
      check [s] = .ok () ∧ s.isField = true ∧ s.name ∉ Assoc.keys props ∧
        ∃ c, Compiles root s c ∧ rootProps root (props ++ [(s.name, c)]) rest = .ok all := by
  have hField : ∀ name, (do
      check [s]
      if name ∈ Assoc.keys props then
        throw (CompileError.unsupportedSelection (.duplicateField name))
      let c ← fieldCodec root s
      rootProps root (props ++ [(name, c)]) rest) = Except.ok all ↔
      check [s] = .ok () ∧ name ∉ Assoc.keys props ∧
        ∃ c, Compiles root s c ∧ rootProps root (props ++ [(name, c)]) rest = .ok all := by
    intro name
    rw [bind_eq_ok]
    by_cases hName : name ∈ Assoc.keys props
    · simp only [hName, if_true, not_true_eq_false, false_and, and_false, iff_false]
      rintro ⟨_, -, hRest⟩
      cases hRest
    · simp only [hName, if_false, not_false_eq_true, true_and]
      constructor
      · rintro ⟨_, hCheck, hRest⟩
        exact ⟨hCheck, bind_eq_ok.mp hRest⟩
      · rintro ⟨hCheck, hRest⟩
        exact ⟨(), hCheck, bind_eq_ok.mpr hRest⟩
  cases s with
  | leaf shown name directives =>
      rw [rootProps]
      simpa [Selection.isField, Selection.name] using hField name
  | node shown name directives ss =>
      rw [rootProps]
      simpa [Selection.isField, Selection.name] using hField name
  | _ =>
      constructor
      · intro h
        rw [rootProps] at h
        · obtain ⟨_, -, hThrow⟩ := bind_eq_ok.mp h
          cases hThrow
        · simp
        · simp
      · rintro ⟨-, hNot, -⟩
        cases hNot

theorem rootProps_eq_ok {root : Codec} {selections : List Selection}
    {props all : List (String × Codec)} (h : rootProps root props selections = .ok all) :
    ∃ new, all = props ++ new ∧ List.Forall₂ (RootProp root) selections new := by
  induction selections generalizing props with
  | nil =>
      cases h
      exact ⟨[], by simp, .nil⟩
  | cons s rest ih =>
      obtain ⟨-, -, -, c, hc, hRest⟩ := rootProps_cons.mp h
      obtain ⟨new, rfl, hNew⟩ := ih hRest
      exact ⟨(s.name, c) :: new, by simp, .cons ⟨rfl, hc⟩ hNew⟩

/-- The codec of a response is named after the operation and has the root fields as properties. -/
theorem selectionCodec_eq_ok {op : Operation} {root c : Codec} :
    op.selectionCodec root = .ok c ↔ ∃ name props, op.name = some name ∧
      rootProps root [] op.selections = .ok props ∧
      c = if op.kind = .mutation then .mutation name props else .query name props := by
  unfold selectionCodec
  cases hName : op.name with
  | none => simp
  | some name =>
      simp only [Option.some.injEq]
      rw [bind_eq_ok]
      constructor
      · rintro ⟨props, hProps, hc⟩
        refine ⟨name, props, rfl, hProps, ?_⟩
        cases hKind : op.kind <;> rw [hKind] at hc <;> cases hc <;> simp
      · rintro ⟨_, props, rfl, hProps, rfl⟩
        refine ⟨props, hProps, ?_⟩
        cases op.kind <;> rfl

/-- The properties of a response are those of its root fields. -/
theorem forall₂_rootProp {op : Operation} {root c : Codec}
    (h : op.selectionCodec root = .ok c) :
    List.Forall₂ (RootProp root) op.selections c.props := by
  obtain ⟨name, props, -, hProps, rfl⟩ := selectionCodec_eq_ok.mp h
  obtain ⟨new, rfl, hNew⟩ := rootProps_eq_ok hProps
  split_ifs <;> exact hNew

/-- The root type of an operation is that of its operation type, if the schema has it as an object
type. -/
theorem root_eq_ok {op : Operation} {schema : Schema} {root : Codec} :
    op.root schema = .ok root ↔ op.kind ≠ .subscription ∧
      schema.get? op.kind.title = some root ∧ root.kind = op.kind.title := by
  unfold Operation.root
  cases op.kind with
  | query =>
      simp only [Schema.query?, OperationKind.title]
      cases schema.get? "Query" with
      | none => simp
      | some c =>
          by_cases hc : c = root
          · subst hc
            cases c <;> simp [Codec.kind]
          · cases c <;> simp_all
  | mutation =>
      simp only [Schema.mutation?, OperationKind.title]
      cases schema.get? "Mutation" with
      | none => simp
      | some c =>
          by_cases hc : c = root
          · subst hc
            cases c <;> simp [Codec.kind]
          · cases c <;> simp_all
  | subscription => simp

theorem mem_types_of_root {op : Operation} {schema : Schema} {root : Codec}
    (h : op.root schema = .ok root) : root ∈ schema.types :=
  Schema.mem_of_get? (root_eq_ok.mp h).2.1

end Operation

/-! ## A small board

A schema with each kind of type but enums, and an operation on scalars, objects in
objects, and a union below a list. -/

namespace Board

def definitions : List Definition :=
  [⟨"Query", .object [⟨"now", .named "Date" true⟩, ⟨"todos", .list (.named "Todo" true) true⟩,
      ⟨"found", .list (.named "Found" true) false⟩]⟩,
    ⟨"Found", .union ["Todo", "User"]⟩,
    ⟨"Todo", .object [⟨"id", .named "ID" true⟩, ⟨"due", .named "Date" false⟩,
      ⟨"owner", .named "User" true⟩]⟩,
    ⟨"User", .object [⟨"name", .named "String" true⟩]⟩,
    ⟨"Filter", .input [⟨"before", .named "Date" false⟩]⟩,
    ⟨"Date", .scalar⟩]

def date : Codec := .scalar "Date"

def user : Codec := .named "User" (.object [("name", .primitive .string)])

def todo : Codec :=
  .named "Todo" (.object [("id", .primitive .id), ("due", .option date), ("owner", user)])

def found : Codec := .named "Found" (.union [todo, user])

def query : Codec :=
  .query "Query" [("now", date), ("todos", .array todo), ("found", .option (.array found))]

def filter : Codec := .input "Filter" [("before", .option date)]

def schema : Schema := ⟨[date, user, todo, found, query, filter]⟩

theorem compile_definitions : compileDefinitions definitions = .ok schema := by cbv

def operation : Operation where
  kind := .query
  name := some "Board"
  vars := [⟨"filter", .named "Filter" false⟩]
  selections :=
    [.leaf none "now" [],
      .node none "todos" [] [.leaf none "id" [], .node none "due" [] [.leaf none "day" []],
        .node none "owner" [] [.leaf none "name" []]],
      .node none "found" []
        [.inline (some "User") [] [.leaf none "name" []],
          .inline (some "Todo") [] [.leaf none "id" []]]]

end Board

end GraphCodec
