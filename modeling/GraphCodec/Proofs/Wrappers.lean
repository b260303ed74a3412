import GraphCodec.Proofs.Coherence
import GraphCodec.Proofs.Coverage
import GraphCodec.Proofs.Growth
import GraphCodec.Proofs.References

/-!
# Wrappers are those declared

The list and nullable wrappers of a type reference are applied to the codec of the named type when
the schema is compiled, removed when a field is compiled, and applied to the codec of its selection
set. So a field with a selection set, at any depth, has exactly the wrappers of its type reference
(`wrappers_declared`). A field without sub-selections has none: it is a `Pick` from its parent.

A double option is an option directly inside an option. No type reference has one, and nothing else
creates options, so there is none in a schema, in variables or in a response.
-/

set_option autoImplicit false

namespace GraphCodec

/-! ## Wrappers -/

/-- The wrappers of a type. -/
inductive Wrapper where
  | array
  | option
  deriving DecidableEq, Repr

/-- The wrappers of a codec, outermost first. -/
def Codec.wrappers : Codec → List Wrapper
  | array c => .array :: c.wrappers
  | option c => .option :: c.wrappers
  | _ => []

/-- The wrappers of a type reference, outermost first. -/
def Signature.wrappers : Signature → List Wrapper
  | .named _ true => []
  | .named _ false => [.option]
  | .list t true => .array :: t.wrappers
  | .list t false => .option :: .array :: t.wrappers

theorem Signature.wrappers_wrap (t : Signature) (c : Codec) :
    (t.wrap c).wrappers = t.wrappers ++ c.wrappers := by
  induction t with
  | named n nonNull => cases nonNull <;> rfl
  | list t nonNull ih => cases nonNull <;> simp [wrap, wrappers, Codec.wrappers, ih]

theorem Codec.wrappers_core (c : Codec) : c.core.wrappers = [] := by
  fun_induction core c with
  | case1 c ih => exact ih
  | case2 c ih => exact ih
  | case3 c hArray hOption =>
      rw [wrappers]
      · exact hArray
      · exact hOption

/-! ## Double options -/

/-- The codec has a nullable type directly inside a nullable type. -/
def Codec.DoubleOption (c : Codec) : Prop := ∃ q, .option (.option q) ∈ c.parts

/-- A type reference adds no nullable type directly inside a nullable type. -/
theorem Signature.doubleOption_of_wrap (t : Signature) {c : Codec} (hc : c.core = c)
    (h : (t.wrap c).DoubleOption) : c.DoubleOption := by
  obtain ⟨q, hq⟩ := h
  rcases t.part_cases hq with hq | hSelf | ⟨d, hSelf | hSelf⟩
  · exact ⟨q, hq⟩
  · -- then what is wrapped would be an option itself, and not its own core
    obtain rfl : c = .option q := (Codec.option.inj hSelf).symm
    have hNone := Codec.wrappers_core (.option q)
    rw [hc] at hNone
    cases hNone
  · cases hSelf
  · cases hSelf

/-- The codec of a named type has no wrappers. -/
theorem Memo.Built.core_eq {ds : List Definition} {memo : Memo} (h : memo.Built ds) {n : String}
    {b : Codec} (hb : memo.field? n = some b) : b.core = b := by
  rcases Memo.field?_eq_some.mp hb with ⟨p, -, rfl⟩ | ⟨-, hb⟩
  · rfl
  · obtain ⟨e, -, -, he⟩ := h.hasCodec hb
    exact he.core_eq

theorem HasCodec.doubleOption {memo : Memo} {ds : List Definition} (hBuilt : memo.Built ds)
    {d : Definition} {c : Codec} (h : HasCodec memo d c) (hDouble : c.DoubleOption) :
    ∃ n b, memo.lookup n = some b ∧ b.DoubleOption := by
  obtain ⟨q, hq⟩ := hDouble
  rcases h.part_cases hq with rfl | hBody | ⟨members, hBody⟩ | ⟨⟨k, t⟩, ht, hPart⟩ | hMember
  · -- definitions have named codecs, and an option has no name
    have hName := h.name?_eq
    cases hName
  · cases hBody
  · cases hBody
  · obtain ⟨sig, b, -, hb, rfl⟩ := h.mem_props ht
    obtain ⟨r, hr⟩ := sig.doubleOption_of_wrap (hBuilt.core_eq hb) ⟨q, hPart⟩
    rcases Memo.field?_eq_some.mp hb with ⟨kind, -, rfl⟩ | ⟨-, hb⟩
    · cases List.mem_singleton.mp hr
    · exact ⟨_, b, hb, r, hr⟩
  · obtain ⟨n, b, hb, hPart⟩ := hMember
    exact ⟨n, b, hb, q, hPart⟩

/-- **No entry of a memo has a double option.** Its operands come from older entries. -/
theorem Memo.Built.not_doubleOption {ds : List Definition} {memo : Memo} (h : memo.Built ds)
    {n : String} {c : Codec} (hc : memo.lookup n = some c) : ¬ c.DoubleOption := by
  induction h generalizing n c with
  | nil => cases hc
  | @cons memo d e h hd hNew he ih =>
      rw [List.lookup_cons] at hc
      by_cases hn : n = d.name
      · subst hn
        obtain rfl : e = c := by simpa using hc
        intro hDouble
        obtain ⟨k, b, hb, hInside⟩ := he.doubleOption h hDouble
        exact ih hb hInside
      · have hn' : (n == d.name) = false := by simpa using hn
        rw [hn'] at hc
        exact ih hc

section

variable {ds : List Definition} {schema : Schema}

theorem Schema.not_doubleOption_of_knows (hSchema : Schema.compile ds = .ok schema) {c : Codec}
    (hc : schema.Knows c) : ¬ c.DoubleOption := by
  obtain ⟨memo, hBuilt, hTypes⟩ := compile_built hSchema
  rcases hc with ⟨p, rfl⟩ | hc
  · rintro ⟨q, hq⟩
    cases List.mem_singleton.mp hq
  · obtain ⟨n, hn⟩ := (mem_types_iff hBuilt hTypes).mp hc
    exact hBuilt.not_doubleOption hn

theorem Operation.not_doubleOption_variables (hSchema : Schema.compile ds = .ok schema)
    {op : Operation} {c : Codec} (hc : op.variablesCodec schema.inputs = .ok c) :
    ¬ c.DoubleOption := by
  rintro ⟨q, hq⟩
  obtain ⟨name, pairs, rfl, hPairs⟩ := variablesCodec_eq_ok hc
  rw [Codec.parts_input] at hq
  rcases List.mem_cons.mp hq with hSelf | hq
  · cases hSelf
  obtain ⟨p, hp, hPart⟩ := List.mem_flatMap.mp hq
  obtain ⟨v, -, b, hb, rfl⟩ := exists_left_of_forall₂ hPairs (Assoc.mem_of_mem_ofList hp)
  have hKnows := Schema.knows_of_inputs hb
  exact Schema.not_doubleOption_of_knows hSchema hKnows
    (v.type.doubleOption_of_wrap (hKnows.core_eq (compile_closed hSchema)) ⟨q, hPart⟩)

end

/-- The nodes of a type include those of its fields. -/
theorem Codec.mem_parts_of_mem_props {c t p : Codec} {k : String} (ht : (k, t) ∈ c.props)
    (hp : p ∈ t.parts) : p ∈ c.parts := by
  have hProps : ∀ {ps : List (String × Codec)}, (k, t) ∈ ps → p ∈ propParts ps := by
    intro ps h
    rw [propParts_eq]
    exact List.mem_flatMap.mpr ⟨_, h, hp⟩
  unfold props at ht
  split at ht
  · exact List.mem_cons_of_mem _ (hProps ht)
  · exact List.mem_cons_of_mem _ (hProps ht)
  · exact List.mem_cons_of_mem _ (hProps ht)
  · exact List.mem_cons_of_mem _ (hProps ht)
  · exact List.mem_cons_of_mem _ (List.mem_cons_of_mem _ (hProps ht))
  · cases ht

namespace Selections

open Codec

variable {ds : List Definition} {schema : Schema}

/-- Compiling a selection creates no option, so the options are those of the declared type. -/
theorem Added.exists_option {new : Codec} (h : Added new) {item q : Codec}
    (hItem : item.replaceCore new = .option q) : ∃ i, item = .option i := by
  cases item with
  | option i => exact ⟨i, rfl⟩
  | array i => cases hItem
  | _ =>
      obtain rfl : new = .option q := hItem
      cases h

/-- The codec of a field has no double option. -/
theorem Compiles.not_doubleOption (hSchema : Schema.compile ds = .ok schema) {parent c : Codec}
    {s : Selection} (h : Compiles parent s c) (hParent : schema.Knows parent) :
    ¬ c.DoubleOption := by
  have hClosed := compile_closed hSchema
  refine h.induct (motive := fun parent _ c => schema.Knows parent → ¬ c.DoubleOption) ?_ hParent
  clear h hParent
  rintro parent s c hField hExit hParent ⟨q, hq⟩
  -- the options of a field are nodes of the codec of its parent
  generalize hDouble : Codec.option (.option q) = p at hq
  cases hExit.fieldNode hq with
  | added h =>
      subst hDouble
      cases h
  | array hType hItem hNew => cases hDouble
  | option hType hItem hNew =>
      obtain ⟨i, rfl⟩ := hNew.exists_option (Codec.option.inj hDouble).symm
      exact Schema.not_doubleOption_of_knows hSchema hParent
        ⟨i, mem_parts_of_mem_props (Assoc.mem_of_lookup hType) hItem⟩
  | nested hType hd hp =>
      obtain ⟨-, -, -, hKnows⟩ := hClosed.lookup_prop hParent hType
      exact hd.2 hKnows ⟨q, hDouble ▸ hp⟩
  | member hType hCore hm hd hp =>
      obtain ⟨-, -, -, hKnows⟩ := hClosed.lookup_prop hParent hType
      rw [hCore] at hKnows
      exact hd.2 (hClosed.knows_member hKnows hm) ⟨q, hDouble ▸ hp⟩

end Selections

theorem Operation.not_doubleOption_response {ds : List Definition} {schema : Schema}
    (hSchema : Schema.compile ds = .ok schema) {op : Operation} {root c : Codec}
    (hRoot : schema.Knows root) (hc : op.selectionCodec root = .ok c) : ¬ c.DoubleOption := by
  rintro ⟨q, hq⟩
  obtain ⟨s, -, d, hd, hPart⟩ := exists_field_of_mem_parts hc rfl hq
  exact hd.not_doubleOption hSchema hRoot ⟨q, hPart⟩

/-! ## Type references of fields -/

/-- The type reference of a field in a definition. -/
def Definition.signature? (d : Definition) (field : String) : Option Signature :=
  match d.body with
  | .object fields | .input fields => fieldType? fields field
  | _ => none

/-- The codec of a field is that of a known type with the wrappers of its type reference. -/
theorem Schema.exists_signature {ds : List Definition} {schema : Schema}
    (hSchema : Schema.compile ds = .ok schema) {parent type : Codec} {name : String}
    (hParent : schema.Knows parent) (hType : parent.props.lookup name = some type) :
    ∃ d ∈ ds, ∃ sig, d.name = parent.name ∧ d.signature? name = some sig ∧
      ∀ new, type.replaceCore new = sig.wrap new := by
  obtain ⟨memo, hBuilt, hTypes⟩ := compile_built hSchema
  obtain ⟨n, hn⟩ := (mem_types_iff hBuilt hTypes).mp (hParent.mem_of_lookup hType)
  obtain ⟨d, hd, hName, hCodec⟩ := hBuilt.hasCodec hn
  have hSignature : ∀ {fields : List Field} {pairs : List (String × Codec)},
      List.Forall₂ (FieldCodec memo) fields pairs → (Assoc.ofList pairs).lookup name = some type →
      ∃ sig, fieldType? fields name = some sig ∧ ∀ new, type.replaceCore new = sig.wrap new := by
    intro fields pairs hPairs hLookup
    obtain ⟨sig, hSig, b, hb, rfl⟩ := (lookup_ofList_fields hPairs).mp hLookup
    exact ⟨sig, hSig, sig.replaceCore_wrap (hBuilt.core_eq hb)⟩
  refine ⟨d, hd, ?_⟩
  rw [hCodec.name_eq]
  cases hCodec with
  | object h =>
      obtain ⟨sig, hSig, hWrap⟩ := hSignature h (by simpa using hType)
      exact ⟨sig, rfl, hSig, hWrap⟩
  | input h =>
      obtain ⟨sig, hSig, hWrap⟩ := hSignature h hType
      exact ⟨sig, rfl, hSig, hWrap⟩
  | _ => cases hType

/-! ## Selected fields -/

namespace Codec

theorem mem_placed_self (q : Position) (c : Codec) : (q, c) ∈ c.placed q := by
  cases c <;> exact List.mem_cons_self

/-- The position of a new core is that of the core of the declared type. -/
theorem mem_placed_replaceCore {t new parent : Codec} {name : String} {p : Position × Codec}
    (h : p ∈ new.placed (.field parent name t.core)) :
    p ∈ (t.replaceCore new).placed (.field parent name t) := by
  fun_induction replaceCore t new with
  | case1 c new ih => exact List.mem_cons_of_mem _ (ih h)
  | case2 c new ih => exact List.mem_cons_of_mem _ (ih h)
  | case3 c new hArray hOption =>
      rw [core] at h
      · exact h
      · exact hArray
      · exact hOption

/-- Each member type has an entry placed on it. -/
theorem exists_of_mem_members {R : Codec → Codec → Prop} {members entries : List Codec}
    (h : List.Forall₂ R members entries) {m : Codec} (hm : m ∈ members) :
    ∃ c, R m c ∧ ∀ p ∈ c.placed (.on m), p ∈ placedEntries members entries := by
  induction h with
  | nil => cases hm
  | @cons m' c members entries hHead hTail ih =>
      rcases List.mem_cons.mp hm with rfl | hm
      · exact ⟨c, hHead, fun p hp => List.mem_append_left _ hp⟩
      · obtain ⟨d, hd, hPlaced⟩ := ih hm
        exact ⟨d, hd, fun p hp => List.mem_append_right _ (hPlaced p hp)⟩

end Codec

namespace Selections

open Codec

/-- The position of a field of a type. -/
def fieldPosition (parent : Codec) (name : String) : Position :=
  .field parent name (parent.fieldType name)

/-- A nested field is placed at its position on the type of the selection set. -/
theorem BodyCodec.mem_placed {field : Codec → Selection → Codec → Prop} {on c : Codec}
    {selections : List Selection} (h : BodyCodec field on selections c) {t : Selection}
    (ht : t ∈ nodes selections) {here : Position} (hHere : here.type = on) :
    ∃ d, field on t d ∧ ∀ p ∈ d.placed (fieldPosition on t.name), p ∈ c.placed here := by
  obtain ⟨nested, hNested, rfl⟩ := h
  obtain ⟨o, ho, d, hd, rfl⟩ := exists_right_of_forall₂ hNested ht
  refine ⟨d, hd, fun p hp => ?_⟩
  have hObject : p ∈ (Codec.object [(t.name, d)]).placed (.on on) :=
    List.mem_cons_of_mem _ (mem_placedProps.mpr ⟨_, List.mem_cons_self, hp⟩)
  refine List.mem_cons_of_mem _ ?_
  rw [hHere]
  exact mem_placedParts.mpr ⟨_, by simp [ho], hObject⟩

/-- **A selection set is placed on its type.** -/
theorem Scope.placed {parent on : Codec} {s : Selection} {selections : List Selection}
    (h : Scope parent s on selections) {c : Codec} (hc : Compiles parent s c) :
    ∃ body here, BodyCodec Compiles on selections body ∧ here.type = on ∧
      ∀ p ∈ body.placed here, p ∈ c.placed (fieldPosition parent s.name) := by
  induction h generalizing c with
  | @object parent type s hType hCore hNone hBare =>
      obtain ⟨body, hBody, rfl⟩ := hc.exists_body hType hCore hNone hBare
      refine ⟨body, .field parent s.name type.core, hBody, rfl, fun p hp => ?_⟩
      rw [fieldPosition, fieldType_eq hType]
      exact mem_placed_replaceCore hp
  | @member parent type m s union members inner hType hCore hMember hInner =>
      obtain ⟨entries, hEntries, rfl⟩ :=
        hc.exists_entries hType hCore (conditions_ne_nil_of_fragment? hInner)
      obtain ⟨d, ⟨inner', hInner', -, hBody⟩, hPlaced⟩ := exists_of_mem_members hEntries hMember
      obtain rfl := Option.some.inj (hInner.symm.trans hInner')
      refine ⟨d, .on m, hBody, rfl, fun p hp => ?_⟩
      rw [fieldPosition, fieldType_eq hType]
      refine mem_placed_replaceCore (List.mem_cons_of_mem _ ?_)
      rw [hCore]
      exact hPlaced p hp
  | nested h ht h' ih ih' =>
      obtain ⟨body, here, hBody, hHere, hPlaced⟩ := ih hc
      obtain ⟨d, hd, hBelow⟩ := hBody.mem_placed ht hHere
      obtain ⟨body', here', hBody', hHere', hPlaced'⟩ := ih' hd
      exact ⟨body', here', hBody', hHere', fun p hp => hPlaced p (hBelow p (hPlaced' p hp))⟩

/-- Selection sets are on known types. -/
theorem Scope.knows {schema : Schema} (hClosed : schema.Closed) {parent on : Codec} {s : Selection}
    {selections : List Selection} (h : Scope parent s on selections)
    (hParent : schema.Knows parent) : schema.Knows on := by
  induction h with
  | object hType hCore hNone hBare =>
      obtain ⟨-, -, -, hKnows⟩ := hClosed.lookup_prop hParent hType
      exact hKnows
  | member hType hCore hMember hInner =>
      obtain ⟨-, -, -, hKnows⟩ := hClosed.lookup_prop hParent hType
      rw [hCore] at hKnows
      exact hClosed.knows_member hKnows hMember
  | nested h ht h' ih ih' => exact ih' (ih hParent)

/-- **The field keeps its type**: it is a custom scalar, or has a nonempty selection. Any other
field is compiled to a `Pick` of the field from its parent. -/
def KeepsType (parent : Codec) (t : Selection) : Prop :=
  (∃ type n, parent.props.lookup t.name = some type ∧ type.core = .scalar n) ∨
    conditions t.inner ≠ [] ∨ isBare t.inner = false

theorem Added.wrappers_eq {c : Codec} (h : Added c) : c.wrappers = [] := by
  cases h <;> rfl

/-- The codec of a field that keeps its type replaces the core only, and that of any other field is
`wholeField`. -/
theorem Compiles.core_cases {parent d : Codec} {t : Selection} (h : Compiles parent t d) :
    (KeepsType parent t ∧ ∃ type new, parent.props.lookup t.name = some type ∧ Added new ∧
        d = type.replaceCore new) ∨
      (¬ KeepsType parent t ∧ d = wholeField parent t.name) := by
  obtain ⟨-, hExit⟩ := compiles_iff.mp h
  cases hExit with
  | @scalar _ n hType hCheck hCore =>
      refine Or.inl ⟨Or.inl ⟨d, n, hType, hCore⟩, d, .scalar n, hType, .scalar n, ?_⟩
      rw [← hCore, replaceCore_self]
  | union hType hCheck hCore hSome hCover hMembers =>
      exact Or.inl ⟨Or.inr (Or.inl hSome), _, _, hType, .union _, rfl⟩
  | object hType hCheck hCore hNone hBare hBody =>
      exact Or.inl ⟨Or.inr (Or.inr hBare), _, _, hType, hBody.added, rfl⟩
  | whole hType hCheck hCore hNone hBare =>
      refine Or.inr ⟨?_, rfl⟩
      rintro (⟨type', n, hType', hScalar⟩ | hSome | hFull)
      · obtain rfl := Option.some.inj (hType.symm.trans hType')
        exact hCore n hScalar
      · exact hSome hNone
      · rw [hBare] at hFull
        cases hFull

end Selections

namespace Operation

open Selections

/-- **The field selections of an operation**, each with the type it is on: the root fields, and the
fields with selection sets below them. Other leaves are part of a `Pick`. -/
inductive Selects (op : Operation) (root : Codec) : Codec → Selection → Prop
  | root {t : Selection} (ht : t ∈ op.selections) : Selects op root root t
  | nested {on : Codec} {s t : Selection} {selections : List Selection} (hs : s ∈ op.selections)
      (hScope : Scope root s on selections) (ht : t ∈ nodes selections) : Selects op root on t

theorem Selects.knows {schema : Schema} (hClosed : schema.Closed) {op : Operation}
    {root on : Codec} {t : Selection} (h : op.Selects root on t) (hRoot : schema.Knows root) :
    schema.Knows on := by
  cases h with
  | root ht => exact hRoot
  | nested hs hScope ht => exact hScope.knows hClosed hRoot

/-- A selected field is compiled, and its codec is placed in the response at its position. -/
theorem Selects.exists_placed {op : Operation} {root c on : Codec} {t : Selection}
    (h : op.Selects root on t) (hc : op.selectionCodec root = .ok c) :
    ∃ d, Compiles on t d ∧ (fieldPosition on t.name, d) ∈ c.placed (.on root) := by
  have hRoot : ∀ s ∈ op.selections, ∃ d, Compiles root s d ∧
      ∀ p ∈ d.placed (fieldPosition root s.name), p ∈ c.placed (.on root) := by
    intro s hs
    obtain ⟨⟨k, d⟩, hk, rfl, hd⟩ := exists_right_of_forall₂ (forall₂_rootProp hc) hs
    refine ⟨d, hd, fun p hp => ?_⟩
    rw [placed_response hc]
    exact List.mem_cons_of_mem _ (Codec.mem_placedProps.mpr ⟨_, hk, hp⟩)
  cases h with
  | root ht =>
      obtain ⟨d, hd, hPlaced⟩ := hRoot t ht
      exact ⟨d, hd, hPlaced _ (Codec.mem_placed_self _ d)⟩
  | nested hs hScope ht =>
      obtain ⟨e, he, hPlaced⟩ := hRoot _ hs
      obtain ⟨body, here, hBody, hHere, hBelow⟩ := hScope.placed he
      obtain ⟨d, hd, hInside⟩ := hBody.mem_placed ht hHere
      exact ⟨d, hd, hPlaced _ (hBelow _ (hInside _ (Codec.mem_placed_self _ d)))⟩

end Operation

/-- **List and nullable wrappers are those declared.** A field that an operation selects is
compiled, its codec is placed in the response at its position, and it has the wrappers of its type
reference if it keeps its type; otherwise it is `wholeField`. Nowhere in a response, in the schema
or in the variables is there a double option. -/
theorem Schema.wrappers_declared {ds : List Definition} {schema : Schema}
    (hSchema : Schema.compile ds = .ok schema) :
    (∀ (op : Operation) (root c : Codec), op.root schema = .ok root →
      op.selectionCodec root = .ok c →
        (∀ (parent : Codec) (t : Selection), op.Selects root parent t →
          ∃ codec, Selections.fieldCodec parent t = .ok codec ∧
            (Selections.fieldPosition parent t.name, codec) ∈ c.placed (.on root) ∧
            (Selections.KeepsType parent t →
              ∃ d ∈ ds, ∃ sig, d.name = parent.name ∧ d.signature? t.name = some sig ∧
                codec.wrappers = sig.wrappers) ∧
            (¬ Selections.KeepsType parent t → codec = Selections.wholeField parent t.name)) ∧
        ¬ c.DoubleOption) ∧
    (∀ t ∈ schema.types, ¬ t.DoubleOption) ∧
    ∀ (op : Operation) (c : Codec), op.variablesCodec schema.inputs = .ok c →
      ¬ c.DoubleOption := by
  refine ⟨fun op root c hRoot hc => ?_, fun t ht => not_doubleOption_of_knows hSchema (Or.inr ht),
    fun op c hc => Operation.not_doubleOption_variables hSchema hc⟩
  have hKnows : schema.Knows root := Or.inr (Operation.mem_types_of_root hRoot)
  refine ⟨fun parent t hSelects => ?_, Operation.not_doubleOption_response hSchema hKnows hc⟩
  obtain ⟨codec, hCodec, hPlaced⟩ := hSelects.exists_placed hc
  refine ⟨codec, hCodec, hPlaced, ?_⟩
  rcases hCodec.core_cases with ⟨hKeeps, type, new, hType, hNew, rfl⟩ | ⟨hNot, hWhole⟩
  · refine ⟨fun _ => ?_, fun hNot => absurd hKeeps hNot⟩
    obtain ⟨d, hd, sig, hName, hSig, hWrap⟩ :=
      exists_signature hSchema (hSelects.knows (compile_closed hSchema) hKnows) hType
    refine ⟨d, hd, sig, hName, hSig, ?_⟩
    rw [hWrap, sig.wrappers_wrap, hNew.wrappers_eq, List.append_nil]
  · exact ⟨fun hKeeps => absurd hKeeps hNot, fun _ => hWhole⟩

namespace Board

def dueField : Selection := .node none "due" [] [.leaf none "day" []]

def todosField : Selection :=
  .node none "todos" []
    [.leaf none "id" [], dueField, .node none "owner" [] [.leaf none "name" []]]

/-- The due date in the board's list of todos is nullable, as declared. -/
theorem wrappers_declared_due :
    Schema.compile (sortDefinitions definitions) = .ok schema ∧
      operation.root schema = .ok query ∧ operation.selectionCodec query = .ok response ∧
      operation.Selects query todo dueField ∧ Selections.KeepsType todo dueField ∧
      (∃ codec, Selections.fieldCodec todo dueField = .ok codec ∧
        (Selections.fieldPosition todo "due", codec) ∈ response.placed (.on query) ∧
        ∃ d ∈ sortDefinitions definitions, ∃ sig, d.name = "Todo" ∧
          d.signature? "due" = some sig ∧ codec.wrappers = sig.wrappers) ∧
      ¬ response.DoubleOption ∧ (∀ t ∈ schema.types, ¬ t.DoubleOption) ∧
      ∃ c, operation.variablesCodec schema.inputs = .ok c ∧ ¬ c.DoubleOption := by
  have hRoot : operation.root schema = .ok query := by cbv
  have hc : operation.selectionCodec query = .ok response := by cbv
  have hTodos : query.props.lookup todosField.name = some (.array todo) := rfl
  have hScope : Selections.Scope query todosField todo todosField.inner :=
    .object hTodos (by simp [Codec.core, todo]) rfl rfl
  have hSelects : operation.Selects query todo dueField :=
    .nested (List.mem_cons_of_mem _ List.mem_cons_self) hScope List.mem_cons_self
  have hKeeps : Selections.KeepsType todo dueField :=
    Or.inl ⟨.option date, "Date", rfl, rfl⟩
  obtain ⟨v, hv⟩ := exists_eq_ok (x := operation.variablesCodec schema.inputs) (by cbv)
  obtain ⟨hResponse, hTypes, hVariables⟩ := Schema.wrappers_declared compile_definitions
  obtain ⟨hFields, hDouble⟩ := hResponse _ _ _ hRoot hc
  obtain ⟨codec, hCodec, hPlaced, hDeclared, -⟩ := hFields _ _ hSelects
  exact ⟨compile_definitions, hRoot, hc, hSelects, hKeeps,
    ⟨codec, hCodec, hPlaced, hDeclared hKeeps⟩, hDouble, hTypes, v, hv, hVariables _ _ hv⟩

end Board

end GraphCodec
