import GraphCodec.Proofs.Selection

/-!
# Selections are sound

The codec of a selection accepts every value that the codec of the field in the schema accepts, for
it only checks less (`selectionCodec_admits_declared`). Codecs are given a semantics first: the sets
of JSON values that their expressions accept.
-/

set_option autoImplicit false

namespace GraphCodec

/-! ## Values -/

/-- JSON values. -/
inductive Value where
  | null
  | bool (b : Bool)
  | number (n : Rat)
  | string (s : String)
  | array (items : List Value)
  | object (fields : List (String × Value))

/-- The value of a property; a missing property is `null`. -/
def Value.prop (fields : List (String × Value)) (key : String) : Value :=
  (fields.lookup key).getD .null

/-- The values of a built-in scalar. -/
inductive Primitive.Accepts : Primitive → Value → Prop
  | string (s : String) : Accepts .string (.string s)
  | id (s : String) : Accepts .id (.string s)
  | int (n : Rat) : Accepts .int (.number n)
  | float (n : Rat) : Accepts .float (.number n)
  | boolean (b : Bool) : Accepts .boolean (.bool b)

/-- The properties of the `t.type` of a codec. That of an object type includes `__typename`. -/
def Codec.emitted? : Codec → Option (List (String × Codec))
  | named n (object ps) => some (("__typename", literal n) :: ps)
  | object ps | input _ ps | query _ ps | mutation _ ps => some ps
  | _ => none

namespace Schema

mutual

/-- **The values that the expression of a codec accepts.** -/
inductive Accepts (schema : Schema) : Codec → Value → Prop
  | primitive {p : Primitive} {v : Value} (h : p.Accepts v) : Accepts schema (.primitive p) v
  | scalar (n : String) (v : Value) : Accepts schema (.scalar n) v
  | enum {n s : String} {cases : List String} (h : s ∈ cases) :
      Accepts schema (.enum n cases) (.string s)
  | literal (s : String) : Accepts schema (.literal s) (.string s)
  /-- `t.type` checks its properties and ignores others. -/
  | object {c : Codec} {ps : List (String × Codec)} {fields : List (String × Value)}
      (hProps : c.emitted? = some ps) (h : ∀ p ∈ ps, Admits schema p.2 (Value.prop fields p.1)) :
      Accepts schema c (.object fields)
  | named {n : String} {ts : List Codec} {v : Value} (h : Accepts schema (.union ts) v) :
      Accepts schema (.named n (.union ts)) v
  | union {ts : List Codec} {t : Codec} {v : Value} (ht : t ∈ ts) (h : Admits schema t v) :
      Accepts schema (.union ts) v
  | array {c : Codec} {items : List Value} (h : ∀ v ∈ items, Admits schema c v) :
      Accepts schema (.array c) (.array items)
  | null (c : Codec) : Accepts schema (.option c) .null
  | present {c : Codec} {v : Value} (h : Admits schema c v) : Accepts schema (.option c) v
  | intersection {ts : List Codec} {v : Value} (h : ∀ t ∈ ts, Admits schema t v) :
      Accepts schema (.intersection ts) v
  /-- `Pick` checks the picked properties of the `t.type` of an exported codec. -/
  | pick {type : String} {names : List String} {c : Codec} {ps : List (String × Codec)}
      {fields : List (String × Value)} (hGet : schema.get? type = some c)
      (hProps : c.emitted? = some ps)
      (h : ∀ p ∈ ps, p.1 ∈ names → Admits schema p.2 (Value.prop fields p.1)) :
      Accepts schema (.pick type names) (.object fields)

/-- The values accepted by an operand: an identifier denotes the codec that the schema exports under
it. -/
inductive Admits (schema : Schema) : Codec → Value → Prop
  | written {c : Codec} {v : Value} (hName : c.name = "") (h : Accepts schema c v) :
      Admits schema c v
  | referred {c d : Codec} {v : Value} (hName : c.name ≠ "") (hGet : schema.get? c.name = some d)
      (h : Accepts schema d v) : Admits schema c v

end

variable {schema : Schema}

theorem admits_iff_of_name {c : Codec} (hName : c.name = "") {v : Value} :
    schema.Admits c v ↔ schema.Accepts c v := by
  constructor
  · intro h
    cases h with
    | written _ h => exact h
    | referred hne => exact absurd hName hne
  · exact .written hName

/-- In a closed schema the identifier of a codec denotes this codec. -/
theorem Closed.admits_iff (hClosed : schema.Closed) {c : Codec} (hc : schema.Knows c) {v : Value} :
    schema.Admits c v ↔ schema.Accepts c v := by
  rcases hc with ⟨p, rfl⟩ | hc
  · exact admits_iff_of_name rfl
  · constructor
    · intro h
      cases h with
      | written _ h => exact h
      | referred _ hGet h =>
          obtain rfl := Option.some.inj ((hClosed.get c hc).symm.trans hGet)
          exact h
    · intro h
      by_cases hName : c.name = ""
      · exact .written hName h
      · exact .referred hName (hClosed.get c hc) h

theorem admits_array {c : Codec} {v : Value} :
    schema.Admits (.array c) v ↔ ∃ items, v = .array items ∧ ∀ x ∈ items, schema.Admits c x := by
  rw [admits_iff_of_name rfl]
  constructor
  · intro h
    cases h with
    | array h => exact ⟨_, rfl, h⟩
    | object hProps => cases hProps
  · rintro ⟨items, rfl, h⟩
    exact .array h

theorem admits_option {c : Codec} {v : Value} :
    schema.Admits (.option c) v ↔ v = .null ∨ schema.Admits c v := by
  rw [admits_iff_of_name rfl]
  constructor
  · intro h
    cases h with
    | null => exact Or.inl rfl
    | present h => exact Or.inr h
    | object hProps => cases hProps
  · rintro (rfl | h)
    · exact .null c
    · exact .present h

theorem admits_literal {s : String} {v : Value} :
    schema.Admits (.literal s) v ↔ v = .string s := by
  rw [admits_iff_of_name rfl]
  constructor
  · intro h
    cases h with
    | literal => rfl
    | object hProps => cases hProps
  · rintro rfl
    exact .literal s

/-- List and nullable wrappers are monotone. -/
theorem admits_wrap_mono {b b' : Codec} (h : ∀ v, schema.Admits b v → schema.Admits b' v)
    (sig : Signature) {v : Value} (hv : schema.Admits (sig.wrap b) v) :
    schema.Admits (sig.wrap b') v := by
  have hOption : ∀ {c c' : Codec}, (∀ v, schema.Admits c v → schema.Admits c' v) →
      ∀ v, schema.Admits (.option c) v → schema.Admits (.option c') v := by
    intro c c' hc v hv
    rcases admits_option.mp hv with hNull | hv
    · exact admits_option.mpr (Or.inl hNull)
    · exact admits_option.mpr (Or.inr (hc v hv))
  have hArray : ∀ {c c' : Codec}, (∀ v, schema.Admits c v → schema.Admits c' v) →
      ∀ v, schema.Admits (.array c) v → schema.Admits (.array c') v := by
    intro c c' hc v hv
    obtain ⟨items, rfl, hItems⟩ := admits_array.mp hv
    exact admits_array.mpr ⟨items, rfl, fun x hx => hc x (hItems x hx)⟩
  induction sig generalizing v with
  | named n nonNull =>
      cases nonNull with
      | true => exact h v hv
      | false => exact hOption h v hv
  | list sig nonNull ih =>
      cases nonNull with
      | true => exact hArray (fun _ => ih) v hv
      | false => exact hOption (hArray fun _ => ih) v hv

/-- An object type accepts the objects with its `__typename` and its properties. -/
theorem accepts_named_object {n : String} {ps : List (String × Codec)} {v : Value} :
    schema.Accepts (.named n (.object ps)) v ↔ ∃ fields, v = .object fields ∧
      Value.prop fields "__typename" = .string n ∧
      ∀ p ∈ ps, schema.Admits p.2 (Value.prop fields p.1) := by
  constructor
  · intro h
    cases h with
    | object hProps h =>
        cases hProps
        exact ⟨_, rfl, admits_literal.mp (h _ List.mem_cons_self),
          fun p hp => h p (List.mem_cons_of_mem _ hp)⟩
  · rintro ⟨fields, rfl, hName, hProps⟩
    refine .object rfl fun p hp => ?_
    rcases List.mem_cons.mp hp with rfl | hp
    · exact admits_literal.mpr hName
    · exact hProps p hp

theorem accepts_named_union {n : String} {ts : List Codec} {v : Value} :
    schema.Accepts (.named n (.union ts)) v ↔ ∃ t ∈ ts, schema.Admits t v := by
  constructor
  · intro h
    cases h with
    | named h =>
        cases h with
        | union ht h => exact ⟨_, ht, h⟩
        | object hProps => cases hProps
    | object hProps => cases hProps
  · rintro ⟨t, ht, h⟩
    exact .named (.union ht h)

end Schema

/-! ## Narrowable fields -/

/-- Whether the selection is the meta-field `__typename`. -/
def Selection.isTypename : Selection → Bool
  | leaf _ name _ => name = "__typename"
  | _ => false

namespace Selections

/-- **Narrowable fields**, with all fields below them: custom scalars, object types with a nonempty
selection, and unions of object types with inline fragments. -/
inductive Narrowable : Codec → Selection → Prop
  | scalar {parent type : Codec} {s : Selection} {n : String}
      (hType : parent.props.lookup s.name = some type) (hCore : type.core = .scalar n) :
      Narrowable parent s
  | object {parent type : Codec} {s : Selection} {n : String} {ps : List (String × Codec)}
      (hType : parent.props.lookup s.name = some type) (hCore : type.core = .named n (.object ps))
      (hSome : ∃ t ∈ s.inner, t.isTypename = false)
      (hNested : ∀ t ∈ nodes s.inner, Narrowable type.core t) : Narrowable parent s
  | union {parent type : Codec} {s : Selection} {n : String} {members : List Codec}
      (hType : parent.props.lookup s.name = some type)
      (hCore : type.core = .named n (.union members))
      (hMembers : ∀ m ∈ members, ∃ k ps, m = .named k (.object ps))
      (hSome : conditions s.inner ≠ [])
      (hNested : ∀ m ∈ members, ∀ inner, fragment? m.name s.inner = some inner →
        ∀ t ∈ nodes inner, Narrowable m t) : Narrowable parent s

/-- A selection set without inline fragments selects nothing only if it has just `__typename`s. -/
theorem isTypename_of_isBare {selections : List Selection} (hCheck : check selections = .ok ())
    (hNone : conditions selections = []) (hBare : isBare selections = true) {t : Selection}
    (ht : t ∈ selections) : t.isTypename = true := by
  have hField := isField_of_check hCheck hNone ht
  simp only [isBare, Bool.and_eq_true, decide_eq_true_eq, Bool.not_eq_true'] at hBare
  cases t with
  | leaf shown name directives =>
      have hLeaf := List.filterMap_eq_nil_iff.mp hBare.1 _ ht
      simpa [Selection.leaf?, Selection.isTypename] using hLeaf
  | node shown name directives inner =>
      have hNode := List.any_eq_false.mp hBare.2 _ ht
      exact absurd rfl hNode
  | _ => cases hField

variable {schema : Schema}

/-- **A selection set on an object type accepts what the type accepts**, if its nested fields do. -/
theorem BodyCodec.admits {field : Codec → Selection → Codec → Prop} {n : String}
    {ps : List (String × Codec)} {body : Codec} {selections : List Selection}
    (h : BodyCodec field (.named n (.object ps)) selections body)
    (hGet : schema.get? n = some (.named n (.object ps)))
    (hField : ∀ t ∈ nodes selections, ∀ d, field (.named n (.object ps)) t d →
      ∃ declared, ps.lookup t.name = some declared ∧
        ∀ v, schema.Admits declared v → schema.Admits d v)
    {v : Value} (hv : schema.Accepts (.named n (.object ps)) v) : schema.Admits body v := by
  obtain ⟨fields, rfl, hName, hProps⟩ := Schema.accepts_named_object.mp hv
  obtain ⟨nested, hNested, rfl⟩ := h
  refine .written rfl (.intersection fun part hPart => ?_)
  rcases List.mem_cons.mp hPart with rfl | hPart
  · refine .written rfl (.object rfl fun p hp => ?_)
    obtain rfl := List.mem_singleton.mp hp
    exact Schema.admits_literal.mpr hName
  rcases List.mem_cons.mp hPart with rfl | hPart
  · refine .written rfl (.pick hGet rfl fun p hp _ => ?_)
    rcases List.mem_cons.mp hp with rfl | hp
    · exact Schema.admits_literal.mpr hName
    · exact hProps p hp
  · obtain ⟨t, ht, d, hd, rfl⟩ := exists_left_of_forall₂ hNested hPart
    obtain ⟨declared, hDeclared, hNarrow⟩ := hField t ht d hd
    refine .written rfl (.object rfl fun p hp => ?_)
    obtain rfl := List.mem_singleton.mp hp
    exact hNarrow _ (hProps _ (Assoc.mem_of_lookup hDeclared))

/-- The codec of the selection accepts every value that the codec of the field in the schema
accepts. -/
def Narrows (schema : Schema) (parent : Codec) (s : Selection) (c : Codec) : Prop :=
  ∃ declared, parent.props.lookup s.name = some declared ∧
    ∀ v, schema.Admits declared v → schema.Admits c v

/-- **Narrowable fields narrow.** -/
theorem Compiles.narrows (hClosed : schema.Closed) {parent c : Codec} {s : Selection}
    (h : Compiles parent s c) (hParent : schema.Knows parent) (hNarrow : Narrowable parent s) :
    Narrows schema parent s c := by
  refine Compiles.induct (motive := fun parent s c => schema.Knows parent →
    Narrowable parent s → Narrows schema parent s c) ?_ h hParent hNarrow
  clear h hParent hNarrow
  intro parent s c hField hExit hParent hNarrow
  cases hExit with
  | scalar hType hCheck hCore => exact ⟨c, hType, fun v hv => hv⟩
  | whole hType hCheck hCore hNone hBare =>
      cases hNarrow with
      | scalar hType' hCore' =>
          obtain rfl := Option.some.inj (hType.symm.trans hType')
          exact absurd hCore' (hCore _)
      | object hType' hCore' hSome =>
          obtain ⟨t, ht, hNot⟩ := hSome
          rw [isTypename_of_isBare hCheck hNone hBare ht] at hNot
          cases hNot
      | union hType' hCore' hMembers hSome => exact absurd hNone hSome
  | @object type body hType hCheck hCore hNone hBare hBody =>
      cases hNarrow with
      | scalar hType' hCore' =>
          obtain rfl := Option.some.inj (hType.symm.trans hType')
          exact absurd hCore' (hCore _)
      | union hType' hCore' hMembers hSome => exact absurd hNone hSome
      | @object _ _ _ n ps hType' hCore' hSome hNested =>
          obtain rfl := Option.some.inj (hType.symm.trans hType')
          obtain ⟨sig, hSig, hReplace, hKnows⟩ := hClosed.lookup_prop hParent hType
          refine ⟨type, hType, fun v hv => ?_⟩
          -- the wrappers are the same on both sides, so only the cores are compared
          rw [hReplace]
          rw [hSig] at hv
          refine Schema.admits_wrap_mono (fun v hv => ?_) sig hv
          rw [hClosed.admits_iff hKnows] at hv
          rw [hCore'] at hKnows hBody hv hNested
          exact hBody.admits (hClosed.get_named hKnows)
            (fun t ht d hd => hd.2 hKnows (hNested t ht)) hv
  | @union type union members codecs hType hCheck hCore hSome hCover hMembers =>
      cases hNarrow with
      | scalar hType' hCore' =>
          obtain rfl := Option.some.inj (hType.symm.trans hType')
          cases hCore.symm.trans hCore'
      | object hType' hCore' =>
          obtain rfl := Option.some.inj (hType.symm.trans hType')
          cases hCore.symm.trans hCore'
      | @union _ _ _ n members' hType' hCore' hObjects hSome' hNested =>
          obtain rfl := Option.some.inj (hType.symm.trans hType')
          obtain ⟨rfl, rfl⟩ : union = n ∧ members = members' := by
            simpa using hCore.symm.trans hCore'
          obtain ⟨sig, hSig, hReplace, hKnows⟩ := hClosed.lookup_prop hParent hType
          refine ⟨type, hType, fun v hv => ?_⟩
          rw [hReplace]
          rw [hSig] at hv
          refine Schema.admits_wrap_mono (fun v hv => ?_) sig hv
          rw [hClosed.admits_iff hKnows, hCore] at hv
          rw [hCore] at hKnows
          -- the member type that accepts the value has an inline fragment
          obtain ⟨m, hm, hv⟩ := Schema.accepts_named_union.mp hv
          obtain ⟨d, hd, inner, hInner, -, hBody⟩ := exists_right_of_forall₂ hMembers hm
          obtain ⟨k, ps, rfl⟩ := hObjects m hm
          have hMember := hClosed.knows_member hKnows hm
          rw [hClosed.admits_iff hMember] at hv
          refine .written rfl (.union hd (hBody.admits (hClosed.get_named hMember) ?_ hv))
          exact fun t ht d hd => hd.2 hMember (hNested _ hm inner hInner t ht)

end Selections

/-- **Selections are sound.** Each root field of a response is a field of the root type, and every
value that the codec of the field in the schema accepts is accepted by the codec of the
selection. -/
theorem Operation.selectionCodec_admits_declared {ds : List Definition} {schema : Schema}
    (hSchema : Schema.compile ds = .ok schema) {op : Operation} {root c : Codec}
    (hRoot : op.root schema = .ok root) (hc : op.selectionCodec root = .ok c)
    (hNarrow : ∀ s ∈ op.selections, Selections.Narrowable root s) :
    List.Forall₂ (fun s p => p.1 = s.name ∧ ∃ declared, root.props.lookup p.1 = some declared ∧
      ∀ v, schema.Admits declared v → schema.Admits p.2 v) op.selections c.props := by
  have hClosed := compile_closed hSchema
  have hKnows : schema.Knows root := Or.inr (Operation.mem_types_of_root hRoot)
  refine ((List.forall₂_and_left _ _).mpr ⟨hNarrow, Operation.forall₂_rootProp hc⟩).imp ?_
  rintro s p ⟨hs, hName, hCompiles⟩
  rw [hName]
  exact ⟨rfl, hCompiles.narrows hClosed hKnows hs⟩

namespace Board

open Selections

theorem operation_narrowable : ∀ s ∈ operation.selections, Narrowable query s := by
  intro s hs
  simp only [operation, List.mem_cons, List.not_mem_nil, or_false] at hs
  rcases hs with rfl | rfl | rfl
  · exact .scalar rfl rfl
  · refine .object rfl rfl ⟨_, List.mem_cons_self, rfl⟩ fun t ht => ?_
    simp only [nodes, Selection.inner, List.filter, Selection.isNode, List.mem_cons,
      List.not_mem_nil, or_false] at ht
    rcases ht with rfl | rfl
    · exact .scalar rfl rfl
    · exact .object rfl rfl ⟨_, List.mem_cons_self, rfl⟩ fun t ht => by cases ht
  · refine .union rfl rfl ?_ (by decide) ?_
    · intro m hm
      simp only [List.mem_cons, List.not_mem_nil, or_false] at hm
      rcases hm with rfl | rfl
      · exact ⟨_, _, rfl⟩
      · exact ⟨_, _, rfl⟩
    · intro m hm inner hInner t ht
      simp only [List.mem_cons, List.not_mem_nil, or_false] at hm
      rcases hm with rfl | rfl
      · obtain rfl := Option.some.inj hInner
        cases ht
      · obtain rfl := Option.some.inj hInner
        cases ht

/-- One entry of the board. It has no date. -/
def entry : Value :=
  .object [("__typename", .string "Todo"), ("id", .string "7"),
    ("owner", .object [("__typename", .string "User"), ("name", .string "Ada")])]

theorem admits_entry : schema.Admits todo entry := by
  have hClosed := compile_closed compile_definitions
  have hUser : schema.Knows user := Or.inr (by simp [schema])
  have hTodo : schema.Knows todo := Or.inr (by simp [schema])
  rw [hClosed.admits_iff hTodo]
  refine Schema.accepts_named_object.mpr ⟨_, rfl, rfl, fun p hp => ?_⟩
  simp only [List.mem_cons, List.not_mem_nil, or_false] at hp
  rcases hp with rfl | rfl | rfl
  · exact .written rfl (.primitive (.id "7"))
  · exact Schema.admits_option.mpr (Or.inl rfl)
  · rw [hClosed.admits_iff hUser]
    refine Schema.accepts_named_object.mpr ⟨_, rfl, rfl, fun p hp => ?_⟩
    obtain rfl := List.mem_singleton.mp hp
    exact .written rfl (.primitive (.string "Ada"))

/-- The operation accepts a value that the schema accepts. -/
theorem operation_admits_declared :
    Schema.compile (sortDefinitions definitions) = .ok schema ∧
      operation.root schema = .ok query ∧
      (∀ s ∈ operation.selections, Narrowable query s) ∧
      query.props.lookup "todos" = some (.array todo) ∧
      schema.Admits (.array todo) (.array [entry]) ∧
      ∃ c, operation.selectionCodec query = .ok c ∧
        List.Forall₂ (fun s p => p.1 = s.name ∧
          ∃ declared, query.props.lookup p.1 = some declared ∧
            ∀ v, schema.Admits declared v → schema.Admits p.2 v) operation.selections c.props := by
  have hRoot : operation.root schema = .ok query := by cbv
  have hEntries : schema.Admits (.array todo) (.array [entry]) := by
    refine Schema.admits_array.mpr ⟨_, rfl, fun v hv => ?_⟩
    obtain rfl := List.mem_singleton.mp hv
    exact admits_entry
  obtain ⟨c, hc⟩ := exists_eq_ok (x := operation.selectionCodec query) (by cbv)
  exact ⟨compile_definitions, hRoot, operation_narrowable, rfl, hEntries, c, hc,
    Operation.selectionCodec_admits_declared compile_definitions hRoot hc operation_narrowable⟩

end Board

end GraphCodec
