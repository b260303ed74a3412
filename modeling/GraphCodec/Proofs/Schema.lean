import GraphCodec.Proofs.Compiler

/-!
# Compiled schemas are closed

The named types of the fields of a compiled schema and the member types of its unions are types of
the schema or built-in scalars (`Schema.Closed`, `compile_closed`). A name has one codec only.
-/

set_option autoImplicit false

namespace GraphCodec

/-! ## Wrappers -/

namespace Codec

/-- Whether the codec is a list or nullable wrapper. -/
def isWrapper : Codec → Bool
  | array _ | option _ => true
  | _ => false

@[simp] theorem replaceCore_core (c new : Codec) : c.core.replaceCore new = new := by
  fun_induction core c with
  | case1 c ih => exact ih
  | case2 c ih => exact ih
  | case3 c hArray hOption =>
      cases c with
      | array item => exact absurd rfl (hArray item)
      | option item => exact absurd rfl (hOption item)
      | _ => rfl

theorem replaceCore_self (c : Codec) : c.replaceCore c.core = c := by
  fun_induction core c with
  | case1 c ih => rw [replaceCore, ih]
  | case2 c ih => rw [replaceCore, ih]
  | case3 c hArray hOption =>
      rw [replaceCore]
      · exact hArray
      · exact hOption

end Codec

@[simp] theorem Signature.core_wrap (t : Signature) (c : Codec) : (t.wrap c).core = c.core := by
  induction t with
  | named n nonNull => cases nonNull <;> simp [wrap, Codec.core]
  | list t nonNull ih => cases nonNull <;> simp [wrap, Codec.core, ih]

theorem Signature.replaceCore_wrap (t : Signature) {c : Codec} (hc : c.core = c) (new : Codec) :
    (t.wrap c).replaceCore new = t.wrap new := by
  have hReplace : c.replaceCore new = new := by
    rw [← hc]
    exact Codec.replaceCore_core c new
  induction t with
  | named n nonNull => cases nonNull <;> simp [wrap, Codec.replaceCore, hReplace]
  | list t nonNull ih => cases nonNull <;> simp [wrap, Codec.replaceCore, ih]

/-! ## Operands of the codec of a definition -/

/-- Whether a codec is that of an object or input object type. -/
def Codec.isObjectType : Codec → Bool
  | named _ (object _) | input _ _ | query _ _ | mutation _ _ => true
  | _ => false

theorem objectCodec_core (name : String) (props : List (String × Codec)) :
    (objectCodec name props).core = objectCodec name props := by
  unfold objectCodec
  split_ifs <;> rfl

theorem objectCodec_ne_union (name : String) (props : List (String × Codec)) (n : String)
    (ms : List Codec) : objectCodec name props ≠ .named n (.union ms) := by
  unfold objectCodec
  split_ifs <;> simp

theorem objectCodec_isObjectType (name : String) (props : List (String × Codec)) :
    (objectCodec name props).isObjectType = true := by
  unfold objectCodec
  split_ifs <;> rfl

namespace HasCodec

variable {memo : Memo} {d : Definition} {c : Codec}

theorem isObjectType (h : HasCodec memo d c) (hProps : c.props ≠ []) :
    c.isObjectType = true := by
  cases h with
  | object h => exact objectCodec_isObjectType _ _
  | input h => rfl
  | _ => exact absurd rfl hProps

theorem core_eq (h : HasCodec memo d c) : c.core = c := by
  cases h with
  | object h => exact objectCodec_core _ _
  | _ => rfl

/-- Every property is the codec of a memo with the wrappers of a type reference. -/
theorem mem_props (h : HasCodec memo d c) {k : String} {t : Codec} (ht : (k, t) ∈ c.props) :
    ∃ (sig : Signature) (b : Codec), sig.base ∈ d.dependencies ∧
      memo.field? sig.base = some b ∧ t = sig.wrap b := by
  have hFields : ∀ {fields : List Field} {pairs : List (String × Codec)},
      List.Forall₂ (FieldCodec memo) fields pairs → (k, t) ∈ Assoc.ofList pairs →
      ∃ (sig : Signature) (b : Codec), sig.base ∈ fields.map (·.type.base) ∧
        memo.field? sig.base = some b ∧ t = sig.wrap b := by
    intro fields pairs hPairs hMem
    obtain ⟨f, hf, b, hb, hp⟩ :=
      exists_left_of_forall₂ hPairs (Assoc.mem_of_mem_ofList hMem)
    cases hp
    exact ⟨f.type, b, List.mem_map.mpr ⟨f, hf, rfl⟩, hb, rfl⟩
  cases h with
  | object h => exact hFields h (by simpa using ht)
  | input h => exact hFields h ht
  | _ => simp [Codec.props] at ht

theorem mem_union (h : HasCodec memo d c) {n : String} {ms : List Codec}
    (hc : c = .named n (.union ms)) {m : Codec} (hm : m ∈ ms) :
    ∃ k ∈ d.dependencies, memo.lookup k = some m := by
  cases h with
  | object h => exact absurd hc (objectCodec_ne_union _ _ n ms)
  | union h =>
      cases hc
      exact exists_left_of_forall₂ h hm
  | _ => cases hc

end HasCodec

/-! ## Schemas -/

namespace Schema

/-- The named types of a schema: built-in scalars and its own types. -/
def Knows (schema : Schema) (c : Codec) : Prop :=
  (∃ p, c = .primitive p) ∨ c ∈ schema.types

/-- **A closed schema**: the named types of fields and the member types of unions are in the schema,
and names are unique. -/
structure Closed (schema : Schema) : Prop where
  get : ∀ c ∈ schema.types, schema.get? c.name = some c
  core : ∀ c ∈ schema.types, c.core = c
  objects : ∀ c ∈ schema.types, c.props ≠ [] → c.isObjectType = true
  prop : ∀ c ∈ schema.types, ∀ k t, (k, t) ∈ c.props →
    ∃ (sig : Signature) (b : Codec), t = sig.wrap b ∧ schema.Knows b
  member : ∀ n ms, .named n (.union ms) ∈ schema.types → ∀ m ∈ ms, m ∈ schema.types

theorem mem_of_get? {schema : Schema} {n : String} {c : Codec} (h : schema.get? n = some c) :
    c ∈ schema.types := by
  simpa using List.mem_of_find?_eq_some h

theorem name_of_get? {schema : Schema} {n : String} {c : Codec} (h : schema.get? n = some c) :
    c.name = n := by
  simpa using List.find?_some h

theorem Knows.core_eq {schema : Schema} (h : schema.Closed) {c : Codec} (hc : schema.Knows c) :
    c.core = c := by
  rcases hc with ⟨p, rfl⟩ | hc
  · rfl
  · exact h.core c hc

/-- A known type with fields is a type of the schema. -/
theorem Knows.mem_of_lookup {schema : Schema} {c t : Codec} {k : String} (h : schema.Knows c)
    (ht : c.props.lookup k = some t) : c ∈ schema.types := by
  rcases h with ⟨p, rfl⟩ | h
  · simp [Codec.props] at ht
  · exact h

theorem Closed.knows_member {schema : Schema} (h : schema.Closed) {n : String} {ms : List Codec}
    (hUnion : schema.Knows (.named n (.union ms))) {m : Codec} (hm : m ∈ ms) :
    schema.Knows m := by
  rcases hUnion with ⟨p, hp⟩ | hUnion
  · cases hp
  · exact Or.inr (h.member n ms hUnion m hm)

theorem Closed.get_named {schema : Schema} (h : schema.Closed) {n : String} {body : Codec}
    (hc : schema.Knows (.named n body)) : schema.get? n = some (.named n body) := by
  rcases hc with ⟨p, hp⟩ | hc
  · cases hp
  · exact h.get _ hc

/-- The codec of a field is that of a known type with the wrappers of a type reference. -/
theorem Closed.lookup_prop {schema : Schema} (h : schema.Closed) {c t : Codec} {k : String}
    (hc : schema.Knows c) (ht : c.props.lookup k = some t) :
    ∃ sig : Signature, t = sig.wrap t.core ∧ (∀ new, t.replaceCore new = sig.wrap new) ∧
      schema.Knows t.core := by
  obtain ⟨sig, b, rfl, hb⟩ := h.prop c (hc.mem_of_lookup ht) k t (Assoc.mem_of_lookup ht)
  have hCore := hb.core_eq h
  rw [Signature.core_wrap, hCore]
  exact ⟨sig, rfl, sig.replaceCore_wrap hCore, hb⟩

theorem Closed.get?_eq_some {schema : Schema} (h : schema.Closed) {n : String} {c : Codec} :
    schema.get? n = some c ↔ c ∈ schema.types ∧ c.name = n := by
  constructor
  · intro hGet
    exact ⟨mem_of_get? hGet, name_of_get? hGet⟩
  · rintro ⟨hc, rfl⟩
    exact h.get c hc

end Schema

/-! ## Input types -/

/-- An input type under its name. -/
def Codec.input? (c : Codec) : Option (String × Codec) :=
  match c with
  | scalar _ | input _ _ | enum _ _ => some (c.name, c)
  | _ => none

theorem Codec.eq_of_input? {c : Codec} {p : String × Codec} (h : c.input? = some p) :
    p = (c.name, c) := by
  unfold input? at h
  split at h
  · exact (Option.some.inj h).symm
  · exact (Option.some.inj h).symm
  · exact (Option.some.inj h).symm
  · cases h

namespace Schema

/-- The input types that a schema defines. -/
def ownInputs (schema : Schema) : List (String × Codec) := schema.types.filterMap Codec.input?

theorem inputs_eq (schema : Schema) :
    schema.inputs
      = Assoc.ofList (builtins.map (fun (n, p) => (n, .primitive p)) ++ schema.ownInputs) := by
  unfold inputs ownInputs
  congr 3
  funext c
  cases c <;> rfl

theorem mem_ownInputs {schema : Schema} {n : String} {c : Codec} (h : (n, c) ∈ schema.ownInputs) :
    c ∈ schema.types ∧ c.name = n := by
  obtain ⟨t, ht, hInput⟩ := List.mem_filterMap.mp h
  cases Codec.eq_of_input? hInput
  exact ⟨ht, rfl⟩

end Schema

/-! ## Compiled schemas -/

section

variable {ds : List Definition} {memo : Memo} {schema : Schema}

/-- The entries of the memo are the types of the schema. -/
theorem mem_types_iff (hBuilt : memo.Built ds)
    (hTypes : List.Forall₂ (fun d c => List.lookup d.name memo = some c) ds schema.types)
    {c : Codec} : c ∈ schema.types ↔ ∃ n, memo.lookup n = some c := by
  constructor
  · intro hc
    obtain ⟨d, -, hd⟩ := exists_left_of_forall₂ hTypes hc
    exact ⟨d.name, hd⟩
  · rintro ⟨n, hn⟩
    obtain ⟨d, hd, rfl, -⟩ := hBuilt.hasCodec hn
    obtain ⟨c', hc', hLook⟩ := exists_right_of_forall₂ hTypes hd
    rw [hn] at hLook
    cases hLook
    exact hc'

/-- An entry of a built memo is a codec of its own name. -/
theorem Memo.Built.name_eq (hBuilt : memo.Built ds) {n : String} {c : Codec}
    (hc : memo.lookup n = some c) : c.name = n := by
  obtain ⟨d, -, rfl, hCodec⟩ := hBuilt.hasCodec hc
  exact hCodec.name_eq

theorem closed_of_built (hBuilt : memo.Built ds)
    (hTypes : List.Forall₂ (fun d c => List.lookup d.name memo = some c) ds schema.types) :
    schema.Closed := by
  have hMem := fun {c : Codec} => mem_types_iff (c := c) hBuilt hTypes
  refine ⟨?_, ?_, ?_, ?_, ?_⟩
  · intro c hc
    cases hGet : schema.get? c.name with
    | none =>
        rw [Schema.get?, List.find?_eq_none] at hGet
        exact absurd (hGet c (by simpa using hc)) (by simp)
    | some c' =>
        obtain ⟨n, hn⟩ := hMem.mp hc
        obtain ⟨n', hn'⟩ := hMem.mp (Schema.mem_of_get? hGet)
        have hName := Schema.name_of_get? hGet
        rw [hBuilt.name_eq hn, hBuilt.name_eq hn'] at hName
        rw [hName, hn] at hn'
        cases hn'
        rfl
  · intro c hc
    obtain ⟨n, hn⟩ := hMem.mp hc
    obtain ⟨d, -, -, hCodec⟩ := hBuilt.hasCodec hn
    exact hCodec.core_eq
  · intro c hc hProps
    obtain ⟨n, hn⟩ := hMem.mp hc
    obtain ⟨d, -, -, hCodec⟩ := hBuilt.hasCodec hn
    exact hCodec.isObjectType hProps
  · intro c hc k t ht
    obtain ⟨n, hn⟩ := hMem.mp hc
    obtain ⟨d, -, -, hCodec⟩ := hBuilt.hasCodec hn
    obtain ⟨sig, b, -, hb, rfl⟩ := hCodec.mem_props ht
    refine ⟨sig, b, rfl, ?_⟩
    rcases Memo.field?_eq_some.mp hb with ⟨p, -, rfl⟩ | ⟨-, hb⟩
    · exact Or.inl ⟨p, rfl⟩
    · exact Or.inr (hMem.mpr ⟨_, hb⟩)
  · intro n ms hc m hm
    obtain ⟨k, hk⟩ := hMem.mp hc
    obtain ⟨d, -, -, hCodec⟩ := hBuilt.hasCodec hk
    obtain ⟨k', -, hk'⟩ := hCodec.mem_union rfl hm
    exact hMem.mpr ⟨k', hk'⟩

end

/-- **Compiled schemas are closed.** -/
theorem compile_closed {ds : List Definition} {schema : Schema}
    (h : Schema.compile ds = .ok schema) : schema.Closed := by
  obtain ⟨memo, hBuilt, hTypes⟩ := compile_built h
  exact closed_of_built hBuilt hTypes

end GraphCodec
