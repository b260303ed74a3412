import GraphCodec.Proofs.Caching
import GraphCodec.Proofs.Coherence
import GraphCodec.Proofs.References

/-!
# Variables and input fields

A variable and an input field of the same type reference should have the same codec, but their named
types are looked up in different scopes. The named type of a field is a built-in scalar if it is
named like one, and a type of the schema otherwise. The named type of a variable is looked up in one
table, in which the scalars, input objects and enums of the schema shadow the built-in scalars. So
the two agree exactly if the name is not that of a built-in scalar that the schema redefines
(`variablesCodec_agrees_iff`, `Registry.redefined_disagrees`).
-/

set_option autoImplicit false

namespace GraphCodec

/-! ## Input fields -/

/-- The codec of a type reference of a field, by a compiler with an empty memo. -/
def resolveField (table : Table Definition) (t : Signature) : Except CompileError Codec :=
  (Id.run ((t.resolve (referredField table [])).run.run [])).1

/-- The type reference of a field is resolved by a memo. -/
theorem Memo.Open.resolveField_eq {table : Table Definition} {memo : Memo}
    (h : memo.Open table.own []) {t : Signature} {b : Codec} (hb : memo.field? t.base = some b) :
    resolveField table t = .ok (t.wrap b) := by
  have hField : (memoized table.own []).Rel (referredField table [] t.base) (.ok b) := by
    rw [referredField_eq, referringField]
    rcases Memo.field?_eq_some.mp hb with ⟨p, hp, rfl⟩ | ⟨hNone, hb⟩
    · rw [hp]
      exact (memoized table.own []).rel_pure (Codec.primitive p)
    · obtain ⟨e, he, hOk⟩ := h.plainCodec_eq_ok hb
      rw [hNone, referring, he, ← hOk]
      exact memoized_compileDefinition table [] e (Table.mem_own_of_get? he)
  have hResolve := (memoized table.own []).map t.wrap hField
  rw [← Signature.resolve_eq] at hResolve
  obtain ⟨memo', hRun, -⟩ := hResolve [] (.nil _)
  rw [resolveField, hRun]
  rfl

/-- The wrappers of a type reference are injective. -/
theorem Signature.wrap_injective (t : Signature) : Function.Injective t.wrap := by
  induction t with
  | named n nonNull =>
      intro c d h
      cases nonNull with
      | true => exact h
      | false => exact Codec.option.inj h
  | list t nonNull ih =>
      intro c d h
      cases nonNull with
      | true => exact ih (Codec.array.inj h)
      | false => exact ih (Codec.array.inj (Codec.option.inj h))

/-! ## Variables -/

namespace Schema

/-- An input type is defined by the schema, or is a built-in scalar if the schema does not define
the name. -/
theorem inputs_lookup {schema : Schema} {n : String} {b : Codec}
    (h : schema.inputs.lookup n = some b) :
    (n ∈ Assoc.keys schema.ownInputs ∧ b ∈ schema.types ∧ b.name = n) ∨
      (n ∉ Assoc.keys schema.ownInputs ∧ ∃ p, builtins.lookup n = some p ∧ b = .primitive p) := by
  rw [inputs_eq, Assoc.lookup_ofList, List.reverse_append, List.lookup_append] at h
  have hKeys : n ∈ Assoc.keys schema.ownInputs.reverse ↔ n ∈ Assoc.keys schema.ownInputs := by
    simp [Assoc.keys]
  cases hOwn : schema.ownInputs.reverse.lookup n with
  | some c =>
      rw [hOwn, Option.some_or] at h
      obtain rfl := Option.some.inj h
      have hMem := List.mem_reverse.mp (Assoc.mem_of_lookup hOwn)
      obtain ⟨hType, hName⟩ := mem_ownInputs hMem
      exact Or.inl ⟨List.mem_map.mpr ⟨_, hMem, rfl⟩, hType, hName⟩
  | none =>
      rw [hOwn, Option.none_or] at h
      refine Or.inr ⟨fun hn => Assoc.lookup_eq_none.mp hOwn (hKeys.mpr hn), ?_⟩
      have hOnce : ∀ q ∈ builtins, builtins.lookup q.1 = some q.2 := by decide
      obtain ⟨⟨k, p⟩, hq, hPair⟩ :=
        List.mem_map.mp (List.mem_reverse.mp (Assoc.mem_of_lookup h))
      cases hPair
      exact ⟨p, hOnce _ hq, rfl⟩

end Schema

namespace Operation

/-- The codec of a variable whose definitions agree. -/
theorem variablesCodec_lookup {op : Operation} {inputs : List (String × Codec)} {c : Codec}
    (h : op.variablesCodec inputs = .ok c) {v : Field} (hv : v ∈ op.vars)
    (hOnce : ∀ w ∈ op.vars, w.name = v.name → w = v) :
    ∃ b, inputs.lookup v.type.base = some b ∧ c.props.lookup v.name = some (v.type.wrap b) := by
  obtain ⟨name, pairs, rfl, hPairs⟩ := variablesCodec_eq_ok h
  obtain ⟨p, hp, b, hb, rfl⟩ := exists_right_of_forall₂ hPairs hv
  refine ⟨b, hb, ?_⟩
  have hProps : (Codec.input name (Assoc.ofList pairs)).props.lookup v.name =
      pairs.reverse.lookup v.name :=
    Assoc.lookup_ofList pairs v.name
  rw [hProps]
  cases hLook : pairs.reverse.lookup v.name with
  | none =>
      have hNone := Assoc.lookup_eq_none.mp hLook
      exact absurd (List.mem_map.mpr ⟨_, List.mem_reverse.mpr hp, rfl⟩) hNone
  | some t =>
      -- a binding of the variable comes from one of its definitions
      obtain ⟨w, hw, b', hb', hPair⟩ :=
        exists_left_of_forall₂ hPairs (List.mem_reverse.mp (Assoc.mem_of_lookup hLook))
      obtain ⟨hName, rfl⟩ := Prod.mk.inj hPair
      obtain rfl := hOnce w hw hName.symm
      rw [Option.some.inj (hb.symm.trans hb')]

/-- **Variables and input fields of one type reference agree exactly if the schema does not redefine
a built-in scalar** as an input type. -/
theorem variablesCodec_agrees_iff {ds : List Definition} {schema : Schema}
    (hSchema : compileDefinitions ds = .ok schema) {op : Operation} {c : Codec}
    (hc : op.variablesCodec schema.inputs = .ok c) {v : Field} (hv : v ∈ op.vars)
    (hOnce : ∀ w ∈ op.vars, w.name = v.name → w = v) :
    ∃ var field, c.props.lookup v.name = some var ∧
      resolveField (Table.ofList (sortDefinitions ds)) v.type = .ok field ∧
      (var = field ↔
        ¬ (v.type.base ∈ Assoc.keys builtins ∧ v.type.base ∈ Assoc.keys schema.ownInputs)) := by
  obtain ⟨memo, hOpen, hTypes⟩ := compile_open (Order.names_sort_nodup ds) hSchema
  obtain ⟨b, hb, hVar⟩ := variablesCodec_lookup hc hv hOnce
  rcases Schema.inputs_lookup hb with ⟨hOwn, hType, hName⟩ | ⟨hNotOwn, p, hp, rfl⟩
  · obtain ⟨d, -, hMemo⟩ := exists_left_of_forall₂ hTypes hType
    obtain ⟨e, -, -, hCodec⟩ := hOpen.built.hasCodec hMemo
    rw [← hOpen.built.name_eq hMemo, hName] at hMemo
    cases hBuiltin : builtins.lookup v.type.base with
    | none =>
        have hField := (Memo.field?_of_not_builtin hBuiltin).trans hMemo
        refine ⟨_, _, hVar, hOpen.resolveField_eq hField, ?_⟩
        simp [Assoc.lookup_eq_none.mp hBuiltin]
    | some p =>
        have hField : memo.field? v.type.base = some (.primitive p) :=
          Memo.field?_eq_some.mpr (Or.inl ⟨p, hBuiltin, rfl⟩)
        have hKey : v.type.base ∈ Assoc.keys builtins :=
          List.mem_map.mpr ⟨_, Assoc.mem_of_lookup hBuiltin, rfl⟩
        have hNe : v.type.wrap b ≠ v.type.wrap (.primitive p) := by
          intro hSame
          obtain rfl := v.type.wrap_injective hSame
          have hNamed := hCodec.name?_eq
          cases hNamed
        refine ⟨_, _, hVar, hOpen.resolveField_eq hField, ?_⟩
        simp [hNe, hKey, hOwn]
  · have hField : memo.field? v.type.base = some (.primitive p) :=
      Memo.field?_eq_some.mpr (Or.inl ⟨p, hp, rfl⟩)
    refine ⟨_, _, hVar, hOpen.resolveField_eq hField, ?_⟩
    simp [hNotOwn]

end Operation

/-- The variable of the board's operation has the codec of an input field of its type. -/
theorem Board.filter_agrees :
    compileDefinitions definitions = .ok schema ∧
      (∃ c, operation.variablesCodec schema.inputs = .ok c ∧
        ∃ var field, c.props.lookup "filter" = some var ∧
          resolveField (Table.ofList (sortDefinitions definitions)) (.named "Filter" false)
            = .ok field ∧
          (var = field ↔
            ¬ ("Filter" ∈ Assoc.keys builtins ∧ "Filter" ∈ Assoc.keys schema.ownInputs))) ∧
      "Filter" ∉ Assoc.keys builtins := by
  obtain ⟨c, hc⟩ := exists_eq_ok (x := operation.variablesCodec schema.inputs) (by cbv)
  have hOnce : ∀ w ∈ operation.vars, w.name = "filter" → w = ⟨"filter", .named "Filter" false⟩ := by
    decide
  exact ⟨compile_definitions, ⟨c, hc, Operation.variablesCodec_agrees_iff
    (v := ⟨"filter", .named "Filter" false⟩) compile_definitions hc List.mem_cons_self hOnce⟩,
    by decide⟩

/-! ## A redefined built-in scalar -/

namespace Registry

def definitions : List Definition :=
  [⟨"ID", .scalar⟩, ⟨"Key", .input [⟨"id", .named "ID" true⟩]⟩,
    ⟨"Query", .object [⟨"key", .named "Int" false⟩]⟩]

/-- The input field has a built-in scalar, although the schema defines a type of that name. -/
def schema : Schema :=
  ⟨[.scalar "ID", .input "Key" [("id", .primitive .id)],
    .query "Query" [("key", .option (.primitive .int))]]⟩

def find : Operation where
  kind := .query
  name := some "Find"
  vars := [⟨"id", .named "ID" true⟩]
  selections := [.leaf none "key" []]

/-- **A variable and an input field of one type reference differ**: the variable has the type of the
schema. -/
theorem redefined_disagrees :
    compileDefinitions definitions = .ok schema ∧
      find.variablesCodec schema.inputs = .ok (.input "FindQueryVariables" [("id", .scalar "ID")]) ∧
      resolveField (Table.ofList (sortDefinitions definitions)) (.named "ID" true)
        = .ok (.primitive .id) ∧
      Codec.scalar "ID" ≠ .primitive .id := by
  refine ⟨by cbv, by cbv, by cbv, by simp⟩

end Registry

end GraphCodec
