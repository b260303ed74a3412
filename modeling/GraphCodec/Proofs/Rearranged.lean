import GraphCodec.Proofs.Faults
import GraphCodec.Proofs.References

/-!
# The order of definitions does not matter

Permuting definitions changes the search that sorts them, the order in which they are compiled, and
where a cycle is entered. None of it is observable in a module, but for the order of its types.
Whether definitions compile depends on the set of definitions (`WellFormed`), and so does the codec
of each name: two memos that were built from the same definitions have the same entries
(`Memo.Built.extends_of_subset`). Operations look codecs up by name, so they do not depend on the
order at all (`render_order_independent`).
-/

set_option autoImplicit false

namespace GraphCodec

open Relation

/-! ## Distinct names -/

/-- Sorting definitions of distinct names is a permutation. -/
theorem Order.sort_perm {α : Type} [Node α] {nodes : List α} (h : (names nodes).Nodup) :
    (sort nodes).Perm nodes := by
  rw [List.perm_ext_iff_of_nodup (names_sort_nodup nodes).of_map h.of_map]
  intro a
  constructor
  · exact mem_of_mem_sort
  · intro ha
    obtain ⟨b, hb, hName⟩ := mem_names.mp (mem_names_sort.mpr (mem_names.mpr ⟨a, ha, rfl⟩))
    obtain rfl : b = a := List.inj_on_of_nodup_map h (mem_of_mem_sort hb) ha hName
    exact hb

theorem Order.names_perm {α : Type} [Node α] {l l' : List α} (h : l.Perm l') :
    (names l).Perm (names l') :=
  h.map Node.name

theorem Order.names_nodup_of_perm {α : Type} [Node α] {l l' : List α} (hPerm : l.Perm l')
    (h : (names l).Nodup) : (names l').Nodup :=
  (names_perm hPerm).nodup_iff.mp h

/-- Well-formedness is invariant under permutation. -/
theorem WellFormed.perm {ds ds' : List Definition} (hPerm : ds.Perm ds') (h : WellFormed ds) :
    WellFormed ds' := by
  have hMem : ∀ d ∈ ds', d ∈ ds := fun d hd => hPerm.mem_iff.mpr hd
  have hNames : ∀ n ∈ Order.names ds, n ∈ Order.names ds' := fun n hn =>
    (Order.names_perm hPerm).mem_iff.mp hn
  refine ⟨fun d hd => h.kinds d (hMem d hd), ?_, ?_, ?_⟩
  · intro d hd n hn
    exact (h.fields d (hMem d hd) n hn).imp_right (hNames n)
  · intro d hd n hn
    exact hNames n (h.members d (hMem d hd) n hn)
  · intro n hCycle
    refine h.acyclic n (hCycle.lift id ?_)
    rintro m k ⟨d, hd, hName, hk⟩
    exact ⟨d, hMem d hd, hName, hk⟩

/-! ## Codecs do not depend on the order -/

theorem FieldCodec.rightUnique (memo : Memo) : Relator.RightUnique (FieldCodec memo) := by
  rintro f p q ⟨b, hb, rfl⟩ ⟨c, hc, rfl⟩
  rw [Option.some.inj (hb.symm.trans hc)]

/-- The codec of a definition by a memo is unique. -/
theorem HasCodec.unique {memo : Memo} {d : Definition} {c c' : Codec} (h : HasCodec memo d c)
    (h' : HasCodec memo d c') : c = c' := by
  cases h with
  | object h =>
      cases h' with
      | object h' => rw [(FieldCodec.rightUnique memo).forall₂ h h']
  | input h =>
      cases h' with
      | input h' => rw [(FieldCodec.rightUnique memo).forall₂ h h']
  | union h =>
      cases h' with
      | union h' =>
          have hUnique : Relator.RightUnique fun m c => memo.lookup m = some c :=
            fun _ _ _ hb hc => Option.some.inj (hb.symm.trans hc)
          rw [hUnique.forall₂ h h']
  | enum name values =>
      cases h'
      rfl
  | scalar name =>
      cases h'
      rfl

/-- **A memo has the entries of any other memo of the same definitions.** By induction on the
entries: the references of a definition are older, so the other memo has the same codecs for
them. -/
theorem Memo.Built.extends_of_subset {ds ds' : List Definition} {memo memo' : Memo}
    {types' : List Codec} (h : memo.Built ds) (h' : memo'.Built ds')
    (hTypes' : List.Forall₂ (fun d c => memo'.lookup d.name = some c) ds' types')
    (hDistinct' : (Order.names ds').Nodup) (hSub : ∀ d ∈ ds, d ∈ ds') : memo.Extends memo' := by
  induction h with
  | nil =>
      intro n c hc
      cases hc
  | @cons memo d c h hd hNew hc ih =>
      intro n e he
      rw [List.lookup_cons] at he
      by_cases hn : n = d.name
      · subst hn
        obtain rfl : c = e := by simpa using he
        obtain ⟨c', hc', hCodec'⟩ := h'.hasCodec_of_mem hTypes' hDistinct' (hSub d hd)
        rw [(hc.mono ih).unique hCodec']
        exact hc'
      · have hn' : (n == d.name) = false := by simpa using hn
        rw [hn'] at he
        exact ih n e he

/-- Memos that extend each other have the same lookups. -/
theorem Memo.Extends.lookup_eq {memo memo' : Memo} (h : memo.Extends memo')
    (h' : memo'.Extends memo) (n : String) : memo.lookup n = memo'.lookup n := by
  ext c
  exact ⟨h n c, h' n c⟩

/-! ## Schemas with the same types -/

/-- Permuted records have the same lookups, if each key has one value. -/
theorem Assoc.lookup_eq_of_perm {α : Type} {l l' : List (String × α)} (hPerm : l.Perm l')
    (hOne : ∀ k v w, (k, v) ∈ l → (k, w) ∈ l → v = w) (key : String) :
    l.lookup key = l'.lookup key := by
  have hKeys : key ∈ keys l ↔ key ∈ keys l' := (hPerm.map Prod.fst).mem_iff
  cases hLook : l.lookup key with
  | none =>
      rw [lookup_eq_none, hKeys, ← lookup_eq_none] at hLook
      exact hLook.symm
  | some v =>
      cases hLook' : l'.lookup key with
      | none =>
          rw [lookup_eq_none, ← hKeys, ← lookup_eq_none, hLook] at hLook'
          cases hLook'
      | some w =>
          rw [hOne key v w (mem_of_lookup hLook) (hPerm.mem_iff.mpr (mem_of_lookup hLook'))]

namespace Schema

variable {schema schema' : Schema}

theorem Closed.get?_eq_of_perm (h : schema.Closed) (h' : schema'.Closed)
    (hPerm : schema.types.Perm schema'.types) (n : String) : schema.get? n = schema'.get? n := by
  ext c
  rw [h.get?_eq_some, h'.get?_eq_some, hPerm.mem_iff]

/-- Permuted schemas have the same input types. In both, the types of the schema shadow the built-in
scalars. -/
theorem Closed.inputs_lookup_eq_of_perm (h : schema.Closed)
    (hPerm : schema.types.Perm schema'.types) (n : String) :
    schema.inputs.lookup n = schema'.inputs.lookup n := by
  have hOwn : schema.ownInputs.reverse.Perm schema'.ownInputs.reverse :=
    (List.reverse_perm _).trans ((hPerm.filterMap _).trans (List.reverse_perm _).symm)
  have hOne : ∀ k v w, (k, v) ∈ schema.ownInputs.reverse → (k, w) ∈ schema.ownInputs.reverse →
      v = w := by
    intro k v w hv hw
    have hv := h.get?_eq_some.mpr (mem_ownInputs (List.mem_reverse.mp hv))
    have hw := h.get?_eq_some.mpr (mem_ownInputs (List.mem_reverse.mp hw))
    exact Option.some.inj (hv.symm.trans hw)
  rw [inputs_eq, inputs_eq, Assoc.lookup_ofList, Assoc.lookup_ofList, List.reverse_append,
    List.reverse_append, List.lookup_append, List.lookup_append,
    Assoc.lookup_eq_of_perm hOwn hOne]

end Schema

section

variable {ds ds' : List Definition} {memo memo' : Memo} {schema schema' : Schema}

theorem names_types (hBuilt : memo.Built ds) {types : List Codec}
    (hTypes : List.Forall₂ (fun d c => memo.lookup d.name = some c) ds types) :
    types.map Codec.name = Order.names ds := by
  rw [Order.names, ← List.forall₂_eq_eq_eq, List.forall₂_map_left_iff, List.forall₂_map_right_iff]
  exact hTypes.flip.imp fun c d hc => hBuilt.name_eq hc

theorem nodup_types (hBuilt : memo.Built ds) {types : List Codec}
    (hTypes : List.Forall₂ (fun d c => memo.lookup d.name = some c) ds types)
    (hDistinct : (Order.names ds).Nodup) : types.Nodup := by
  apply List.Nodup.of_map Codec.name
  rw [names_types hBuilt hTypes]
  exact hDistinct

/-- **Permuted definitions compile to the same types, permuted.** -/
theorem types_perm (hDistinct : (Order.names ds).Nodup) (hPerm : ds.Perm ds')
    (h : Schema.compile ds = .ok schema) (h' : Schema.compile ds' = .ok schema') :
    schema.types.Perm schema'.types := by
  have hDistinct' := Order.names_nodup_of_perm hPerm hDistinct
  obtain ⟨memo, hBuilt, hTypes⟩ := compile_built h
  obtain ⟨memo', hBuilt', hTypes'⟩ := compile_built h'
  have hExt := hBuilt.extends_of_subset hBuilt' hTypes' hDistinct' fun d hd => hPerm.mem_iff.mp hd
  have hExt' := hBuilt'.extends_of_subset hBuilt hTypes hDistinct fun d hd => hPerm.mem_iff.mpr hd
  rw [List.perm_ext_iff_of_nodup (nodup_types hBuilt hTypes hDistinct)
    (nodup_types hBuilt' hTypes' hDistinct')]
  intro c
  rw [mem_types_iff hBuilt hTypes, mem_types_iff hBuilt' hTypes']
  simp only [hExt.lookup_eq hExt']

end

/-! ## Operations and modules -/

namespace Operation

/-- The codec of the variables depends only on lookups of input types. -/
theorem variablesCodec_congr (op : Operation) {inputs inputs' : List (String × Codec)}
    (h : ∀ n, inputs.lookup n = inputs'.lookup n) :
    op.variablesCodec inputs = op.variablesCodec inputs' := by
  unfold variablesCodec
  simp only [h]

/-- The root type of an operation depends only on lookups in the schema. -/
theorem root_congr (op : Operation) {schema schema' : Schema}
    (h : ∀ n, schema.get? n = schema'.get? n) : op.root schema = op.root schema' := by
  unfold root Schema.query? Schema.mutation?
  simp only [h]

/-- **Operations are invariant under permutation of the schema.** They compile to the same codecs,
or fail with the same error. -/
theorem codecs_eq_of_perm (op : Operation) {schema schema' : Schema} (h : schema.Closed)
    (h' : schema'.Closed) (hPerm : schema.types.Perm schema'.types) :
    op.codecs schema = op.codecs schema' := by
  unfold codecs
  rw [op.variablesCodec_congr (h.inputs_lookup_eq_of_perm hPerm),
    op.root_congr (h.get?_eq_of_perm h' hPerm)]

end Operation

namespace Generator

variable {g g' : Generator}

theorem compile_of_perm (hPerm : g.definitions.Perm g'.definitions)
    (hDistinct : (Order.names g.definitions).Nodup) (hOps : g.operations = g'.operations)
    {m : CodecModule} (h : g.compile = .ok m) :
    ∃ m', g'.compile = .ok m' ∧ m.types.Perm m'.types ∧ m.vars = m'.vars ∧
      m.selections = m'.selections := by
  obtain ⟨schema, operations, hSchema, hCodecs, rfl⟩ := compile_eq_ok.mp h
  have hDistinct' := Order.names_nodup_of_perm hPerm hDistinct
  have hSorted : (sortDefinitions g.definitions).Perm (sortDefinitions g'.definitions) :=
    (Order.sort_perm hDistinct).trans (hPerm.trans (Order.sort_perm hDistinct').symm)
  have hNodup := Order.names_sort_nodup g.definitions
  obtain ⟨schema', hSchema'⟩ :=
    ((wellFormed_of_compile hNodup hSchema).perm hSorted).exists_compile
  have hTypes := types_perm hNodup hSorted hSchema hSchema'
  have hCodecs' : g'.operations.mapM (·.codecs schema') = .ok operations := by
    rw [← hOps, ← hCodecs]
    congr 1
    funext op
    exact (op.codecs_eq_of_perm (compile_closed hSchema) (compile_closed hSchema') hTypes).symm
  exact ⟨_, compile_eq_ok.mpr ⟨schema', operations, hSchema', hCodecs', rfl⟩,
    hTypes.map Export.ofType, rfl, rfl⟩

theorem compile_error_of_perm (hPerm : g.definitions.Perm g'.definitions)
    (hDistinct : (Order.names g.definitions).Nodup) (hOps : g.operations = g'.operations)
    (h : ∃ e, g.compile = .error e) : ∃ e, g'.compile = .error e := by
  obtain ⟨e, he⟩ := h
  cases hCompile : g'.compile with
  | error e' => exact ⟨e', rfl⟩
  | ok m' =>
      obtain ⟨m, hm, -⟩ := compile_of_perm hPerm.symm
        (Order.names_nodup_of_perm hPerm hDistinct) hOps.symm hCompile
      rw [hm] at he
      cases he

/-- With the built-in template, rendering fails exactly if compiling fails. -/
theorem render_error_iff_of_builtin {engine : TemplateEngine} {place : Place}
    (h : g.template? place = .ok none) :
    (∃ e, g.render engine place = .error e) ↔ ∃ e, g.compile = .error e := by
  cases hCompile : g.compile with
  | error e =>
      refine iff_of_true ⟨.compile e, ?_⟩ ⟨e, rfl⟩
      rw [render, hCompile]
      rfl
  | ok m => simp [render_of_builtin h hCompile]

/-- **The order of definitions does not matter.** If the definitions and operations do not compile
in one order, they do not in another; otherwise the two modules have the same type exports up to
permutation, and the same variables and selections in the same order. The same holds of the rendered
texts: with the built-in template both orders fail or none does, and the texts are those of these
modules. -/
theorem render_order_independent (g g' : Generator)
    (hPerm : g.definitions.Perm g'.definitions)
    (hDistinct : (Order.names g.definitions).Nodup) (hOps : g.operations = g'.operations) :
    ((∃ e, g.compile = .error e) ↔ ∃ e, g'.compile = .error e) ∧
      (∀ m m', g.compile = .ok m → g'.compile = .ok m' →
        m.types.Perm m'.types ∧ m.vars = m'.vars ∧ m.selections = m'.selections) ∧
      ∀ engine place,
        (g.template? place = .ok none → g'.template? place = .ok none →
          ((∃ e, g.render engine place = .error e) ↔ ∃ e, g'.render engine place = .error e)) ∧
        ∀ text text', g.render engine place = .ok text → g'.render engine place = .ok text' →
          ∃ m m', g.compile = .ok m ∧ g.LaidOut engine place m text ∧
            g'.compile = .ok m' ∧ g'.LaidOut engine place m' text' := by
  have hDistinct' := Order.names_nodup_of_perm hPerm hDistinct
  have hFails : (∃ e, g.compile = .error e) ↔ ∃ e, g'.compile = .error e :=
    ⟨compile_error_of_perm hPerm hDistinct hOps,
      compile_error_of_perm hPerm.symm hDistinct' hOps.symm⟩
  refine ⟨hFails, ?_, fun engine place => ⟨?_, ?_⟩⟩
  · intro m m' hm hm'
    obtain ⟨m'', hm'', hSame⟩ := compile_of_perm hPerm hDistinct hOps hm
    obtain rfl := Except.ok.inj (hm'.symm.trans hm'')
    exact hSame
  · intro hBuiltin hBuiltin'
    rw [render_error_iff_of_builtin hBuiltin, render_error_iff_of_builtin hBuiltin', hFails]
  · intro text text' hText hText'
    obtain ⟨m, hm, hLaidOut⟩ := laidOut_of_render hText
    obtain ⟨m', hm', hLaidOut'⟩ := laidOut_of_render hText'
    exact ⟨m, m', hm, hLaidOut, hm', hLaidOut'⟩

end Generator

namespace Board

/-- The board with reversed definitions. -/
def backwards : Generator := ⟨definitions.reverse, [operation], {}, none⟩

/-- The two boards have one module, up to the order of its types. -/
theorem backwards_same_module :
    generator.definitions.Perm backwards.definitions ∧
      (Order.names generator.definitions).Nodup ∧ generator.operations = backwards.operations ∧
      ∃ m m', generator.compile = .ok m ∧ backwards.compile = .ok m' ∧
        (m.types.Perm m'.types ∧ m.vars = m'.vars ∧ m.selections = m'.selections) ∧
        generator.render engine place = .ok m.text ∧
        backwards.render engine place = .ok m'.text := by
  have hPerm : generator.definitions.Perm backwards.definitions := (List.reverse_perm _).symm
  have hDistinct : (Order.names generator.definitions).Nodup := by decide
  obtain ⟨codecs, hCodecs⟩ := exists_eq_ok (x := operation.codecs schema) (by cbv)
  have hCompile : generator.compile = .ok (.ofCodecs schema.types [codecs]) :=
    Generator.compile_eq_ok.mpr
      ⟨schema, [codecs], compile_definitions, mapM_eq_ok.mpr (.cons hCodecs .nil), rfl⟩
  obtain ⟨m', hCompile', -⟩ := Generator.compile_of_perm hPerm hDistinct rfl hCompile
  obtain ⟨-, hModules, -⟩ :=
    Generator.render_order_independent generator backwards hPerm hDistinct rfl
  exact ⟨hPerm, hDistinct, rfl, _, m', hCompile, hCompile', hModules _ m' hCompile hCompile',
    Generator.render_of_builtin (Generator.template?_of_templates_eq_none rfl) hCompile,
    Generator.render_of_builtin (Generator.template?_of_templates_eq_none rfl) hCompile'⟩

end Board

end GraphCodec
