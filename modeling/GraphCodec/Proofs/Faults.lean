import GraphCodec.Proofs.Compiler
import GraphCodec.Proofs.Order

/-!
# Which schemas compile

`Fault` lists the reasons for which definitions do not compile: a foreign definition, an undefined
type of a field or member type of a union, and a reference cycle. Every error of the compiler
reports one of them (`compile_fault`), so definitions without faults compile. Definitions that
compile, on the other hand, have a memo whose ranks decrease along every reference. Together,
exactly the closed schemas without reference cycles compile (`compile_accepts_iff`). With distinct
names, a reported cycle is a path in the reference graph.
-/

set_option autoImplicit false

namespace GraphCodec

open Relation

/-! ## References between definitions -/

/-- A definition named `m` refers to `n`. -/
def RefersTo (ds : List Definition) (m n : String) : Prop :=
  ∃ d ∈ ds, d.name = m ∧ n ∈ d.references

/-- **A closed schema without reference cycles.** -/
structure WellFormed (ds : List Definition) : Prop where
  kinds : ∀ d ∈ ds, ∃ kind, d.body.kind? = some kind
  fields : ∀ d ∈ ds, ∀ n ∈ d.fieldTypes, n ∈ Assoc.keys builtins ∨ n ∈ Order.names ds
  members : ∀ d ∈ ds, ∀ n ∈ d.members, n ∈ Order.names ds
  acyclic : ∀ n, ¬ TransGen (RefersTo ds) n n

/-- **The faults of definitions**, with the error that reports each of them. -/
inductive Fault (ds : List Definition) : CompileError → Prop
  | foreign {d : Definition} {kind : ForeignKind} (hd : d ∈ ds) (hBody : d.body = .foreign kind) :
      Fault ds (.unsupportedDefinition kind)
  | field {d : Definition} {n : String} (hd : d ∈ ds) (hn : n ∈ d.fieldTypes)
      (hOwn : builtins.lookup n = none) (hNone : n ∉ Order.names ds) :
      Fault ds (.unresolved n none)
  | member {d : Definition} {n : String} (hd : d ∈ ds) (hn : n ∈ d.members)
      (hNone : n ∉ Order.names ds) : Fault ds (.unresolved n (some (.member d.name)))
  | cycle {n : String} {between : List String} (hNodup : (n :: between).Nodup)
      (hChain : (n :: between ++ [n]).IsChain (RefersTo ds)) :
      Fault ds (.cyclic (n :: between ++ [n]))

theorem transGen_of_isChain {α : Type} {r : α → α → Prop} {a b : α} {between : List α}
    (h : (a :: between ++ [b]).IsChain r) : TransGen r a b := by
  induction between generalizing a with
  | nil => exact .single (by simpa using h)
  | cons c between ih =>
      obtain ⟨hStep, hRest⟩ := List.isChain_cons_cons.mp h
      exact .head hStep (ih hRest)

theorem WellFormed.not_fault {ds : List Definition} (h : WellFormed ds) {e : CompileError} :
    ¬ Fault ds e := by
  intro hFault
  cases hFault with
  | foreign hd hBody =>
      obtain ⟨kind, hKind⟩ := h.kinds _ hd
      rw [hBody] at hKind
      cases hKind
  | field hd hn hOwn hNone =>
      rcases h.fields _ hd _ hn with hBuiltin | hName
      · exact Assoc.lookup_eq_none.mp hOwn hBuiltin
      · exact hNone hName
  | member hd hn hNone => exact hNone (h.members _ hd _ hn)
  | cycle hNodup hChain => exact h.acyclic _ (transGen_of_isChain hChain)

/-! ## Failing runs -/

namespace Compile

variable {α β : Type} {e : CompileError}

/-- From some memo, `x` fails with this error. -/
def Fails (x : Compile β) (e : CompileError) : Prop :=
  ∃ memo, (Id.run (x.run.run memo)).1 = .error e

theorem not_fails_pure {b : β} : ¬ Fails (pure b) e := by
  rintro ⟨memo, h⟩
  cases h

theorem not_fails_get : ¬ Fails get e := by
  rintro ⟨memo, h⟩
  cases h

theorem not_fails_modify {f : Memo → Memo} : ¬ Fails (modify f) e := by
  rintro ⟨memo, h⟩
  cases h

theorem fails_throw {e' : CompileError} (h : Fails (throw e' : Compile β) e) : e = e' := by
  obtain ⟨memo, h⟩ := h
  cases h
  rfl

theorem fails_bind {x : Compile α} {f : α → Compile β} (h : Fails (x >>= f) e) :
    Fails x e ∨ ∃ memo a memo', Gives x memo a memo' ∧ Fails (f a) e := by
  obtain ⟨memo, h⟩ := h
  rw [run_bind] at h
  rcases hx : Id.run (x.run.run memo) with ⟨r, between⟩
  rw [hx] at h
  cases r with
  | error e' =>
      obtain rfl : e' = e := by simpa using h
      exact Or.inl ⟨memo, by rw [hx]⟩
  | ok a => exact Or.inr ⟨memo, a, between, hx, between, h⟩

theorem fails_map {x : Compile α} {f : α → β} (h : Fails (f <$> x) e) : Fails x e := by
  rw [map_eq_pure_bind] at h
  rcases fails_bind h with h | ⟨_, a, _, -, h⟩
  · exact h
  · exact absurd h not_fails_pure

theorem fails_mapM {f : α → Compile β} {l : List α} (h : Fails (l.mapM f) e) :
    ∃ a ∈ l, Fails (f a) e := by
  induction l with
  | nil => exact absurd h not_fails_pure
  | cons a l ih =>
      rw [List.mapM_cons] at h
      rcases fails_bind h with h | ⟨_, b, _, -, h⟩
      · exact ⟨a, List.mem_cons_self, h⟩
      · rcases fails_bind h with h | ⟨_, bs, _, -, h⟩
        · obtain ⟨a', ha', h⟩ := ih h
          exact ⟨a', List.mem_cons_of_mem _ ha', h⟩
        · exact absurd h not_fails_pure

end Compile

open Compile

variable {e : CompileError}

theorem fails_askFields {field : String → Compile Codec} {fields : List Field}
    (h : Fails (Definition.askFields field fields) e) :
    ∃ n ∈ fields.map (·.type.base), Fails (field n) e := by
  obtain ⟨f, hf, h⟩ := fails_mapM h
  exact ⟨f.type.base, List.mem_map.mpr ⟨f, hf, rfl⟩, fails_map h⟩

/-- A definition has no codec if it is foreign, or if one of its references has none. -/
theorem fails_codec {field member : String → Compile Codec} {d : Definition}
    (h : Fails (d.codec field member) e) :
    (∃ kind, d.body = .foreign kind ∧ e = .unsupportedDefinition kind) ∨
      (∃ n ∈ d.fieldTypes, Fails (field n) e) ∨ ∃ n ∈ d.members, Fails (member n) e := by
  obtain ⟨name, body⟩ := d
  cases body with
  | object fields =>
      rw [Definition.codec_object] at h
      exact Or.inr (Or.inl (fails_askFields (fails_map h)))
  | input fields =>
      rw [Definition.codec_input] at h
      exact Or.inr (Or.inl (fails_askFields (fails_map h)))
  | union members =>
      rw [Definition.codec_union] at h
      exact Or.inr (Or.inr (fails_mapM (fails_map h)))
  | enum values => exact absurd h not_fails_pure
  | scalar => exact absurd h not_fails_pure
  | foreign kind => exact Or.inl ⟨kind, rfl, fails_throw h⟩

theorem fails_referred {table : Table Definition} {path : List String} {site : Option Site}
    {n : String} (h : Fails (referred table path site n) e) :
    (table.get? n = none ∧ e = .unresolved n site) ∨
      ∃ d, table.get? n = some d ∧ Fails (compileDefinition table path d) e := by
  unfold referred at h
  split at h
  · rename_i hNone
    exact Or.inl ⟨hNone, fails_throw h⟩
  · rename_i d hd
    exact Or.inr ⟨d, hd, h⟩

/-- A definition fails to compile if it closes a cycle, or if it has no codec. -/
theorem fails_compileDefinition {table : Table Definition} {path : List String} {d : Definition}
    (h : Fails (compileDefinition table path d) e) :
    (d.name ∈ path ∧ e = .cyclic (cycle path d.name)) ∨
      (d.name ∉ path ∧ Fails (d.codec (referredField table (d.name :: path))
        (referred table (d.name :: path) (some (.member d.name)))) e) := by
  rw [compileDefinition] at h
  rcases fails_bind h with h | ⟨memo, memo', between, -, h⟩
  · exact absurd h not_fails_get
  cases hMemo : List.lookup d.name memo' with
  | some c =>
      simp only [hMemo] at h
      exact absurd h not_fails_pure
  | none =>
      simp only [hMemo] at h
      split at h
      · rename_i hPath
        exact Or.inl ⟨hPath, fails_throw h⟩
      · rename_i hPath
        refine Or.inr ⟨hPath, ?_⟩
        rcases fails_bind h with h | ⟨_, c, _, -, h⟩
        · exact h
        · rcases fails_bind h with h | ⟨_, u, _, -, h⟩
          · exact absurd h not_fails_modify
          · exact absurd h not_fails_pure

/-! ## Errors report faults -/

/-- A name that recurs on a path of references closes a cycle. -/
theorem fault_cycle {ds : List Definition} {path : List String} {n : String} (hn : n ∈ path)
    (hNodup : path.Nodup) (hChain : (n :: path).IsChain fun a b => RefersTo ds b a) :
    Fault ds (.cyclic (cycle path n)) := by
  obtain ⟨inner, outer, rfl, hInner⟩ := List.eq_append_cons_of_mem hn
  rw [cycle_append hInner]
  -- the path has the innermost name first, a cycle is reported from its start
  have hBack : (n :: inner ++ [n]).IsChain fun a b => RefersTo ds b a :=
    hChain.prefix ⟨outer, by simp⟩
  refine .cycle ?_ ?_
  · rw [List.nodup_cons, List.mem_reverse, List.nodup_reverse]
    exact ⟨hInner, (List.nodup_append.mp hNodup).1⟩
  · have hReverse : (n :: inner ++ [n]).reverse = n :: inner.reverse ++ [n] := by simp
    rw [← hReverse, List.isChain_reverse]
    exact hBack

/-- **The step lemma of failure.** The path leads to the definition by references; the induction is
on the number of names that are not on it. -/
theorem fault_compileDefinition {ds : List Definition} (path : List String) (d : Definition)
    (hd : d ∈ ds) (hNodup : path.Nodup)
    (hChain : (d.name :: path).IsChain fun a b => RefersTo ds b a)
    (h : Fails (compileDefinition (Table.ofList ds) path d) e) : Fault ds e := by
  induction hk : (Table.ofList ds).unseen path using Nat.strongRecOn generalizing path d with
  | _ k ih =>
    subst hk
    rcases fails_compileDefinition h with ⟨hPath, rfl⟩ | ⟨hPath, h⟩
    · exact fault_cycle hPath hNodup hChain
    have hTable : d ∈ Table.ofList ds := by simpa [Table.ofList] using hd
    have hRefer : ∀ site n, n ∈ d.references →
        Fails (referred (Table.ofList ds) (d.name :: path) site n) e →
        Fault ds e ∨ (n ∉ Order.names ds ∧ e = .unresolved n site) := by
      intro site n hn h
      rcases fails_referred h with ⟨hNone, rfl⟩ | ⟨d', hd', hBelow⟩
      · refine Or.inr ⟨fun hName => ?_, rfl⟩
        have hSome := Order.get?_ofList_isSome.mpr hName
        rw [hNone] at hSome
        cases hSome
      · obtain rfl : d'.name = n := Table.name_of_get? hd'
        have hMem : d' ∈ ds := by simpa [Table.ofList] using Table.mem_of_get? hd'
        have hStep : RefersTo ds d.name d'.name := ⟨d, hd, rfl, hn⟩
        exact Or.inl (ih _ (Table.unseen_cons_lt hTable hPath) (d.name :: path) d' hMem
          (List.nodup_cons.mpr ⟨hPath, hNodup⟩) (List.isChain_cons_cons.mpr ⟨hStep, hChain⟩) hBelow
          rfl)
    rcases fails_codec h with ⟨kind, hBody, rfl⟩ | ⟨n, hn, h⟩ | ⟨n, hn, h⟩
    · exact .foreign hd hBody
    · unfold referredField at h
      cases hOwn : builtins.lookup n with
      | some p =>
          rw [hOwn] at h
          exact absurd h not_fails_pure
      | none =>
          rw [hOwn] at h
          rcases hRefer none n (Definition.mem_references.mpr (Or.inl ⟨hn, hOwn⟩)) h with
            hFault | ⟨hNone, rfl⟩
          · exact hFault
          · exact .field hd hn hOwn hNone
    · rcases hRefer _ n (Definition.mem_references.mpr (Or.inr hn)) h with hFault | ⟨hNone, rfl⟩
      · exact hFault
      · exact .member hd hn hNone

/-- **Every error of a schema reports a fault** of its definitions. -/
theorem compile_fault {ds : List Definition} (h : Schema.compile ds = .error e) : Fault ds e := by
  have hFails : Fails (ds.mapM (compileDefinition (Table.ofList ds) [])) e := by
    unfold Schema.compile at h
    rcases bind_eq_error.mp h with h | ⟨types, -, h⟩
    · exact ⟨[], h⟩
    · cases h
  obtain ⟨d, hd, hFails⟩ := fails_mapM hFails
  exact fault_compileDefinition [] d hd List.nodup_nil (by simp) hFails

/-! ## Acceptance -/

section

variable {ds : List Definition} {memo : Memo} {types : List Codec}

/-- With distinct names, each definition has the codec of its entry. -/
theorem Memo.Built.hasCodec_of_mem (hBuilt : memo.Built ds)
    (hTypes : List.Forall₂ (fun d c => memo.lookup d.name = some c) ds types)
    (hDistinct : (Order.names ds).Nodup) {d : Definition} (hd : d ∈ ds) :
    ∃ c, memo.lookup d.name = some c ∧ HasCodec memo d c := by
  obtain ⟨c, -, hc⟩ := exists_right_of_forall₂ hTypes hd
  obtain ⟨d', hd', hName, hCodec⟩ := hBuilt.hasCodec hc
  obtain rfl : d' = d := List.inj_on_of_nodup_map hDistinct hd' hd hName
  exact ⟨c, hc, hCodec⟩

theorem Memo.Built.mem_names (hBuilt : memo.Built ds) {n : String} {c : Codec}
    (hc : memo.lookup n = some c) : n ∈ Order.names ds := by
  obtain ⟨d, hd, hName, -⟩ := hBuilt.hasCodec hc
  exact Order.mem_names.mpr ⟨d, hd, hName⟩

/-- The rank of a memo decreases along references. -/
theorem Memo.Built.rank_lt_of_refersTo (hBuilt : memo.Built ds)
    (hTypes : List.Forall₂ (fun d c => memo.lookup d.name = some c) ds types)
    (hDistinct : (Order.names ds).Nodup) {m n : String} (h : RefersTo ds m n) :
    memo.rank n < memo.rank m := by
  obtain ⟨d, hd, rfl, hn⟩ := h
  obtain ⟨c, -, hc⟩ := exists_right_of_forall₂ hTypes hd
  obtain ⟨d', hd', hName, hOlder⟩ := hBuilt.rank_lt hc
  obtain rfl : d' = d := List.inj_on_of_nodup_map hDistinct hd' hd hName
  exact (hOlder n hn).2

theorem Memo.Built.wellFormed (hBuilt : memo.Built ds)
    (hTypes : List.Forall₂ (fun d c => memo.lookup d.name = some c) ds types)
    (hDistinct : (Order.names ds).Nodup) : WellFormed ds := by
  have hReference : ∀ d ∈ ds, ∀ n ∈ d.references, n ∈ Order.names ds := by
    intro d hd n hn
    obtain ⟨c, -, hCodec⟩ := hBuilt.hasCodec_of_mem hTypes hDistinct hd
    obtain ⟨e, he⟩ := hCodec.lookup_reference hn
    exact hBuilt.mem_names he
  refine ⟨?_, ?_, ?_, ?_⟩
  · intro d hd
    obtain ⟨c, -, hCodec⟩ := hBuilt.hasCodec_of_mem hTypes hDistinct hd
    cases hCodec <;> exact ⟨_, rfl⟩
  · intro d hd n hn
    by_cases hOwn : n ∈ Assoc.keys builtins
    · exact Or.inl hOwn
    · refine Or.inr (hReference d hd n (Definition.mem_references.mpr (Or.inl ⟨hn, ?_⟩)))
      exact Assoc.lookup_eq_none.mpr hOwn
  · intro d hd n hn
    exact hReference d hd n (Definition.mem_references.mpr (Or.inr hn))
  · intro n hCycle
    have hFalls : ∀ m, TransGen (RefersTo ds) n m → memo.rank m < memo.rank n := by
      intro m hLeads
      induction hLeads with
      | single hStep => exact hBuilt.rank_lt_of_refersTo hTypes hDistinct hStep
      | tail _ hStep ih => exact (hBuilt.rank_lt_of_refersTo hTypes hDistinct hStep).trans ih
    exact Nat.lt_irrefl _ (hFalls n hCycle)

end

/-- Definitions that compile are well formed. -/
theorem wellFormed_of_compile {ds : List Definition} (hDistinct : (Order.names ds).Nodup)
    {schema : Schema} (h : Schema.compile ds = .ok schema) : WellFormed ds := by
  obtain ⟨memo, hBuilt, hTypes⟩ := compile_built h
  exact hBuilt.wellFormed hTypes hDistinct

/-- Well-formed definitions compile. -/
theorem WellFormed.exists_compile {ds : List Definition} (h : WellFormed ds) :
    ∃ schema, Schema.compile ds = .ok schema := by
  cases hCompile : Schema.compile ds with
  | ok schema => exact ⟨schema, rfl⟩
  | error e => exact absurd (compile_fault hCompile) h.not_fault

/-- **Exactly the closed schemas without reference cycles compile**, in any order of their
definitions. -/
theorem Schema.compile_accepts_iff (ds : List Definition) (hDistinct : (Order.names ds).Nodup) :
    (∃ schema, Schema.compile ds = .ok schema) ↔ WellFormed ds := by
  constructor
  · rintro ⟨schema, hSchema⟩
    exact wellFormed_of_compile hDistinct hSchema
  · intro hWell
    exact hWell.exists_compile

/-- A menu on which dishes are shared. The name `ID` is a defined type as a member type, and the
built-in scalar as the type of a field. -/
def Menu.definitions : List Definition :=
  [⟨"Menu", .object [⟨"starter", .named "Dish" true⟩,
      ⟨"others", .list (.named "Item" true) false⟩]⟩,
    ⟨"Item", .union ["Dish", "ID"]⟩,
    ⟨"Dish", .object [⟨"id", .named "ID" true⟩]⟩,
    ⟨"ID", .object [⟨"menu", .named "Int" false⟩]⟩]

theorem Menu.definitions_accepted :
    (Order.names definitions).Nodup ∧ (∃ schema, Schema.compile definitions = .ok schema) ∧
      WellFormed definitions := by
  have hDistinct : (Order.names definitions).Nodup := by decide
  have hCompile := exists_eq_ok (x := Schema.compile definitions) (by cbv)
  exact ⟨hDistinct, hCompile, (Schema.compile_accepts_iff definitions hDistinct).mp hCompile⟩

/-! ## Reports -/

section

variable {ds : List Definition}

/-- With distinct names, the references from a name are those of its definition. -/
theorem RefersTo.mem_references {m n : String} (h : RefersTo ds m n)
    (hDistinct : (Order.names ds).Nodup) {d : Definition} (hd : d ∈ ds) (hName : d.name = m) :
    n ∈ d.references := by
  obtain ⟨d', hd', hName', hn⟩ := h
  obtain rfl : d' = d := List.inj_on_of_nodup_map hDistinct hd' hd (hName'.trans hName.symm)
  exact hn

/-- On a path of references every name but the last is defined. -/
theorem mem_names_of_isChain {a b : String} {between : List String}
    (h : (a :: between ++ [b]).IsChain (RefersTo ds)) :
    ∀ m ∈ a :: between, m ∈ Order.names ds := by
  have hFirst : ∀ {m n}, RefersTo ds m n → m ∈ Order.names ds := by
    rintro m n ⟨d, hd, hName, -⟩
    exact Order.mem_names.mpr ⟨d, hd, hName⟩
  induction between generalizing a with
  | nil =>
      have hStep : RefersTo ds a b := by simpa using h
      exact List.forall_mem_singleton.mpr (hFirst hStep)
  | cons c between ih =>
      obtain ⟨hStep, hRest⟩ := List.isChain_cons_cons.mp h
      exact List.forall_mem_cons.mpr ⟨hFirst hStep, ih hRest⟩

end

/-- **Schema errors are genuine.** A reported cycle is a path of two or more names that returns to
its start and repeats no other name; its names are defined, and each definition refers to the next
name, by a field whose type is not a built-in scalar or as a member type. An unresolved type is not
defined, and it is referred to: as the type of a field, where it is not a built-in scalar and no
site is reported, or as a member type of the union that is reported. -/
theorem Schema.compile_reports_genuine (ds : List Definition)
    (hDistinct : (Order.names ds).Nodup) :
    (∀ path, Schema.compile ds = .error (.cyclic path) →
      2 ≤ path.length ∧ path.head? = path.getLast? ∧ path.dropLast.Nodup ∧
        (∀ n ∈ path, n ∈ Order.names ds) ∧
        path.IsChain fun m n => ∀ d ∈ ds, d.name = m →
          (n ∈ d.fieldTypes ∧ n ∉ Assoc.keys builtins) ∨ n ∈ d.members) ∧
      ∀ n site, Schema.compile ds = .error (.unresolved n site) →
        n ∉ Order.names ds ∧
          ((site = none ∧ n ∉ Assoc.keys builtins ∧ ∃ d ∈ ds, n ∈ d.fieldTypes) ∨
            ∃ d ∈ ds, site = some (.member d.name) ∧ n ∈ d.members) := by
  refine ⟨fun path h => ?_, fun n site h => ?_⟩
  · cases compile_fault h with
    | @cycle n between hNodup hChain =>
        have hKnown := mem_names_of_isChain hChain
        refine ⟨by simp, ?_, ?_, fun m hm => ?_, ?_⟩
        · rw [List.getLast?_concat, List.cons_append, List.head?_cons]
        · rw [List.dropLast_concat]
          exact hNodup
        · rcases List.mem_append.mp hm with hm | hm
          · exact hKnown m hm
          · rw [List.mem_singleton.mp hm]
            exact hKnown n List.mem_cons_self
        · refine hChain.imp fun m k hStep d hd hName => ?_
          rw [← Assoc.lookup_eq_none, ← Definition.mem_references]
          exact hStep.mem_references hDistinct hd hName
  · cases compile_fault h with
    | field hd hn hOwn hNone =>
        exact ⟨hNone, Or.inl ⟨rfl, Assoc.lookup_eq_none.mp hOwn, _, hd, hn⟩⟩
    | member hd hn hNone => exact ⟨hNone, Or.inr ⟨_, hd, rfl, hn⟩⟩

namespace Menu

/-- A dish comes with items, and items are dishes. -/
def circular : List Definition :=
  [⟨"Menu", .object [⟨"starter", .named "Dish" true⟩]⟩,
    ⟨"Dish", .object [⟨"id", .named "ID" true⟩, ⟨"sides", .list (.named "Item" true) false⟩]⟩,
    ⟨"Item", .union ["Sauce", "Dish"]⟩, ⟨"Sauce", .scalar⟩]

/-- The wine is not defined. -/
def incomplete : List Definition :=
  [⟨"Menu", .object [⟨"items", .list (.named "Item" true) false⟩]⟩,
    ⟨"Item", .union ["Sauce", "Wine"]⟩, ⟨"Sauce", .scalar⟩]

/-- The cycle is reported from the dish, where it is entered, and not from the menu. -/
theorem reports_genuine :
    (Order.names circular).Nodup ∧
      Schema.compile circular = .error (.cyclic ["Dish", "Item", "Dish"]) ∧
      ["Dish", "Item", "Dish"].IsChain (fun m n => ∀ d ∈ circular, d.name = m →
        (n ∈ d.fieldTypes ∧ n ∉ Assoc.keys builtins) ∨ n ∈ d.members) ∧
      (Order.names incomplete).Nodup ∧
      Schema.compile incomplete = .error (.unresolved "Wine" (some (.member "Item"))) ∧
      "Wine" ∉ Order.names incomplete := by
  have hCircular : (Order.names circular).Nodup := by decide
  have hCycle : Schema.compile circular = .error (.cyclic ["Dish", "Item", "Dish"]) := by cbv
  have hIncomplete : (Order.names incomplete).Nodup := by decide
  have hWine : Schema.compile incomplete = .error (.unresolved "Wine" (some (.member "Item"))) := by
    cbv
  exact ⟨hCircular, hCycle,
    ((Schema.compile_reports_genuine circular hCircular).1 _ hCycle).2.2.2.2, hIncomplete, hWine,
    ((Schema.compile_reports_genuine incomplete hIncomplete).2 _ _ hWine).1⟩

end Menu

end GraphCodec
