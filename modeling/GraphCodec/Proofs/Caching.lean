import GraphCodec.Proofs.Compiler
import GraphCodec.Proofs.Order

/-!
# Memoisation is transparent

The memo table of the compiler survives a failed call. It must not be observable: every call has the
outcome it would have with an empty memo, the same codec or the same error with the same cycle.

Two other compilers are compared with it. `plainCodec` has no memo and compiles every reference anew
(`memoized_compileDefinition`). `Tracked.compile` keeps the recursion stack in its state, pushes a
name before it compiles a definition and pops it afterwards, on success and on failure
(`stacked_compile`). Both comparisons run through definitions in parallel, and `Parallel` says once
how.
-/

set_option autoImplicit false

namespace GraphCodec

/-! ## Two runs in parallel -/

/-- **A relation between the runs of two monads** that is compatible with `pure`, `bind` and
`throw`. -/
structure Parallel (m n : Type → Type) [Monad m] [Monad n] [MonadExcept CompileError m]
    [MonadExcept CompileError n] where
  Rel : {β : Type} → m β → n β → Prop
  rel_pure : ∀ {β : Type} (b : β), Rel (pure b : m β) (pure b : n β)
  rel_throw : ∀ {β : Type} (e : CompileError), Rel (throw e : m β) (throw e : n β)
  rel_bind : ∀ {α β : Type} {x : m α} {y : n α} {f : α → m β} {g : α → n β}, Rel x y →
    (∀ a, Rel (f a) (g a)) → Rel (x >>= f) (y >>= g)

/-- Compiles the definition that the table has for a name. -/
def referring {m : Type → Type} [Monad m] [MonadExcept CompileError m]
    (table : Table Definition) (compile : Definition → m Codec) (site : Option Site)
    (n : String) : m Codec :=
  match table.get? n with
  | none => throw (.unresolved n site)
  | some e => compile e

/-- Compiles the named type of a field: a built-in scalar, or the definition of the table. -/
def referringField {m : Type → Type} [Monad m] [MonadExcept CompileError m]
    (table : Table Definition) (compile : Definition → m Codec) (n : String) : m Codec :=
  match builtins.lookup n with
  | some p => pure (.primitive p)
  | none => referring table compile none n

/-- The codec of a definition, where `compile` compiles the definitions it refers to. -/
def Definition.codecBy {m : Type → Type} [Monad m] [MonadExcept CompileError m]
    (d : Definition) (table : Table Definition) (compile : Definition → m Codec) : m Codec :=
  d.codec (referringField table compile) (referring table compile (some (.member d.name)))

namespace Parallel

variable {m n : Type → Type} [Monad m] [Monad n] [LawfulMonad m] [LawfulMonad n]
  [MonadExcept CompileError m] [MonadExcept CompileError n] (P : Parallel m n)
  {α β : Type}

theorem map {x : m α} {y : n α} (f : α → β) (h : P.Rel x y) : P.Rel (f <$> x) (f <$> y) := by
  rw [map_eq_pure_bind, map_eq_pure_bind]
  exact P.rel_bind h fun a => P.rel_pure (f a)

theorem mapM {f : α → m β} {g : α → n β} (l : List α) (h : ∀ a ∈ l, P.Rel (f a) (g a)) :
    P.Rel (l.mapM f) (l.mapM g) := by
  induction l with
  | nil =>
      rw [List.mapM_nil, List.mapM_nil]
      exact P.rel_pure []
  | cons a l ih =>
      rw [List.mapM_cons, List.mapM_cons]
      refine P.rel_bind (h a List.mem_cons_self) fun b => ?_
      have hRest := ih fun a' ha' => h a' (List.mem_cons_of_mem a ha')
      exact P.rel_bind hRest fun bs => P.rel_pure (b :: bs)

variable {field member : String → m Codec} {field' member' : String → n Codec}

theorem askFields (hField : ∀ k, P.Rel (field k) (field' k)) (fields : List Field) :
    P.Rel (Definition.askFields field fields) (Definition.askFields field' fields) :=
  P.mapM fields fun f _ => P.map _ (hField f.type.base)

theorem codec (d : Definition) (hField : ∀ k, P.Rel (field k) (field' k))
    (hMember : ∀ k, P.Rel (member k) (member' k)) :
    P.Rel (d.codec field member) (d.codec field' member') := by
  obtain ⟨name, body⟩ := d
  cases body with
  | object fields =>
      rw [Definition.codec_object, Definition.codec_object]
      exact P.map _ (P.askFields hField fields)
  | input fields =>
      rw [Definition.codec_input, Definition.codec_input]
      exact P.map _ (P.askFields hField fields)
  | union members =>
      rw [Definition.codec_union, Definition.codec_union]
      exact P.map _ (P.mapM members fun k _ => hMember k)
  | enum values => exact P.rel_pure (Codec.enum name values)
  | scalar => exact P.rel_pure (Codec.scalar name)
  | foreign kind => exact P.rel_throw (.unsupportedDefinition kind)

/-- `codecBy` is related in both monads, if the two compilers are. -/
theorem codecBy (d : Definition) {table : Table Definition} {compile : Definition → m Codec}
    {compile' : Definition → n Codec}
    (h : ∀ k e, table.get? k = some e → P.Rel (compile e) (compile' e)) :
    P.Rel (d.codecBy table compile) (d.codecBy table compile') := by
  have hRefer : ∀ site k, P.Rel (referring table compile site k)
      (referring table compile' site k) := by
    intro site k
    unfold referring
    cases hGet : table.get? k with
    | none => exact P.rel_throw (.unresolved k site)
    | some e => exact h k e hGet
  refine P.codec d (fun k => ?_) (hRefer _)
  unfold referringField
  cases builtins.lookup k with
  | some p => exact P.rel_pure (Codec.primitive p)
  | none => exact hRefer none k

end Parallel

/-! ## Tables -/

namespace Table

variable {table : Table Definition}

/-- The definitions of a table that are not shadowed. -/
def own (table : Table Definition) : List Definition :=
  table.filter fun d => table.get? d.name = some d

theorem mem_own {d : Definition} : d ∈ table.own ↔ table.get? d.name = some d := by
  simp only [own, List.mem_filter, decide_eq_true_eq, and_iff_right_iff_imp]
  exact mem_of_get?

theorem mem_own_of_get? {n : String} {d : Definition} (h : table.get? n = some d) :
    d ∈ table.own := by
  obtain rfl : d.name = n := name_of_get? h
  exact mem_own.mpr h

/-- With distinct names no definition is shadowed. -/
theorem mem_own_ofList {ds : List Definition} (h : (Order.names ds).Nodup) {d : Definition}
    (hd : d ∈ ds) : d ∈ (ofList ds).own := by
  rw [mem_own]
  obtain ⟨e, he⟩ := Option.isSome_iff_exists.mp
    (Order.get?_ofList_isSome.mpr (Order.mem_names.mpr ⟨d, hd, rfl⟩))
  have hMem : e ∈ ds := by simpa [ofList] using mem_of_get? he
  obtain rfl : e = d := List.inj_on_of_nodup_map h hMem hd (name_of_get? he)
  exact he

/-- The recursion depth of the compiler below a definition: its termination measure. -/
def depth (table : Table Definition) (path : List String) (d : Definition) : Nat :=
  table.unseen path + if d ∈ table then 0 else 1

theorem depth_lt {path : List String} {d e : Definition} {n : String} (hPath : d.name ∉ path)
    (he : table.get? n = some e) : table.depth (d.name :: path) e < table.depth path d := by
  unfold depth
  rw [if_pos (mem_of_get? he)]
  by_cases hd : d ∈ table
  · have hLt : table.unseen (d.name :: path) < table.unseen path := unseen_cons_lt hd hPath
    omega
  · have hLe := unseen_cons_le table path d.name
    rw [if_neg hd]
    omega

end Table

/-! ## Compiling without a memo -/

/-- The compiler without a memo table: every reference is compiled anew. -/
def plainCodec (table : Table Definition) (path : List String) (d : Definition) :
    Except CompileError Codec :=
  if _hp : d.name ∈ path then throw (.cyclic (cycle path d.name))
  else
    let refer (site : Option Site) (n : String) : Except CompileError Codec :=
      match _he : table.get? n with
      | none => throw (.unresolved n site)
      | some e => plainCodec table (d.name :: path) e
    let field (n : String) : Except CompileError Codec :=
      match builtins.lookup n with
      | some p => return .primitive p
      | none => refer none n
    d.codec field (refer (some (.member d.name)))
termination_by table.depth path d
decreasing_by exact Table.depth_lt _hp _he

theorem plainCodec_eq (table : Table Definition) (path : List String) (d : Definition) :
    plainCodec table path d =
      if d.name ∈ path then .error (.cyclic (cycle path d.name))
      else d.codecBy table (plainCodec table (d.name :: path)) := by
  have hRefer : (fun (site : Option Site) (n : String) =>
      match _he : table.get? n with
      | none => throw (.unresolved n site)
      | some e => plainCodec table (d.name :: path) e) =
      referring table (plainCodec table (d.name :: path)) := by
    funext site n
    unfold referring
    split
    · rename_i he
      rw [he]
    · rename_i e he
      rw [he]
  rw [plainCodec]
  by_cases hPath : d.name ∈ path
  · rw [dif_pos hPath, if_pos hPath]
    rfl
  · rw [dif_neg hPath, if_neg hPath, hRefer]
    rfl

/-- If a definition has its codec by a memo, and the references compile to the entries of the memo,
it compiles to this codec. -/
theorem HasCodec.codecBy_eq_ok {memo : Memo} {d : Definition} {c : Codec} (h : HasCodec memo d c)
    {table : Table Definition} {compile : Definition → Except CompileError Codec}
    (hCompile : ∀ n b, memo.lookup n = some b →
      ∃ e, table.get? n = some e ∧ compile e = .ok b) :
    d.codecBy table compile = .ok c := by
  have hRefer : ∀ site n b, memo.lookup n = some b → referring table compile site n = .ok b := by
    intro site n b hb
    obtain ⟨e, he, hOk⟩ := hCompile n b hb
    rw [referring, he]
    exact hOk
  have hField : ∀ n b, memo.field? n = some b → referringField table compile n = .ok b := by
    intro n b hb
    rcases Memo.field?_eq_some.mp hb with ⟨p, hp, rfl⟩ | ⟨hNone, hb⟩
    · rw [referringField, hp]
      rfl
    · rw [referringField, hNone]
      exact hRefer none n b hb
  have hFields : ∀ {fields : List Field} {pairs : List (String × Codec)},
      List.Forall₂ (FieldCodec memo) fields pairs →
      Definition.askFields (referringField table compile) fields = .ok pairs := by
    intro fields pairs hPairs
    refine mapM_eq_ok.mpr (hPairs.imp ?_)
    rintro f p ⟨b, hb, rfl⟩
    rw [hField _ b hb]
    rfl
  unfold Definition.codecBy
  cases h with
  | object h =>
      rw [Definition.codec_object, hFields h]
      rfl
  | input h =>
      rw [Definition.codec_input, hFields h]
      rfl
  | union h =>
      rw [Definition.codec_union, mapM_eq_ok.mpr (h.imp fun n b hb => hRefer _ n b hb)]
      rfl
  | enum name values => rfl
  | scalar name => rfl

/-- **The entries of an open memo are what the compiler without a memo computes.** Each entry was
made from older ones, which do not contain its name, so its name can go onto the path for them. -/
theorem Memo.Open.plainCodec_eq_ok {table : Table Definition} {path : List String} {memo : Memo}
    (h : memo.Open table.own path) {n : String} {c : Codec} (hc : memo.lookup n = some c) :
    ∃ d, table.get? n = some d ∧ plainCodec table path d = .ok c := by
  obtain ⟨hBuilt, hFresh⟩ := h
  induction hBuilt generalizing path n c with
  | nil => cases hc
  | @cons memo d e hBuilt hd hNew he ih =>
      have hExt := Memo.extends_cons e hNew
      have hOlder : ∀ k ∈ path, memo.lookup k = none := by
        intro k hk
        cases hLook : memo.lookup k with
        | none => rfl
        | some b => rw [← hFresh k hk, hExt k b hLook]
      rw [List.lookup_cons] at hc
      by_cases hn : n = d.name
      · subst hn
        obtain rfl : e = c := by simpa using hc
        have hPath : d.name ∉ path := by
          intro hMem
          have hNone := hFresh _ hMem
          simp at hNone
        refine ⟨d, Table.mem_own.mp hd, ?_⟩
        rw [plainCodec_eq, if_neg hPath]
        refine he.codecBy_eq_ok fun k b hb => ih hb fun k' hk' => ?_
        rcases List.mem_cons.mp hk' with rfl | hk'
        · exact hNew
        · exact hOlder k' hk'
      · have hn' : (n == d.name) = false := by simpa using hn
        rw [hn'] at hc
        exact ih hc hOlder

/-! ## Compiling with a memo -/

theorem referred_eq (table : Table Definition) (path : List String) :
    referred table path = referring table (compileDefinition table path) := by
  funext site n
  unfold referred referring
  split
  · rename_i he
    rw [he]
  · rename_i e he
    rw [he]

theorem referredField_eq (table : Table Definition) (path : List String) :
    referredField table path = referringField table (compileDefinition table path) := by
  funext n
  unfold referredField referringField
  cases builtins.lookup n with
  | some p => rfl
  | none => exact congrFun (congrFun (referred_eq table path) none) n

theorem compileDefinition_eq (table : Table Definition) (path : List String) (d : Definition) :
    compileDefinition table path d = do
      match (← get).lookup d.name with
      | some c => return c
      | none =>
        if d.name ∈ path then throw (.cyclic (cycle path d.name))
        else
          let c ← d.codecBy table (compileDefinition table (d.name :: path))
          modify ((d.name, c) :: ·)
          return c := by
  rw [compileDefinition]
  refine bind_congr fun memo => ?_
  cases List.lookup d.name memo with
  | some c => rfl
  | none =>
      by_cases hPath : d.name ∈ path
      · simp only [hPath, dite_true, if_true]
      · simp only [hPath, dite_false, if_false]
        rw [Definition.codecBy, ← referred_eq, ← referredField_eq]
        rfl

/-- **One step of the compiler**: a definition is in the memo, closes a cycle, or is compiled; only
success adds an entry. -/
theorem run_compileDefinition (table : Table Definition) (path : List String) (d : Definition)
    (memo : Memo) :
    Id.run ((compileDefinition table path d).run.run memo) =
      match memo.lookup d.name with
      | some c => (.ok c, memo)
      | none =>
        if d.name ∈ path then (.error (.cyclic (cycle path d.name)), memo)
        else
          match Id.run ((d.codecBy table (compileDefinition table (d.name :: path))).run.run
            memo) with
          | (.ok c, between) => (.ok c, (d.name, c) :: between)
          | (.error e, between) => (.error e, between) := by
  have hGet : Id.run ((get : Compile Memo).run.run memo) = (.ok memo, memo) := rfl
  rw [compileDefinition_eq, Compile.run_bind, hGet]
  cases hMemo : List.lookup d.name memo with
  | some c =>
      simp only [hMemo]
      rfl
  | none =>
      simp only [hMemo]
      by_cases hPath : d.name ∈ path
      · rw [if_pos hPath, if_pos hPath]
        rfl
      · rw [if_neg hPath, if_neg hPath, Compile.run_bind]
        rcases Id.run ((d.codecBy table (compileDefinition table (d.name :: path))).run.run memo)
          with ⟨r, between⟩
        cases r <;> rfl

/-- From a memo that is open below `path`, a run has the given outcome and leaves an open memo. -/
def memoized (ds : List Definition) (path : List String) :
    Parallel Compile (Except CompileError) where
  Rel x r := ∀ memo : Memo, memo.Open ds path →
    ∃ memo' : Memo, Id.run (x.run.run memo) = (r, memo') ∧ memo'.Open ds path
  rel_pure _ memo hOpen := ⟨memo, rfl, hOpen⟩
  rel_throw _ memo hOpen := ⟨memo, rfl, hOpen⟩
  rel_bind := by
    intro α β x y f g hx hf memo hOpen
    obtain ⟨between, hRun, hBetween⟩ := hx memo hOpen
    rw [Compile.run_bind, hRun]
    cases y with
    | error e => exact ⟨between, rfl, hBetween⟩
    | ok a => exact hf a between hBetween

/-- **Memoisation is transparent.** From any open memo, a definition that is not shadowed compiles
to what it compiles to without a memo. The induction is on the number of names that are not on the
path. -/
theorem memoized_compileDefinition (table : Table Definition) (path : List String)
    (d : Definition) (hd : d ∈ table.own) :
    (memoized table.own path).Rel (compileDefinition table path d) (plainCodec table path d) := by
  induction hk : table.unseen path using Nat.strongRecOn generalizing path d with
  | _ k ih =>
    subst hk
    intro memo hOpen
    rw [run_compileDefinition]
    cases hMemo : List.lookup d.name memo with
    | some c =>
        obtain ⟨e, he, hOk⟩ := hOpen.plainCodec_eq_ok hMemo
        obtain rfl : d = e := Option.some.inj ((Table.mem_own.mp hd).symm.trans he)
        exact ⟨memo, by rw [hOk], hOpen⟩
    | none =>
        rw [plainCodec_eq]
        by_cases hPath : d.name ∈ path
        · rw [if_pos hPath, if_pos hPath]
          exact ⟨memo, rfl, hOpen⟩
        rw [if_neg hPath, if_neg hPath]
        have hTable : ∀ e ∈ table.own, e ∈ table := fun e he =>
          Table.mem_of_get? (Table.mem_own.mp he)
        have hBelow := (memoized table.own (d.name :: path)).codecBy d fun n e he =>
          ih _ (Table.unseen_cons_lt (hTable d hd) hPath) _ e (Table.mem_own_of_get? he) rfl
        obtain ⟨between, hRun, hBetween⟩ := hBelow memo (hOpen.enter hMemo)
        rw [hRun]
        cases hCodec : d.codecBy table (plainCodec table (d.name :: path)) with
        | error e => exact ⟨between, rfl, hBetween.leave⟩
        | ok c =>
            -- the new entry is the codec of the definition by the memo
            have hSound := sound_compileDefinition hTable (fun n e => Table.mem_own_of_get?)
              (d.name :: path)
            have hGives : Compile.Gives (d.codec (referredField table (d.name :: path))
                (referred table (d.name :: path) (some (.member d.name)))) memo c between := by
              rw [referred_eq, referredField_eq, Compile.Gives]
              rw [hCodec] at hRun
              exact hRun
            obtain ⟨-, -, hHas⟩ := sound_codec d
              (sound_referredField (fun n e => Table.mem_own_of_get?) hSound)
              (sound_referred (fun n e => Table.mem_own_of_get?) hSound _) memo c between
              (hOpen.enter hMemo) hGives
            exact ⟨_, rfl, hBetween.record hd hPath hHas⟩

theorem Memo.Open.nil (ds : List Definition) : Memo.Open ds [] [] := ⟨.nil, by simp⟩

theorem compileOne_eq {table : Table Definition} {d : Definition} (hd : d ∈ table.own) :
    compileOne table d = plainCodec table [] d := by
  obtain ⟨memo, hRun, -⟩ := memoized_compileDefinition table [] d hd [] (.nil _)
  rw [compileOne, hRun]

/-- **Definitions of distinct names compile independently.** -/
theorem compile_eq_mapM {ds : List Definition} (hDistinct : (Order.names ds).Nodup) :
    Schema.compile ds = Schema.mk <$> ds.mapM (compileOne (Table.ofList ds)) := by
  have hAll : (memoized (Table.ofList ds).own []).Rel
      (ds.mapM (compileDefinition (Table.ofList ds) []))
      (ds.mapM (compileOne (Table.ofList ds))) := by
    refine Parallel.mapM _ ds fun d hd => ?_
    have hOwn := Table.mem_own_ofList hDistinct hd
    rw [compileOne_eq hOwn]
    exact memoized_compileDefinition _ [] d hOwn
  obtain ⟨memo, hRun, -⟩ := hAll [] (.nil _)
  rw [Schema.compile, hRun, map_eq_pure_bind]

/-- A schema of distinct names consists of entries of a built memo of unshadowed definitions. -/
theorem compile_open {ds : List Definition} (hDistinct : (Order.names ds).Nodup) {schema : Schema}
    (h : Schema.compile ds = .ok schema) :
    ∃ memo : Memo, memo.Open (Table.ofList ds).own [] ∧
      List.Forall₂ (fun d c => memo.lookup d.name = some c) ds schema.types := by
  obtain ⟨memo, hBuilt, hTypes⟩ := compile_built h
  exact ⟨memo, ⟨hBuilt.mono fun d hd => Table.mem_own_ofList hDistinct hd, by simp⟩, hTypes⟩

/-! ## The recursion stack as state -/

/-- The state of a compiler: its memo table, and its recursion stack, outermost name first. -/
structure Progress where
  compiled : Memo
  inProgress : List String

/-- Compilation with an explicit recursion stack in the state; `none` is out of fuel. -/
abbrev Tracked := ExceptT CompileError (StateT Progress Option)

namespace Tracked

/-- Runs `x` with a name pushed on the recursion stack, and pops it on success and on failure. -/
def within {α : Type} (name : String) (x : Tracked α) : Tracked α := ExceptT.mk do
  modify fun p => { p with inProgress := p.inProgress ++ [name] }
  let outcome ← x.run
  modify fun p => { p with inProgress := p.inProgress.dropLast }
  return outcome

/-- Compiles a definition; the clock is fuel for the recursion. -/
def compile (table : Table Definition) : Nat → Definition → Tracked Codec
  | 0, _ => ExceptT.mk (StateT.lift none)
  | clock + 1, d => do
    let progress ← get
    match progress.compiled.lookup d.name with
    | some c => return c
    | none =>
      if d.name ∈ progress.inProgress then
        throw (.cyclic (progress.inProgress.dropWhile (· ≠ d.name) ++ [d.name]))
      else
        let c ← within d.name (d.codecBy table (compile table clock))
        modify fun p => { p with compiled := (d.name, c) :: p.compiled }
        return c

variable {α β : Type}

theorem run_bind (x : Tracked α) (f : α → Tracked β) (p : Progress) :
    (x >>= f).run.run p = (x.run.run p).bind fun
      | (.ok a, between) => (f a).run.run between
      | (.error e, between) => some (.error e, between) := by
  rw [ExceptT.run_bind, StateT.run_bind]
  refine bind_congr fun r => ?_
  obtain ⟨r, between⟩ := r
  cases r <;> rfl

theorem run_within (name : String) (x : Tracked α) (p : Progress) :
    (within name x).run.run p =
      (x.run.run { p with inProgress := p.inProgress ++ [name] }).bind fun q =>
        some (q.1, { q.2 with inProgress := q.2.inProgress.dropLast }) :=
  rfl

end Tracked

/-- The state with the recursion stack `path`, which has the innermost name first. -/
def Progress.below (path : List String) (memo : Memo) : Progress := ⟨memo, path.reverse⟩

/-- Two runs have the same outcome and the same memo, and the stack is restored. -/
def stacked (path : List String) : Parallel Tracked Compile where
  Rel x y := ∀ memo : Memo, x.run.run (.below path memo) =
    some ((Id.run (y.run.run memo)).1, .below path (Id.run (y.run.run memo)).2)
  rel_pure _ memo := rfl
  rel_throw _ memo := rfl
  rel_bind := by
    intro α β x y f g hx hf memo
    rw [Tracked.run_bind, hx, Compile.run_bind]
    rcases Id.run (y.run.run memo) with ⟨r, between⟩
    cases r with
    | error e => rfl
    | ok a => exact hf a between

/-- The cycle that a name closes, as a suffix of the recursion stack. -/
theorem dropWhile_reverse {path : List String} {name : String} (hNodup : path.Nodup)
    (hMem : name ∈ path) :
    path.reverse.dropWhile (· ≠ name) ++ [name] = cycle path name := by
  obtain ⟨inner, outer, rfl, hInner⟩ := List.eq_append_cons_of_mem hMem
  have hOuter : ∀ m ∈ outer.reverse, decide (m ≠ name) = true := by
    intro m hm
    rw [decide_eq_true_eq]
    rintro rfl
    have hTail := (List.nodup_append.mp hNodup).2.1
    exact (List.nodup_cons.mp hTail).1 (List.mem_reverse.mp hm)
  rw [cycle_append hInner, List.reverse_append, List.reverse_cons, List.append_assoc,
    List.dropWhile_append_of_pos hOuter]
  simp

theorem stacked_within {path : List String} {name : String} {x : Tracked Codec}
    {y : Compile Codec} (h : (stacked (name :: path)).Rel x y) :
    (stacked path).Rel (Tracked.within name x) y := by
  intro memo
  have hEnter : { Progress.below path memo with
      inProgress := (Progress.below path memo).inProgress ++ [name] } =
      Progress.below (name :: path) memo := by
    simp [Progress.below]
  rw [Tracked.run_within, hEnter, h memo]
  simp [Progress.below]

/-- **The recursion stack is restored**, and the two compilers agree. The induction is on the fuel;
a name on the stack is not pushed again, so the stack has no repetitions. -/
theorem stacked_compile (table : Table Definition) (clock : Nat) (path : List String)
    (d : Definition) (hNodup : path.Nodup) (hClock : table.depth path d < clock) :
    (stacked path).Rel (Tracked.compile table clock d) (compileDefinition table path d) := by
  induction clock generalizing path d with
  | zero => omega
  | succ clock ih =>
    intro memo
    have hGet : (get : Tracked Progress).run.run (.below path memo) =
        some (.ok (.below path memo), .below path memo) := rfl
    rw [Tracked.compile, Tracked.run_bind, hGet, Option.bind_some, run_compileDefinition]
    cases hMemo : List.lookup d.name memo with
    | some c =>
        simp only [Progress.below, hMemo]
        rfl
    | none =>
        by_cases hPath : d.name ∈ path
        · simp only [Progress.below, hMemo, List.mem_reverse, hPath, if_true,
            dropWhile_reverse hNodup hPath]
          rfl
        · have hBelow : (stacked (d.name :: path)).Rel
              (d.codecBy table (Tracked.compile table clock))
              (d.codecBy table (compileDefinition table (d.name :: path))) := by
            refine Parallel.codecBy _ d fun n e he => ?_
            have hDepth : table.depth (d.name :: path) e < table.depth path d :=
              Table.depth_lt hPath he
            exact ih (d.name :: path) e (List.nodup_cons.mpr ⟨hPath, hNodup⟩) (by omega)
          simp only [hMemo, Progress.below, List.mem_reverse, hPath, if_false]
          rw [← Progress.below, Tracked.run_bind, stacked_within hBelow memo]
          rcases Id.run ((d.codecBy table (compileDefinition table (d.name :: path))).run.run memo)
            with ⟨r, between⟩
          cases r <;> rfl

/-! ## Calls on one compiler -/

/-- The outcomes of successive calls on one compiler, each with the memo that it leaves. -/
def Memo.calls (table : Table Definition) (memo : Memo) :
    List Definition → List (Except CompileError Codec × Memo)
  | [] => []
  | d :: rest =>
    let call := Id.run ((compileDefinition table [] d).run.run memo)
    call :: Memo.calls table call.2 rest

/-- **The run lemma of calls.** The memo is open between calls, so each call has the outcome it has
without a memo. -/
theorem Memo.Open.outcomes_calls {table : Table Definition} {ds : List Definition}
    (hOwn : ∀ d ∈ ds, d ∈ table.own) {memo : Memo} (hOpen : memo.Open table.own []) :
    (memo.calls table ds).map (·.1) = ds.map (plainCodec table []) := by
  induction ds generalizing memo with
  | nil => rfl
  | cons d ds ih =>
      have hd := hOwn d List.mem_cons_self
      obtain ⟨memo', hRun, hOpen'⟩ := memoized_compileDefinition table [] d hd memo hOpen
      have hLater := ih (fun e he => hOwn e (List.mem_cons_of_mem d he)) hOpen'
      rw [Memo.calls, hRun, List.map_cons, List.map_cons, hLater]

namespace Progress

/-- The outcomes of successive calls on one compiler with a recursion stack, each with the state
that it leaves. Fuel of one more than the length of the table is enough. -/
def calls (table : Table Definition) :
    Progress → List Definition → Option (List (Except CompileError Codec × Progress))
  | _, [] => some []
  | p, d :: rest => do
    let (outcome, after) ← (Tracked.compile table (table.length + 1) d).run.run p
    let later ← calls table after rest
    return (outcome, after) :: later

/-- The recursion stack is empty between calls, and the two compilers agree. -/
theorem calls_eq_some {table : Table Definition} {ds : List Definition}
    (hTable : ∀ d ∈ ds, d ∈ table) (memo : Memo) :
    calls table (below [] memo) ds =
      some ((memo.calls table ds).map fun call => (call.1, below [] call.2)) := by
  induction ds generalizing memo with
  | nil => rfl
  | cons d ds ih =>
      have hClock : table.depth [] d < table.length + 1 := by
        simp [Table.depth, Table.unseen, hTable d List.mem_cons_self]
      rw [calls, stacked_compile table _ [] d List.nodup_nil hClock memo, Option.bind_eq_bind,
        Option.bind_some]
      simp only [ih fun e he => hTable e (List.mem_cons_of_mem d he)]
      rfl

end Progress

/-- **Memoisation is transparent.** Successive calls on one compiler, each on a definition that is
not shadowed, have the outcomes they have on fresh compilers, whatever was compiled and whatever
failed before them. A compiler with an explicit recursion stack has the same outcomes and the same
memos, and its stack is empty between calls. So definitions of distinct names compile to the list of
what they compile to one by one. -/
theorem compiler_calls_transparent :
    (∀ (table : Table Definition) (ds : List Definition),
      (∀ d ∈ ds, table.get? d.name = some d) →
        (Memo.calls table [] ds).map (·.1) = ds.map (compileOne table) ∧
          Progress.calls table ⟨[], []⟩ ds =
            some ((Memo.calls table [] ds).map fun call => (call.1, ⟨call.2, []⟩))) ∧
      ∀ ds : List Definition, (Order.names ds).Nodup →
        Schema.compile ds = Schema.mk <$> ds.mapM (compileOne (Table.ofList ds)) := by
  refine ⟨fun table ds hGet => ⟨?_, ?_⟩, fun ds hDistinct => compile_eq_mapM hDistinct⟩
  · have hOwn : ∀ d ∈ ds, d ∈ table.own := fun d hd => Table.mem_own.mpr (hGet d hd)
    rw [Memo.Open.outcomes_calls hOwn (.nil _)]
    exact List.map_congr_left fun d hd => (compileOne_eq (hOwn d hd)).symm
  · exact Progress.calls_eq_some (fun d hd => Table.mem_of_get? (hGet d hd)) []

namespace Henhouse

def hen : Definition := ⟨"Hen", .object [⟨"lays", .named "Egg" true⟩]⟩

def egg : Definition :=
  ⟨"Egg", .object [⟨"size", .named "Size" true⟩, ⟨"becomes", .named "Hen" false⟩]⟩

def coop : Definition := ⟨"Coop", .object [⟨"sizes", .list (.named "Size" true) false⟩]⟩

def pen : Definition := ⟨"Pen", .union ["Coop", "Nest"]⟩

/-- Hens and eggs refer to each other, and nests to an undefined type. -/
def definitions : List Definition :=
  [hen, egg, coop, pen, ⟨"Nest", .object [⟨"in", .named "Tree" true⟩]⟩, ⟨"Size", .enum ["S", "M"]⟩]

/-- Successive calls, most of which fail. -/
def visits : List Definition := [egg, hen, pen, coop, egg]

/-- Their outcomes: a cycle is reported from where it is entered. -/
def outcomes : List (Except CompileError Codec) :=
  [.error (.cyclic ["Egg", "Hen", "Egg"]), .error (.cyclic ["Hen", "Egg", "Hen"]),
    .error (.unresolved "Tree" none),
    .ok (.named "Coop" (.object [("sizes", .option (.array (.enum "Size" ["S", "M"])))])),
    .error (.cyclic ["Egg", "Hen", "Egg"])]

theorem visits_transparent :
    (∀ d ∈ visits, (Table.ofList definitions).get? d.name = some d) ∧
      (Memo.calls (Table.ofList definitions) [] visits).map (·.1) = outcomes ∧
      Progress.calls (Table.ofList definitions) ⟨[], []⟩ visits =
        some ((Memo.calls (Table.ofList definitions) [] visits).map
          fun call => (call.1, ⟨call.2, []⟩)) ∧
      (Order.names definitions).Nodup ∧
      Schema.compile definitions =
        Schema.mk <$> definitions.mapM (compileOne (Table.ofList definitions)) := by
  have hGet : ∀ d ∈ visits, (Table.ofList definitions).get? d.name = some d := by decide
  have hDistinct : (Order.names definitions).Nodup := by decide
  have hOutcomes : visits.map (compileOne (Table.ofList definitions)) = outcomes := by cbv
  obtain ⟨hCalls, hIdle⟩ := compiler_calls_transparent.1 _ visits hGet
  exact ⟨hGet, hCalls.trans hOutcomes, hIdle, hDistinct,
    compiler_calls_transparent.2 definitions hDistinct⟩

end Henhouse

end GraphCodec
