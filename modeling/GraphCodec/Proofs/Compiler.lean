import GraphCodec.Proofs.Runs
import GraphCodec.Schema.Compiler

/-!
# The specification of the schema compiler

Compilation runs through the definitions with a memo. Two relations describe it without the run.
`HasCodec memo d c` says which codec a definition has when its references denote the entries of a
memo. `Memo.Built` says how a memo grows: each entry is the codec of a definition by the older
entries. So the entries are in an order in which every definition comes after its references
(`Memo.Built.rank_lt`), and a schema that compiles has no cycles.

`compile_built` relates both to the compiler: the types of a compiled schema are entries of a memo
that was built from its definitions.
-/

set_option autoImplicit false

namespace GraphCodec

/-! ## Records of lists -/

namespace Assoc

variable {α : Type}

theorem lookup_foldl_set (pairs acc : List (String × α)) (key : String) :
    (pairs.foldl (fun acc p => set p.1 p.2 acc) acc).lookup key
      = (pairs.reverse.lookup key).or (acc.lookup key) := by
  induction pairs generalizing acc with
  | nil => simp
  | cons p pairs ih =>
      obtain ⟨k, v⟩ := p
      rw [List.foldl_cons, ih, List.reverse_cons, List.lookup_append, Option.or_assoc]
      by_cases h : key = k
      · subst h
        simp [lookup_set_self]
      · have h' : (key == k) = false := by simpa using h
        simp [lookup_set_ne h, List.lookup_cons, h']

/-- The last binding of a key wins. -/
theorem lookup_ofList (pairs : List (String × α)) (key : String) :
    (ofList pairs).lookup key = pairs.reverse.lookup key := by
  rw [ofList, lookup_foldl_set]
  simp

theorem mem_of_mem_set {key : String} {value : α} {l : List (String × α)} {p : String × α}
    (h : p ∈ set key value l) : p = (key, value) ∨ p ∈ l := by
  induction l with
  | nil => exact Or.inl (by simpa [set] using h)
  | cons q rest ih =>
      obtain ⟨k, v⟩ := q
      by_cases hk : k = key
      · simp only [set, hk, if_true, List.mem_cons] at h
        rcases h with h | h
        · exact Or.inl h
        · exact Or.inr (List.mem_cons_of_mem _ h)
      · simp only [set, hk, if_false, List.mem_cons] at h
        rcases h with rfl | h
        · exact Or.inr List.mem_cons_self
        · rcases ih h with h | h
          · exact Or.inl h
          · exact Or.inr (List.mem_cons_of_mem _ h)

theorem mem_foldl_set {pairs acc : List (String × α)} {p : String × α}
    (h : p ∈ pairs.foldl (fun acc p => set p.1 p.2 acc) acc) : p ∈ pairs ∨ p ∈ acc := by
  induction pairs generalizing acc with
  | nil => exact Or.inr h
  | cons q pairs ih =>
      rcases ih h with h | h
      · exact Or.inl (List.mem_cons_of_mem _ h)
      · rcases mem_of_mem_set h with rfl | h
        · exact Or.inl List.mem_cons_self
        · exact Or.inr h

/-- The bindings of a record are among those it is made from. -/
theorem mem_of_mem_ofList {pairs : List (String × α)} {p : String × α}
    (h : p ∈ ofList pairs) : p ∈ pairs := by
  rcases mem_foldl_set h with h | h
  · exact h
  · simp at h

theorem lookup_eq_none {l : List (String × α)} {key : String} :
    l.lookup key = none ↔ key ∉ keys l := by
  rw [List.lookup_eq_none_iff, keys, List.mem_map]
  constructor
  · rintro h ⟨p, hp, rfl⟩
    exact absurd (h p hp) (by simp)
  · intro h p hp
    have hne : key ≠ p.1 := fun he => h ⟨p, hp, he.symm⟩
    simpa using hne

theorem mem_of_lookup {l : List (String × α)} {key : String} {value : α}
    (h : l.lookup key = some value) : (key, value) ∈ l := by
  induction l with
  | nil => simp at h
  | cons p rest ih =>
      obtain ⟨k, v⟩ := p
      by_cases hk : key = k
      · subst hk
        obtain rfl : v = value := by simpa using h
        exact List.mem_cons_self
      · have hk' : (key == k) = false := by simpa using hk
        rw [List.lookup_cons, hk'] at h
        exact List.mem_cons_of_mem _ (ih h)

end Assoc

/-! ## Type references -/

/-- Applies the list and nullable wrappers of a type reference to a codec. -/
def Signature.wrap : Signature → Codec → Codec
  | .named _ nonNull, c => if nonNull then c else .option c
  | .list t nonNull, c => if nonNull then .array (t.wrap c) else .option (.array (t.wrap c))

/-- Resolving a type reference looks up its named type and wraps the codec. -/
theorem Signature.resolve_eq {m : Type → Type} [Monad m] [LawfulMonad m]
    (lookup : String → m Codec) (t : Signature) :
    t.resolve lookup = t.wrap <$> lookup t.base := by
  induction t with
  | named n nonNull =>
      cases nonNull <;> simp only [resolve, base, wrap, map_eq_pure_bind]
  | list t nonNull ih =>
      cases nonNull <;>
        simp only [resolve, base, wrap, ih, map_eq_pure_bind, bind_assoc, pure_bind]

/-! ## The codec of a definition -/

/-- The codec of an object type with given properties. -/
def objectCodec (name : String) (props : List (String × Codec)) : Codec :=
  if name = "Query" then .query name props
  else if name = "Mutation" then .mutation name props
  else .named name (.object props)

@[simp] theorem objectCodec_name (name : String) (props : List (String × Codec)) :
    (objectCodec name props).name = name := by
  unfold objectCodec
  split_ifs <;> rfl

@[simp] theorem objectCodec_props (name : String) (props : List (String × Codec)) :
    (objectCodec name props).props = props := by
  unfold objectCodec
  split_ifs <;> rfl

namespace Definition

section

variable {m : Type → Type} [Monad m] [LawfulMonad m] [MonadExcept CompileError m]
  (field member : String → m Codec)

/-- The properties of the fields, resolved in order. -/
def askFields (fields : List Field) : m (List (String × Codec)) :=
  fields.mapM fun f => (fun b => (f.name, f.type.wrap b)) <$> field f.type.base

theorem codec_object (name : String) (fields : List Field) :
    codec ⟨name, .object fields⟩ field member
      = (fun pairs => objectCodec name (Assoc.ofList pairs)) <$> askFields field fields := by
  simp only [codec, askFields, Signature.resolve_eq, objectCodec, map_eq_pure_bind, bind_assoc,
    pure_bind]

theorem codec_input (name : String) (fields : List Field) :
    codec ⟨name, .input fields⟩ field member
      = (fun pairs => .input name (Assoc.ofList pairs)) <$> askFields field fields := by
  simp only [codec, askFields, Signature.resolve_eq, map_eq_pure_bind, bind_assoc, pure_bind]

theorem codec_union (name : String) (members : List String) :
    codec ⟨name, .union members⟩ field member
      = (fun codecs => .named name (.union codecs)) <$> members.mapM member := by
  simp only [codec, map_eq_pure_bind]

end

/-! ## References

The named type of a field is a built-in scalar if it is named like one, even where the schema
defines the name. A member type is always a type of the schema. -/

/-- The named types of the fields. -/
def fieldTypes (d : Definition) : List String :=
  match d.body with
  | .object fields | .input fields => fields.map (·.type.base)
  | _ => []

/-- The member types of a union. -/
def members (d : Definition) : List String :=
  match d.body with
  | .union members => members
  | _ => []

/-- The references of a definition: the named types of its fields that are not built-in scalars, and
the member types. -/
def references (d : Definition) : List String :=
  d.fieldTypes.filter (fun n => (builtins.lookup n).isNone) ++ d.members

theorem mem_references {d : Definition} {n : String} :
    n ∈ d.references ↔ (n ∈ d.fieldTypes ∧ builtins.lookup n = none) ∨ n ∈ d.members := by
  simp [references]

theorem dependencies_eq (d : Definition) : d.dependencies = d.fieldTypes ++ d.members := by
  obtain ⟨name, body⟩ := d
  cases body <;> simp [dependencies, fieldTypes, members]

/-- A dependency of a definition that is not a built-in scalar is one of its references. -/
theorem mem_references_of_mem_dependencies {d : Definition} {n : String}
    (hn : n ∈ d.dependencies) (hb : builtins.lookup n = none) : n ∈ d.references := by
  rw [dependencies_eq, List.mem_append] at hn
  rcases hn with hn | hn
  · exact mem_references.mpr (Or.inl ⟨hn, hb⟩)
  · exact mem_references.mpr (Or.inr hn)

end Definition

namespace Memo

/-- The codec of the named type of a field: built-in scalars come before the memo. -/
def field? (memo : Memo) (name : String) : Option Codec :=
  match builtins.lookup name with
  | some p => some (.primitive p)
  | none => memo.lookup name

theorem field?_of_not_builtin {memo : Memo} {name : String} (h : builtins.lookup name = none) :
    field? memo name = memo.lookup name := by
  simp [field?, h]

/-- The named type of a field is a built-in scalar or has an entry. -/
theorem field?_eq_some {memo : Memo} {name : String} {c : Codec} :
    memo.field? name = some c ↔ (∃ p, builtins.lookup name = some p ∧ c = .primitive p) ∨
      (builtins.lookup name = none ∧ memo.lookup name = some c) := by
  unfold field?
  cases builtins.lookup name with
  | some p => simp [eq_comm]
  | none => simp

/-- Every entry of `old` is an entry of `new`. -/
def Extends (old new : Memo) : Prop :=
  ∀ n c, old.lookup n = some c → new.lookup n = some c

theorem Extends.refl (memo : Memo) : Extends memo memo := fun _ _ h => h

theorem Extends.trans {a b c : Memo} (h : Extends a b) (h' : Extends b c) : Extends a c :=
  fun n d hd => h' n d (h n d hd)

theorem Extends.field? {old new : Memo} (h : Extends old new) {n : String} {c : Codec}
    (hc : old.field? n = some c) : new.field? n = some c := by
  rcases field?_eq_some.mp hc with hBuiltin | ⟨hNone, hc⟩
  · exact field?_eq_some.mpr (Or.inl hBuiltin)
  · exact field?_eq_some.mpr (Or.inr ⟨hNone, h n c hc⟩)

theorem extends_cons {memo : Memo} {n : String} (c : Codec) (h : memo.lookup n = none) :
    Extends memo ((n, c) :: memo) := by
  intro k d hd
  have hk : (k == n) = false := by
    simp only [beq_eq_false_iff_ne, ne_eq]
    rintro rfl
    rw [h] at hd
    cases hd
  rw [List.lookup_cons, hk]
  exact hd

end Memo

/-- The property of a field by the codecs of a memo. -/
def FieldCodec (memo : Memo) (f : Field) (p : String × Codec) : Prop :=
  ∃ b, memo.field? f.type.base = some b ∧ p = (f.name, f.type.wrap b)

/-- **The codec of a definition by a memo**, which gives the codecs of the types it refers to. A
foreign definition has none. -/
inductive HasCodec (memo : Memo) : Definition → Codec → Prop
  | object {name : String} {fields : List Field} {pairs : List (String × Codec)}
      (h : List.Forall₂ (FieldCodec memo) fields pairs) :
      HasCodec memo ⟨name, .object fields⟩ (objectCodec name (Assoc.ofList pairs))
  | input {name : String} {fields : List Field} {pairs : List (String × Codec)}
      (h : List.Forall₂ (FieldCodec memo) fields pairs) :
      HasCodec memo ⟨name, .input fields⟩ (.input name (Assoc.ofList pairs))
  | union {name : String} {members : List String} {codecs : List Codec}
      (h : List.Forall₂ (fun m c => memo.lookup m = some c) members codecs) :
      HasCodec memo ⟨name, .union members⟩ (.named name (.union codecs))
  | enum (name : String) (values : List String) :
      HasCodec memo ⟨name, .enum values⟩ (.enum name values)
  | scalar (name : String) : HasCodec memo ⟨name, .scalar⟩ (.scalar name)

theorem FieldCodec.mono {old new : Memo} (hExt : old.Extends new) {f : Field}
    {p : String × Codec} (h : FieldCodec old f p) : FieldCodec new f p := by
  obtain ⟨b, hb, hp⟩ := h
  exact ⟨b, hExt.field? hb, hp⟩

theorem HasCodec.mono {old new : Memo} (hExt : old.Extends new) {d : Definition} {c : Codec}
    (h : HasCodec old d c) : HasCodec new d c := by
  cases h with
  | object h => exact .object (h.imp fun _ _ hf => hf.mono hExt)
  | input h => exact .input (h.imp fun _ _ hf => hf.mono hExt)
  | union h => exact .union (h.imp fun _ _ hm => hExt _ _ hm)
  | enum name values => exact .enum name values
  | scalar name => exact .scalar name

theorem HasCodec.name_eq {memo : Memo} {d : Definition} {c : Codec} (h : HasCodec memo d c) :
    c.name = d.name := by
  cases h with
  | object h => exact objectCodec_name _ _
  | input h => rfl
  | union h => rfl
  | enum name values => rfl
  | scalar name => rfl

/-- The references of a definition with a codec have entries. -/
theorem HasCodec.lookup_reference {memo : Memo} {d : Definition} {c : Codec}
    (h : HasCodec memo d c) {n : String} (hn : n ∈ d.references) :
    ∃ e, memo.lookup n = some e := by
  have hFields : ∀ {fields : List Field} {pairs : List (String × Codec)},
      List.Forall₂ (FieldCodec memo) fields pairs → n ∈ fields.map (·.type.base) →
      builtins.lookup n = none → ∃ e, memo.lookup n = some e := by
    intro fields pairs hPairs hMem hb
    obtain ⟨f, hf, rfl⟩ := List.mem_map.mp hMem
    obtain ⟨p, -, b, hLook, -⟩ := exists_right_of_forall₂ hPairs hf
    rw [Memo.field?_of_not_builtin hb] at hLook
    exact ⟨b, hLook⟩
  rcases Definition.mem_references.mp hn with ⟨hField, hb⟩ | hMember
  · cases h with
    | object h => exact hFields h hField hb
    | input h => exact hFields h hField hb
    | _ => simp [Definition.fieldTypes] at hField
  · cases h with
    | union h =>
        obtain ⟨e, -, he⟩ := exists_right_of_forall₂ h hMember
        exact ⟨e, he⟩
    | _ => simp [Definition.members] at hMember

/-! ## Memos built entry by entry -/

/-- **A memo built from definitions.** Each entry is the codec of a definition by the older
entries. -/
inductive Memo.Built (ds : List Definition) : Memo → Prop
  | nil : Memo.Built ds []
  | cons {memo : Memo} {d : Definition} {c : Codec} (h : Memo.Built ds memo) (hd : d ∈ ds)
      (hNew : memo.lookup d.name = none) (hc : HasCodec memo d c) :
      Memo.Built ds ((d.name, c) :: memo)

namespace Memo

/-- Each entry is the codec of a definition by the whole memo. -/
theorem Built.hasCodec {ds : List Definition} {memo : Memo} (h : Built ds memo) {n : String}
    {c : Codec} (hc : memo.lookup n = some c) :
    ∃ d ∈ ds, d.name = n ∧ HasCodec memo d c := by
  induction h with
  | nil => simp at hc
  | @cons memo d e h hd hNew he ih =>
      have hExt : Extends memo ((d.name, e) :: memo) := extends_cons e hNew
      rw [List.lookup_cons] at hc
      by_cases hn : n = d.name
      · subst hn
        obtain rfl : e = c := by simpa using hc
        exact ⟨d, hd, rfl, he.mono hExt⟩
      · have hn' : (n == d.name) = false := by simpa using hn
        rw [hn'] at hc
        obtain ⟨d', hd', hName, hCodec⟩ := ih hc
        exact ⟨d', hd', hName, hCodec.mono hExt⟩

theorem Built.mono {ds ds' : List Definition} {memo : Memo} (h : Built ds memo)
    (hSub : ∀ d ∈ ds, d ∈ ds') : Built ds' memo := by
  induction h with
  | nil => exact .nil
  | cons h hd hNew hc ih => exact .cons ih (hSub _ hd) hNew hc

/-- The position of an entry in a memo, counted from the oldest one; zero for a name without an
entry. -/
def rank : Memo → String → Nat
  | [], _ => 0
  | (k, _) :: memo, n => if k = n then memo.length + 1 else rank memo n

theorem rank_le_length (memo : Memo) (n : String) : rank memo n ≤ memo.length := by
  induction memo with
  | nil => exact Nat.le_refl 0
  | cons p memo ih =>
      obtain ⟨k, c⟩ := p
      simp only [rank, List.length_cons]
      split_ifs <;> omega

/-- **The references of an entry's definition have older entries.** -/
theorem Built.rank_lt {ds : List Definition} {memo : Memo} (h : Built ds memo) {n : String}
    {c : Codec} (hc : memo.lookup n = some c) :
    ∃ d ∈ ds, d.name = n ∧ ∀ m ∈ d.references,
      (∃ e, memo.lookup m = some e) ∧ rank memo m < rank memo n := by
  induction h with
  | nil => simp at hc
  | @cons memo d e h hd hNew he ih =>
      have hExt : Extends memo ((d.name, e) :: memo) := extends_cons e hNew
      -- an entry of the older memo keeps its position
      have hRank : ∀ {m f}, memo.lookup m = some f →
          rank ((d.name, e) :: memo) m = rank memo m := by
        intro m f hm
        have hne : d.name ≠ m := by
          rintro rfl
          rw [hNew] at hm
          cases hm
        simp [rank, hne]
      by_cases hn : n = d.name
      · subst hn
        refine ⟨d, hd, rfl, fun m hm => ?_⟩
        obtain ⟨f, hf⟩ := he.lookup_reference hm
        refine ⟨⟨f, hExt m f hf⟩, ?_⟩
        have hLe := rank_le_length memo m
        rw [hRank hf]
        simp only [rank, if_true]
        omega
      · have hn' : (n == d.name) = false := by simpa using hn
        rw [List.lookup_cons, hn'] at hc
        obtain ⟨d', hd', hName, hDeps⟩ := ih hc
        refine ⟨d', hd', hName, fun m hm => ?_⟩
        obtain ⟨⟨f, hf⟩, hLt⟩ := hDeps m hm
        refine ⟨⟨f, hExt m f hf⟩, ?_⟩
        rw [hRank hf, hRank hc]
        exact hLt

/-- A built memo without entries for `path`, the recursion stack of the compiler. -/
structure Open (ds : List Definition) (path : List String) (memo : Memo) : Prop where
  built : Built ds memo
  fresh : ∀ n ∈ path, memo.lookup n = none

section

variable {ds : List Definition} {path : List String} {memo : Memo}

/-- A name without an entry can be pushed on the path. -/
theorem Open.enter (h : Open ds path memo) {n : String} (hn : memo.lookup n = none) :
    Open ds (n :: path) memo := by
  refine ⟨h.built, fun m hm => ?_⟩
  rcases List.mem_cons.mp hm with rfl | hm
  · exact hn
  · exact h.fresh m hm

theorem Open.leave {n : String} (h : Open ds (n :: path) memo) : Open ds path memo :=
  ⟨h.built, fun m hm => h.fresh m (List.mem_cons_of_mem n hm)⟩

/-- A definition that is popped from the path gets its entry. -/
theorem Open.record {d : Definition} {c : Codec} (h : Open ds (d.name :: path) memo)
    (hd : d ∈ ds) (hPath : d.name ∉ path) (hc : HasCodec memo d c) :
    Open ds path ((d.name, c) :: memo) := by
  refine ⟨.cons h.built hd (h.fresh _ List.mem_cons_self) hc, fun n hn => ?_⟩
  have hne : (n == d.name) = false := by
    simp only [beq_eq_false_iff_ne, ne_eq]
    rintro rfl
    exact hPath hn
  rw [List.lookup_cons, hne]
  exact h.fresh n (List.mem_cons_of_mem _ hn)

end

end Memo

/-! ## The run of the compiler -/

namespace Compile

variable {α β : Type}

/-- `x` succeeds with `b` from the first memo and leaves the second. -/
def Gives (x : Compile β) (memo : Memo) (b : β) (memo' : Memo) : Prop :=
  Id.run (x.run.run memo) = (.ok b, memo')

theorem gives_pure {a b : β} {memo memo' : Memo} :
    Gives (pure a) memo b memo' ↔ a = b ∧ memo = memo' := by
  simp [Gives]

theorem run_bind (x : Compile α) (f : α → Compile β) (memo : Memo) :
    Id.run ((x >>= f).run.run memo)
      = match Id.run (x.run.run memo) with
        | (.ok a, between) => Id.run ((f a).run.run between)
        | (.error e, between) => (.error e, between) := by
  simp only [ExceptT.run_bind, StateT.run_bind, Id.run_bind]
  rcases Id.run (x.run.run memo) with ⟨r, between⟩
  cases r <;> rfl

theorem gives_bind {x : Compile α} {f : α → Compile β} {memo memo' : Memo} {b : β} :
    Gives (x >>= f) memo b memo' ↔
      ∃ a between, Gives x memo a between ∧ Gives (f a) between b memo' := by
  unfold Gives
  rw [run_bind]
  rcases Id.run (x.run.run memo) with ⟨r, between⟩
  cases r with
  | error e => simp
  | ok a =>
      constructor
      · intro h
        exact ⟨a, between, rfl, h⟩
      · rintro ⟨a', between', hx, hf⟩
        cases hx
        exact hf

theorem gives_map {x : Compile α} {f : α → β} {memo memo' : Memo} {b : β} :
    Gives (f <$> x) memo b memo' ↔ ∃ a, Gives x memo a memo' ∧ f a = b := by
  rw [map_eq_pure_bind, gives_bind]
  constructor
  · rintro ⟨a, between, hx, hPure⟩
    obtain ⟨rfl, rfl⟩ := gives_pure.mp hPure
    exact ⟨a, hx, rfl⟩
  · rintro ⟨a, hx, rfl⟩
    exact ⟨a, memo', hx, gives_pure.mpr ⟨rfl, rfl⟩⟩

theorem not_gives_throw {e : CompileError} {memo memo' : Memo} {b : β} :
    ¬ Gives (throw e : Compile β) memo b memo' := by
  simp [Gives]

theorem gives_get {memo memo' m : Memo} :
    Gives get memo m memo' ↔ m = memo ∧ memo' = memo := by
  constructor
  · intro h
    cases h
    exact ⟨rfl, rfl⟩
  · rintro ⟨rfl, rfl⟩
    rfl

theorem gives_modify {f : Memo → Memo} {memo memo' : Memo} {u : PUnit} :
    Gives (modify f) memo u memo' ↔ memo' = f memo := by
  constructor
  · intro h
    cases h
    rfl
  · rintro rfl
    rfl

/-- `x` keeps a memo open below `path`, extends it, and its result satisfies `post` in the memo it
leaves. -/
def Sound (ds : List Definition) (path : List String) (x : Compile β)
    (post : Memo → β → Prop) : Prop :=
  ∀ memo b memo', memo.Open ds path → Gives x memo b memo' →
    memo'.Open ds path ∧ memo.Extends memo' ∧ post memo' b

variable {ds : List Definition} {path : List String}

theorem sound_pure {b : β} {post : Memo → β → Prop} (h : ∀ memo, post memo b) :
    Sound ds path (pure b) post := by
  intro memo b' memo' hOpen hGives
  obtain ⟨rfl, rfl⟩ := gives_pure.mp hGives
  exact ⟨hOpen, .refl memo, h memo⟩

theorem Sound.map {x : Compile α} {post : Memo → α → Prop} (h : Sound ds path x post)
    (f : α → β) : Sound ds path (f <$> x) fun memo b => ∃ a, post memo a ∧ b = f a := by
  intro memo b memo' hOpen hGives
  obtain ⟨a, hx, rfl⟩ := gives_map.mp hGives
  obtain ⟨hOpen', hExt, hPost⟩ := h memo a memo' hOpen hx
  exact ⟨hOpen', hExt, a, hPost, rfl⟩

theorem sound_mapM {f : α → Compile β} {post : Memo → α → β → Prop} (l : List α)
    (hMono : ∀ {old new : Memo} {a b}, old.Extends new → post old a b → post new a b)
    (h : ∀ a ∈ l, Sound ds path (f a) fun memo => post memo a) :
    Sound ds path (l.mapM f) fun memo => List.Forall₂ (post memo) l := by
  induction l with
  | nil => exact sound_pure fun _ => .nil
  | cons a l ih =>
      intro memo r memo' hOpen hGives
      rw [List.mapM_cons] at hGives
      obtain ⟨b, between, hHead, hRest⟩ := gives_bind.mp hGives
      obtain ⟨bs, between', hTail, hPure⟩ := gives_bind.mp hRest
      obtain ⟨rfl, rfl⟩ := gives_pure.mp hPure
      obtain ⟨hOpen₁, hExt₁, hb⟩ := h a (by simp) memo b between hOpen hHead
      obtain ⟨hOpen₂, hExt₂, hbs⟩ :=
        ih (fun a' ha' => h a' (by simp [ha'])) between bs between' hOpen₁ hTail
      exact ⟨hOpen₂, hExt₁.trans hExt₂, .cons (hMono hExt₂ hb) hbs⟩

end Compile

open Compile

theorem sound_askFields {ds : List Definition} {path : List String}
    {field : String → Compile Codec}
    (hField : ∀ n, Sound ds path (field n) fun memo c => memo.field? n = some c)
    (fields : List Field) :
    Sound ds path (Definition.askFields field fields) fun memo =>
      List.Forall₂ (FieldCodec memo) fields := by
  refine sound_mapM fields (fun hExt h => h.mono hExt) fun f _ => ?_
  intro memo p memo' hOpen hGives
  obtain ⟨hOpen', hExt, b, hb, hp⟩ :=
    (hField f.type.base).map (fun b => (f.name, f.type.wrap b)) memo p memo' hOpen hGives
  exact ⟨hOpen', hExt, b, hb, hp⟩

/-- `Definition.codec` returns the codec that the definition has by the memo it leaves. -/
theorem sound_codec {ds : List Definition} {path : List String}
    {field member : String → Compile Codec} (d : Definition)
    (hField : ∀ n, Sound ds path (field n) fun memo c => memo.field? n = some c)
    (hMember : ∀ n, Sound ds path (member n) fun memo c => memo.lookup n = some c) :
    Sound ds path (d.codec field member) fun memo c => HasCodec memo d c := by
  obtain ⟨name, body⟩ := d
  intro memo c memo' hOpen hGives
  cases body with
  | object fields =>
      rw [Definition.codec_object] at hGives
      obtain ⟨hOpen', hExt, pairs, hPairs, rfl⟩ :=
        (sound_askFields hField fields).map _ memo c memo' hOpen hGives
      exact ⟨hOpen', hExt, .object hPairs⟩
  | input fields =>
      rw [Definition.codec_input] at hGives
      obtain ⟨hOpen', hExt, pairs, hPairs, rfl⟩ :=
        (sound_askFields hField fields).map _ memo c memo' hOpen hGives
      exact ⟨hOpen', hExt, .input hPairs⟩
  | union members =>
      rw [Definition.codec_union] at hGives
      have hAll : Sound ds path (members.mapM member) fun memo =>
          List.Forall₂ (fun m c => memo.lookup m = some c) members :=
        sound_mapM members (fun hExt h => hExt _ _ h) fun n _ => hMember n
      obtain ⟨hOpen', hExt, codecs, hCodecs, rfl⟩ := hAll.map _ memo c memo' hOpen hGives
      exact ⟨hOpen', hExt, .union hCodecs⟩
  | enum values =>
      obtain ⟨rfl, rfl⟩ := gives_pure.mp hGives
      exact ⟨hOpen, .refl _, .enum name values⟩
  | scalar =>
      obtain ⟨rfl, rfl⟩ := gives_pure.mp hGives
      exact ⟨hOpen, .refl _, .scalar name⟩
  | foreign kind => exact absurd hGives not_gives_throw

/-- Compiles the definition of a name below `path`. -/
def referred (table : Table Definition) (path : List String) (site : Option Site) (n : String) :
    Compile Codec :=
  match _he : table.get? n with
  | none => throw (.unresolved n site)
  | some e => compileDefinition table path e

/-- Compiles the named type of a field below `path`. -/
def referredField (table : Table Definition) (path : List String) (n : String) : Compile Codec :=
  match builtins.lookup n with
  | some p => pure (.primitive p)
  | none => referred table path none n

/-- The cycle that a name closes ends at the innermost occurrence of the name on the path. -/
theorem cycle_append {name : String} {inner : List String} (hInner : name ∉ inner)
    (outer : List String) :
    cycle (inner ++ name :: outer) name = name :: inner.reverse ++ [name] := by
  have hOther : ∀ m ∈ inner, decide (m ≠ name) = true := by
    intro m hm
    rw [decide_eq_true_eq]
    rintro rfl
    exact hInner hm
  rw [cycle, List.takeWhile_append_of_pos hOther]
  simp

/-- A definition compiles to its entry, or to a codec that becomes its entry. -/
theorem gives_compileDefinition {table : Table Definition} {path : List String} {d : Definition}
    {memo memo' : Memo} {c : Codec} (h : Gives (compileDefinition table path d) memo c memo') :
    (memo.lookup d.name = some c ∧ memo' = memo) ∨
      (memo.lookup d.name = none ∧ d.name ∉ path ∧ ∃ between,
        Gives (d.codec (referredField table (d.name :: path))
          (referred table (d.name :: path) (some (.member d.name)))) memo c between ∧
        memo' = (d.name, c) :: between) := by
  rw [compileDefinition] at h
  obtain ⟨memo, between, hGet, hRest⟩ := gives_bind.mp h
  obtain ⟨rfl, rfl⟩ := gives_get.mp hGet
  cases hMemo : List.lookup d.name between with
  | some e =>
      simp only [hMemo] at hRest
      obtain ⟨rfl, rfl⟩ := gives_pure.mp hRest
      exact Or.inl ⟨rfl, rfl⟩
  | none =>
      simp only [hMemo] at hRest
      split at hRest
      · exact absurd hRest not_gives_throw
      · rename_i hPath
        obtain ⟨e, between', hCodec, hRest⟩ := gives_bind.mp hRest
        obtain ⟨u, between'', hModify, hPure⟩ := gives_bind.mp hRest
        obtain ⟨rfl, rfl⟩ := gives_pure.mp hPure
        exact Or.inr ⟨rfl, hPath, between', hCodec, gives_modify.mp hModify⟩

section

variable {table : Table Definition} {ds : List Definition} {path : List String}

theorem sound_referred (hGet : ∀ n e, table.get? n = some e → e ∈ ds)
    (h : ∀ e ∈ ds, Sound ds path (compileDefinition table path e) fun memo c =>
      memo.lookup e.name = some c) (site : Option Site) (n : String) :
    Sound ds path (referred table path site n) fun memo c => memo.lookup n = some c := by
  unfold referred
  split
  · exact fun _ _ _ _ hThrow => absurd hThrow not_gives_throw
  · rename_i e he
    obtain rfl : e.name = n := Table.name_of_get? he
    exact h e (hGet _ e he)

theorem sound_referredField (hGet : ∀ n e, table.get? n = some e → e ∈ ds)
    (h : ∀ e ∈ ds, Sound ds path (compileDefinition table path e) fun memo c =>
      memo.lookup e.name = some c) (n : String) :
    Sound ds path (referredField table path n) fun memo c => memo.field? n = some c := by
  unfold referredField Memo.field?
  cases builtins.lookup n with
  | some p => exact sound_pure fun _ => rfl
  | none => exact sound_referred hGet h none n

end

/-- **The step lemma of compilation.** The table has only definitions of `ds`. The induction is on
the number of names that are not on the path; a definition gets its entry last, when its name still
has none. -/
theorem sound_compileDefinition {table : Table Definition} {ds : List Definition}
    (hTable : ∀ d ∈ ds, d ∈ table) (hGet : ∀ n e, table.get? n = some e → e ∈ ds)
    (path : List String) (d : Definition) (hd : d ∈ ds) :
    Sound ds path (compileDefinition table path d) fun memo c =>
      memo.lookup d.name = some c := by
  induction hk : table.unseen path using Nat.strongRecOn generalizing path d with
  | _ k ih =>
    subst hk
    intro memo c memo' hOpen hGives
    rcases gives_compileDefinition hGives with
      ⟨hMemo, rfl⟩ | ⟨hMemo, hPath, between, hCodec, rfl⟩
    · exact ⟨hOpen, .refl _, hMemo⟩
    have hBelow : ∀ e ∈ ds, Sound ds (d.name :: path)
        (compileDefinition table (d.name :: path) e) fun memo c => memo.lookup e.name = some c :=
      fun e he => ih _ (Table.unseen_cons_lt (hTable d hd) hPath) _ e he rfl
    -- while its body compiles, the definition is on the path, so nothing below takes its name
    obtain ⟨hDone, hExt, hHas⟩ := sound_codec d (sound_referredField hGet hBelow)
      (sound_referred hGet hBelow _) memo c between (hOpen.enter hMemo) hCodec
    have hNew : between.lookup d.name = none := hDone.fresh _ List.mem_cons_self
    exact ⟨hDone.record hd hPath hHas, hExt.trans (Memo.extends_cons c hNew), by simp⟩

/-- **The types of a compiled schema are entries of a built memo**, definition by definition. -/
theorem compile_built {ds : List Definition} {schema : Schema}
    (h : Schema.compile ds = .ok schema) :
    ∃ memo, Memo.Built ds memo ∧
      List.Forall₂ (fun d c => List.lookup d.name memo = some c) ds schema.types := by
  unfold Schema.compile at h
  obtain ⟨types, hTypes, hSchema⟩ := bind_eq_ok.mp h
  cases hSchema
  generalize hRun : Id.run ((ds.mapM (compileDefinition (Table.ofList ds) [])).run.run [])
    = result at hTypes
  obtain ⟨r, memo⟩ := result
  obtain rfl : r = .ok types := hTypes
  have hSound : Sound ds [] (ds.mapM (compileDefinition (Table.ofList ds) [])) fun memo =>
      List.Forall₂ (fun d c => List.lookup d.name memo = some c) ds :=
    sound_mapM ds (fun hExt hd => hExt _ _ hd) fun d hd =>
      sound_compileDefinition (fun e he => by simpa [Table.ofList] using he)
        (fun n e he => by simpa [Table.ofList] using Table.mem_of_get? he) [] d hd
  obtain ⟨hOpen, -, hAll⟩ := hSound [] types memo ⟨.nil, by simp⟩ hRun
  exact ⟨memo, hOpen.built, hAll⟩

end GraphCodec
