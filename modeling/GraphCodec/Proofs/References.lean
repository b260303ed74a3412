import GraphCodec.Proofs.Layout
import GraphCodec.Proofs.Order
import GraphCodec.Proofs.Pieces
import GraphCodec.Proofs.Selection

/-!
# Definition before use

The exports of a module are evaluated from top to bottom, so an identifier can be used only after
its export. Three passes have a part in this. Sorting is topological, except inside cycles; the
compiler rejects cycles, which shows in the ranks of its memo; and the references of the printer are
among the dependencies that these two have seen. Together every reference is to an earlier export
(`backward_ofCodecs`), and the rendered text prints the exports in that order
(`Generator.laidOut_of_render`).
-/

set_option autoImplicit false

namespace GraphCodec

open Relation Codec

/-! ## References of compiled definitions -/

theorem not_refers_primitive {mode : Mode} {p : Primitive} {r : Codec} :
    ¬ Refers mode (.primitive p) r := by
  simp [refers_iff, Prints, pieces, Codec.name, Codec.name?]

/-- Wrappers keep the references of a codec. -/
@[simp] theorem Signature.refers_wrap (t : Signature) {mode : Mode} {c r : Codec} :
    Refers mode (t.wrap c) r ↔ Refers mode c r := by
  have hArray : ∀ d, Refers mode (.array d) r ↔ Refers mode d r := by
    intro d
    rw [refers_iff, if_pos (show (Codec.array d).name = "" from rfl), Prints, pieces,
      Piece.reference_mem_enclosed]
    simp [Refers]
  have hOption : ∀ d, Refers mode (.option d) r ↔ Refers mode d r := by
    intro d
    rw [refers_iff, if_pos (show (Codec.option d).name = "" from rfl), Prints, pieces,
      Piece.reference_mem_option, Refers]
  induction t with
  | named n nonNull => cases nonNull <;> simp [wrap, hOption]
  | list t nonNull ih => cases nonNull <;> simp [wrap, hArray, hOption, ih]

/-- A reference of the codec of a definition is a reference of the operand of a dependency. -/
theorem HasCodec.refers_dependency {memo : Memo} {d : Definition} {c r : Codec} {mode : Mode}
    (h : HasCodec memo d c) (hr : Prints mode c r) :
    ∃ n ∈ d.dependencies, ∃ b, memo.lookup n = some b ∧ Refers mode b r := by
  have hProps : (∃ p ∈ c.props, Refers mode p.2 r) →
      ∃ n ∈ d.dependencies, ∃ b, memo.lookup n = some b ∧ Refers mode b r := by
    rintro ⟨p, hp, hRefers⟩
    obtain ⟨sig, b, hBase, hb, hp'⟩ := h.mem_props hp
    rw [hp', Signature.refers_wrap] at hRefers
    rcases Memo.field?_eq_some.mp hb with ⟨p, -, rfl⟩ | ⟨-, hb⟩
    · exact absurd hRefers not_refers_primitive
    · exact ⟨sig.base, hBase, b, hb, hRefers⟩
  cases h with
  | @object name fields pairs h =>
      refine hProps ((prints_of_listed ?_).mp hr)
      unfold objectCodec
      split_ifs <;> rfl
  | @input name fields pairs h =>
      exact hProps ((prints_of_listed rfl).mp hr)
  | @union name members codecs h =>
      obtain ⟨m, hm, hRefers⟩ := prints_union.mp hr
      obtain ⟨k, hk, hLook⟩ := exists_left_of_forall₂ h hm
      exact ⟨k, hk, m, hLook, hRefers⟩
  | enum name values => simp [Prints, pieces] at hr
  | scalar name => simp [Prints, pieces] at hr

/-! ## Sorted definitions -/

/-- **Sorted definitions and the codecs they compile to**, none of them named like a built-in
scalar. -/
structure Compiled (ds : List Definition) (memo : Memo) (types : List Codec) : Prop where
  built : memo.Built ds
  types : List.Forall₂ (fun d c => memo.lookup d.name = some c) ds types
  nodup : (Order.names ds).Nodup
  own : ∀ d ∈ ds, builtins.lookup d.name = none
  first : ∀ before d after, ds = before ++ d :: after → ∀ n ∈ d.dependencies,
    n ∈ Order.names ds →
      n ∈ Order.names before ∨ ReflTransGen (Order.Mentions ds) n d.name

namespace Compiled

variable {ds : List Definition} {memo : Memo} {types : List Codec}

theorem mem_names (h : Compiled ds memo types) {n : String} {c : Codec}
    (hc : memo.lookup n = some c) : n ∈ Order.names ds := by
  obtain ⟨d, hd, hName, -⟩ := h.built.hasCodec hc
  exact Order.mem_names.mpr ⟨d, hd, hName⟩

/-- The dependencies of a definition have older entries. -/
theorem rank_lt (h : Compiled ds memo types) {m n : String} (hMentions : Order.Mentions ds m n)
    (hn : n ∈ Order.names ds) : memo.rank n < memo.rank m := by
  obtain ⟨a, ha, rfl, hDep⟩ := hMentions
  obtain ⟨c, -, hc⟩ := exists_right_of_forall₂ h.types ha
  obtain ⟨d, hd, hName, hOlder⟩ := h.built.rank_lt hc
  -- names are distinct, so the entry was made from this very definition
  obtain rfl : d = a := List.inj_on_of_nodup_map h.nodup hd ha hName
  obtain ⟨e, he, rfl⟩ := Order.mem_names.mp hn
  exact (hOlder _ (Definition.mem_references_of_mem_dependencies hDep (h.own e he))).2

theorem rank_le (h : Compiled ds memo types) {m n : String}
    (hLeads : ReflTransGen (Order.Mentions ds) m n) (hn : n ∈ Order.names ds) :
    memo.rank n ≤ memo.rank m := by
  induction hLeads with
  | refl => exact Nat.le_refl _
  | @tail k l hLeads hStep ih =>
      have hMiddle : k ∈ Order.names ds := by
        obtain ⟨a, ha, hName, -⟩ := hStep
        exact Order.mem_names.mpr ⟨a, ha, hName⟩
      have hLt := h.rank_lt hStep hn
      have hLe := ih hMiddle
      omega

/-- **The compiled definitions have no cycles**, so a dependency of a definition comes before it. -/
theorem dependency_before (h : Compiled ds memo types) {before after : List Definition}
    {d : Definition} (hSplit : ds = before ++ d :: after) {n : String}
    (hDep : n ∈ d.dependencies) (hn : n ∈ Order.names ds) : n ∈ Order.names before := by
  have hd : d ∈ ds := by simp [hSplit]
  rcases h.first before d after hSplit n hDep hn with hBefore | hLeads
  · exact hBefore
  -- a path back would make the rank of a name smaller than itself
  · have hLt := h.rank_lt ⟨d, hd, rfl, hDep⟩ hn
    have hLe : memo.rank d.name ≤ memo.rank n :=
      h.rank_le hLeads (Order.mem_names.mpr ⟨d, hd, rfl⟩)
    exact absurd hLt (Nat.not_lt.mpr hLe)

/-- **The references of a type export are to earlier types.** -/
theorem prints_before (h : Compiled ds memo types) {mode : Mode} {before after : List Codec}
    {c r : Codec} (hSplit : types = before ++ c :: after) (hr : Prints mode c r) :
    r ∈ before := by
  -- an anonymous dependency is printed, and so are its own references in turn
  induction hk : before.length using Nat.strongRecOn generalizing before c after with
  | _ k ih =>
    subst hk
    have hTypes := h.types
    rw [hSplit] at hTypes
    obtain ⟨dsBefore, d, dsAfter, hDs, hBefore, hd⟩ := exists_split_of_forall₂ hTypes
    obtain ⟨d', hd', hName, hCodec⟩ := h.built.hasCodec hd
    obtain rfl : d' = d := List.inj_on_of_nodup_map h.nodup hd' (by simp [hDs]) hName
    obtain ⟨n, hDep, b, hb, hRefers⟩ := hCodec.refers_dependency hr
    obtain ⟨e, he, rfl⟩ :=
      Order.mem_names.mp (h.dependency_before hDs hDep (h.mem_names hb))
    obtain ⟨b', hb', hLook⟩ := exists_right_of_forall₂ hBefore he
    obtain rfl : b = b' := Option.some.inj (hb.symm.trans hLook)
    rw [refers_iff] at hRefers
    split_ifs at hRefers with hEmpty
    · obtain ⟨older, newer, rfl⟩ := List.append_of_mem hb'
      have hSplit' : types = older ++ b :: (newer ++ c :: after) := by simp [hSplit]
      exact List.mem_append_left _ (ih older.length (by simp) hSplit' hRefers rfl)
    · rw [hRefers]
      exact hb'

theorem refers_mem (h : Compiled ds memo types) {mode : Mode} {c r : Codec} (hc : c ∈ types)
    (hr : Refers mode c r) : r ∈ types := by
  rw [refers_iff] at hr
  split_ifs at hr with hEmpty
  · obtain ⟨before, after, hSplit⟩ := List.append_of_mem hc
    rw [hSplit]
    exact List.mem_append_left _ (h.prints_before hSplit hr)
  · rw [hr]
    exact hc

theorem refers_knows {schema : Schema} (h : Compiled ds memo schema.types) {mode : Mode}
    {c r : Codec} (hc : schema.Knows c) (hr : Refers mode c r) : r ∈ schema.types := by
  rcases hc with ⟨p, rfl⟩ | hc
  · exact absurd hr not_refers_primitive
  · exact h.refers_mem hc hr

end Compiled

/-! ## References of operations -/

theorem Schema.knows_of_inputs {schema : Schema} {n : String} {c : Codec}
    (h : schema.inputs.lookup n = some c) : schema.Knows c := by
  rw [Schema.inputs_eq] at h
  rcases List.mem_append.mp (Assoc.mem_of_mem_ofList (Assoc.mem_of_lookup h)) with hBuiltin | hOwn
  · obtain ⟨⟨k, p⟩, -, hp⟩ := List.mem_map.mp hBuiltin
    cases hp
    exact Or.inl ⟨p, rfl⟩
  · exact Or.inr (Schema.mem_ownInputs hOwn).1

/-- The variables form an input object with one property for each variable definition. -/
theorem Operation.variablesCodec_eq_ok {op : Operation} {inputs : List (String × Codec)}
    {c : Codec} (h : op.variablesCodec inputs = .ok c) :
    ∃ name pairs, c = .input name (Assoc.ofList pairs) ∧
      List.Forall₂ (fun v p => ∃ b, inputs.lookup v.type.base = some b ∧
        p = (v.name, v.type.wrap b)) op.vars pairs := by
  obtain ⟨name, -, hRest⟩ := bind_eq_ok.mp h
  obtain ⟨pairs, hPairs, hc⟩ := bind_eq_ok.mp hRest
  cases hc
  refine ⟨name, pairs, rfl, (mapM_eq_ok.mp hPairs).imp ?_⟩
  intro v p hp
  rw [Signature.resolve_eq] at hp
  obtain ⟨t, ht, hPair⟩ := bind_eq_ok.mp hp
  cases hPair
  cases hLook : inputs.lookup v.type.base with
  | none =>
      rw [hLook] at ht
      cases ht
  | some b =>
      rw [hLook] at ht
      cases ht
      exact ⟨b, rfl, rfl⟩

namespace Selections

variable {mode : Mode} {r : Codec}

theorem not_refers_typename {n : String} : ¬ Refers mode (.typename n) r := by
  intro h
  obtain ⟨p, hp, hRefers⟩ := (prints_of_listed rfl).mp (h.prints rfl)
  obtain rfl := List.mem_singleton.mp hp
  simpa [Prints, pieces] using hRefers.prints rfl

theorem not_refers_pick {n : String} {fields : List String} :
    ¬ Refers mode (.pick n fields) r := by
  intro h
  simpa [Prints, pieces] using h.prints rfl

theorem not_refers_wholeField {parent : Codec} {name : String} :
    ¬ Refers mode (wholeField parent name) r := by
  intro h
  obtain ⟨t, ht, hRefers⟩ := prints_intersection.mp (h.prints rfl)
  rcases List.mem_cons.mp ht with rfl | ht
  · exact not_refers_typename hRefers
  · obtain rfl := List.mem_singleton.mp ht
    exact not_refers_pick hRefers

/-- The references of a selection set are those of its nested fields. -/
theorem BodyCodec.refers {field : Codec → Selection → Codec → Prop} {type c : Codec}
    {selections : List Selection} (h : BodyCodec field type selections c)
    (hr : Refers mode c r) : ∃ s d, field type s d ∧ Refers mode d r := by
  obtain ⟨nested, hNested, rfl⟩ := h
  obtain ⟨t, ht, hRefers⟩ := prints_intersection.mp (hr.prints rfl)
  rcases List.mem_cons.mp ht with rfl | ht
  · exact absurd hRefers not_refers_typename
  rcases List.mem_cons.mp ht with rfl | ht
  · exact absurd hRefers not_refers_pick
  obtain ⟨s, -, type', hField, rfl⟩ := exists_left_of_forall₂ hNested ht
  obtain ⟨p, hp, hRefers⟩ := (prints_of_listed rfl).mp (hRefers.prints rfl)
  obtain rfl := List.mem_singleton.mp hp
  exact ⟨s, type', hField, hRefers⟩

/-- The references of a field selection are types of the schema. -/
theorem Compiles.refers_mem {ds : List Definition} {memo : Memo} {schema : Schema}
    (hClosed : schema.Closed) (hCompiled : Compiled ds memo schema.types) {parent c : Codec}
    {s : Selection} (h : Compiles parent s c) (hParent : schema.Knows parent)
    (hr : Refers mode c r) : r ∈ schema.types := by
  refine Compiles.induct (motive := fun parent _ c => schema.Knows parent → Refers mode c r →
    r ∈ schema.types) ?_ h hParent hr
  clear h hParent hr
  intro parent s c hField hExit hParent hr
  cases hExit with
  | scalar hType hCheck hCore =>
      obtain ⟨sig, hSig, -, hKnows⟩ := hClosed.lookup_prop hParent hType
      rw [hSig, Signature.refers_wrap] at hr
      exact hCompiled.refers_knows hKnows hr
  | whole hType hCheck hCore hNone hBare => exact absurd hr not_refers_wholeField
  | @object type body hType hCheck hCore hNone hBare hBody =>
      obtain ⟨sig, -, hReplace, hKnows⟩ := hClosed.lookup_prop hParent hType
      rw [hReplace, Signature.refers_wrap] at hr
      obtain ⟨t, d, ⟨-, hMotive⟩, hd⟩ := hBody.refers hr
      exact hMotive hKnows hd
  | @union type union members codecs hType hCheck hCore hSome hCover hMembers =>
      obtain ⟨sig, -, hReplace, hKnows⟩ := hClosed.lookup_prop hParent hType
      rw [hReplace, Signature.refers_wrap] at hr
      obtain ⟨codec, hCodec, hRefers⟩ := prints_union.mp (hr.prints rfl)
      obtain ⟨m, hm, inner, -, -, hBody⟩ := exists_left_of_forall₂ hMembers hCodec
      obtain ⟨t, d, ⟨-, hMotive⟩, hd⟩ := hBody.refers hRefers
      rw [hCore] at hKnows
      exact hMotive (hClosed.knows_member hKnows hm) hd

end Selections

/-- The sections of a module. -/
inductive BlockKind where
  | type | variables | selection
  deriving DecidableEq

/-- **An export of a module**, with the pieces of its expression. -/
structure Block where
  kind : BlockKind
  exported : Export
  pieces : List Piece
  spells : Piece.join pieces = exported.codec

namespace Block

/-- The block of a named codec. -/
def ofCodec (kind : BlockKind) (mode : Mode) (c : Codec) : Block :=
  ⟨kind, .ofCodec mode c, c.pieces mode, Codec.join_pieces mode c⟩

/-- The block of a schema type. -/
def ofType : Codec → Block
  | .input n ps => ofCodec .type .input (.input n ps)
  | c => ofCodec .type .output c

def ofVariables (c : Codec) : Block := ofCodec .variables .input c

def ofSelection (c : Codec) : Block where
  kind := .selection
  exported := .ofSelection c
  pieces := Piece.enclosed "t.type(\x7b data: " "" " \x7d)" [c.pieces .output]
  spells := by
    rw [Piece.join_enclosed, List.map_singleton, Codec.join_pieces, String.intercalate_singleton]
    rfl

/-- The blocks of a module, in order. -/
def ofCodecs (types : List Codec) (operations : List (Codec × Codec)) : List Block :=
  types.map ofType ++ (operations.map (ofVariables ·.1) ++ operations.map (ofSelection ·.2))

theorem ofType_eq (c : Codec) : ∃ mode, ofType c = ofCodec .type mode c := by
  unfold ofType
  split
  · exact ⟨.input, rfl⟩
  · exact ⟨.output, rfl⟩

@[simp] theorem ofType_exported (c : Codec) : (ofType c).exported = .ofType c := by
  cases c <;> rfl

end Block

theorem Operation.codecs_eq_ok {op : Operation} {schema : Schema} {p : Codec × Codec} :
    op.codecs schema = .ok p ↔ op.variablesCodec schema.inputs = .ok p.1 ∧
      ∃ root, op.root schema = .ok root ∧ op.selectionCodec root = .ok p.2 := by
  unfold Operation.codecs
  constructor
  · intro h
    obtain ⟨vars, hVars, h⟩ := bind_eq_ok.mp h
    obtain ⟨root, hRoot, h⟩ := bind_eq_ok.mp h
    obtain ⟨selection, hSelection, hp⟩ := bind_eq_ok.mp h
    cases hp
    exact ⟨hVars, root, hRoot, hSelection⟩
  · rintro ⟨hVars, root, hRoot, hSelection⟩
    exact bind_eq_ok.mpr ⟨_, hVars, bind_eq_ok.mpr ⟨_, hRoot, bind_eq_ok.mpr ⟨_, hSelection, rfl⟩⟩⟩

theorem Generator.compile_eq_ok {g : Generator} {m : CodecModule} :
    g.compile = .ok m ↔ ∃ schema operations, compileDefinitions g.definitions = .ok schema ∧
      g.operations.mapM (·.codecs schema) = .ok operations ∧
      m = .ofCodecs schema.types operations := by
  rw [Generator.compile, compileModule, bind_eq_ok]
  constructor
  · rintro ⟨schema, hSchema, h⟩
    obtain ⟨operations, hOps, hm⟩ := bind_eq_ok.mp h
    cases hm
    exact ⟨schema, operations, hSchema, hOps, rfl⟩
  · rintro ⟨schema, operations, hSchema, hOps, rfl⟩
    exact ⟨schema, hSchema, bind_eq_ok.mpr ⟨operations, hOps, rfl⟩⟩

def Board.generator : Generator := ⟨Board.definitions, [Board.operation], {}, none⟩

/-- The template engine that returns its source. -/
def Board.engine : TemplateEngine := fun _ source _ _ _ => .ok source

/-- An empty file system. -/
def Board.place : Place := ⟨.directory [], []⟩

end GraphCodec
