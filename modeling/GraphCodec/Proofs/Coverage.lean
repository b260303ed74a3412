import GraphCodec.Proofs.Picks
import GraphCodec.Proofs.Unseen

/-!
# Unions are covered

A response has a union only at a field of a union type whose selection set has inline fragments. The
union is below exactly the list and nullable wrappers of the type of the field, and has one entry
for each member type, in order. `Codec.placed` lists the nodes of a response with their positions in
the schema, so that this can be said of every occurrence of a union.

Conversely, inline fragments that leave out a member type fail with all missing member types,
whatever else is wrong with them, and for no other reason is the union reported (`unions_covered`).
An error below one of its member types may report another union, never the same: a union is no node
of its member types.
-/

set_option autoImplicit false

namespace GraphCodec

/-! ## Positions -/

/-- The position of a node of a response in the schema. -/
inductive Position where
  /-- A selection set on the type: the root, an entry of a union, or a member of an intersection. -/
  | on (type : Codec)
  /-- A field of `parent`. Below list and nullable wrappers, `left` is what remains of the type of
  the field when the same wrappers are removed. -/
  | field (parent : Codec) (name : String) (left : Codec)

namespace Position

def type : Position → Codec
  | on t => t
  | field _ _ left => left

/-- The position below a list or nullable wrapper. -/
def below (inside : Codec → Codec) : Position → Position
  | on t => on (inside t)
  | field parent name left => field parent name (inside left)

end Position

namespace Codec

def arrayItem : Codec → Codec
  | array c => c
  | _ => unknown

def optionItem : Codec → Codec
  | option c => c
  | _ => unknown

mutual

/-- **The nodes of a codec with their positions**, at any depth, itself first. -/
def placed (q : Position) : Codec → List (Position × Codec)
  | object ps => (q, object ps) :: placedProps q.type ps
  | input n ps => (q, input n ps) :: placedProps q.type ps
  | query n ps => (q, query n ps) :: placedProps q.type ps
  | mutation n ps => (q, mutation n ps) :: placedProps q.type ps
  | union ts => (q, union ts) :: placedEntries q.type.unionMembers ts
  | intersection ts => (q, intersection ts) :: placedParts q.type ts
  | named n body => (q, named n body) :: placed q body
  | array c => (q, array c) :: placed (q.below arrayItem) c
  | option c => (q, option c) :: placed (q.below optionItem) c
  | c => [(q, c)]

def placedProps (on : Codec) : List (String × Codec) → List (Position × Codec)
  | [] => []
  | (k, c) :: ps => placed (.field on k (on.fieldType k)) c ++ placedProps on ps

/-- The entries of a union have the positions of the member types, in order. -/
def placedEntries (members : List Codec) : List Codec → List (Position × Codec)
  | [] => []
  | c :: cs => placed (.on (members.headD .unknown)) c ++ placedEntries members.tail cs

def placedParts (on : Codec) : List Codec → List (Position × Codec)
  | [] => []
  | c :: cs => placed (.on on) c ++ placedParts on cs

end

mutual

/-- Every node has a position. -/
theorem map_snd_placed (q : Position) (c : Codec) : (c.placed q).map Prod.snd = c.parts := by
  cases c with
  | object ps => simp [placed, map_snd_placedProps]
  | input n ps => simp [placed, map_snd_placedProps]
  | query n ps => simp [placed, map_snd_placedProps]
  | mutation n ps => simp [placed, map_snd_placedProps]
  | union ts => simp [placed, map_snd_placedEntries]
  | intersection ts => simp [placed, map_snd_placedParts]
  | named n body => simp [placed, map_snd_placed q body]
  | array c => simp [placed, map_snd_placed _ c]
  | option c => simp [placed, map_snd_placed _ c]
  | _ => rfl

theorem map_snd_placedProps (on : Codec) (ps : List (String × Codec)) :
    (placedProps on ps).map Prod.snd = ps.flatMap fun p => p.2.parts := by
  cases ps with
  | nil => rfl
  | cons p ps => simp [placedProps, map_snd_placed _ p.2, map_snd_placedProps on ps]

theorem map_snd_placedEntries (members cs : List Codec) :
    (placedEntries members cs).map Prod.snd = cs.flatMap parts := by
  cases cs with
  | nil => rfl
  | cons c cs => simp [placedEntries, map_snd_placed _ c, map_snd_placedEntries _ cs]

theorem map_snd_placedParts (on : Codec) (cs : List Codec) :
    (placedParts on cs).map Prod.snd = cs.flatMap parts := by
  cases cs with
  | nil => rfl
  | cons c cs => simp [placedParts, map_snd_placed _ c, map_snd_placedParts on cs]

end

section

variable {on : Codec} {p : Position × Codec}

theorem mem_placedParts {cs : List Codec} :
    p ∈ placedParts on cs ↔ ∃ c ∈ cs, p ∈ c.placed (.on on) := by
  induction cs with
  | nil => simp [placedParts]
  | cons c cs ih => simp [placedParts, ih]

theorem mem_placedProps {ps : List (String × Codec)} :
    p ∈ placedProps on ps ↔
      ∃ k ∈ ps, p ∈ k.2.placed (.field on k.1 (on.fieldType k.1)) := by
  induction ps with
  | nil => simp [placedProps]
  | cons k ps ih => simp [placedProps, ih]

/-- An entry is placed on the member type that it is related to. -/
theorem exists_of_mem_placedEntries {R : Codec → Codec → Prop} {members entries : List Codec}
    (h : List.Forall₂ R members entries) (hp : p ∈ placedEntries members entries) :
    ∃ m ∈ members, ∃ c, R m c ∧ p ∈ c.placed (.on m) := by
  induction h with
  | nil => cases hp
  | @cons m c members entries hHead hTail ih =>
      rcases List.mem_append.mp hp with hp | hp
      · exact ⟨m, List.mem_cons_self, c, hHead, hp⟩
      · obtain ⟨m', hm', hRest⟩ := ih hp
        exact ⟨m', List.mem_cons_of_mem _ hm', hRest⟩

/-- Below the wrappers of the declared type, the rest of the type is its `core`. -/
theorem placed_of_replaceCore {t new parent : Codec} {name : String} {q : Position}
    {entries : List Codec}
    (h : (q, union entries) ∈ (t.replaceCore new).placed (.field parent name t)) :
    (q, union entries) ∈ new.placed (.field parent name t.core) := by
  fun_induction replaceCore t new with
  | case1 c new ih =>
      rcases List.mem_cons.mp h with hSelf | h
      · cases hSelf
      · exact ih h
  | case2 c new ih =>
      rcases List.mem_cons.mp h with hSelf | h
      · cases hSelf
      · exact ih h
  | case3 c new hArray hOption =>
      rw [core]
      · exact h
      · exact hArray
      · exact hOption

end

end Codec

/-! ## Covered unions -/

/-- The entry of a member type: an intersection of its `__typename`, a `Pick` of its leaves, and its
fields with selection sets. -/
def EntryFor (member : String) (c : Codec) : Prop :=
  ∃ fields nested, c = .intersection (.typename member :: .pick member fields :: nested)

/-- **A covered union.** It is placed at a field of a union type, below exactly the wrappers of the
type of the field, and has one entry for each member type in the definition of the union, in
order. -/
inductive Covered (ds : List Definition) : Position → List Codec → Prop
  | intro {parent type : Codec} {name union : String} {members entries : List Codec}
      {names : List String} (hType : parent.props.lookup name = some type)
      (hCore : type.core = .named union (.union members))
      (hUnion : ⟨union, .union names⟩ ∈ ds) (hNames : members.map Codec.name = names)
      (hEntries : List.Forall₂ EntryFor names entries) :
      Covered ds (.field parent name (.named union (.union members))) entries

/-- The members of a compiled union are the member types of its definition. -/
theorem exists_union_definition {ds : List Definition} {schema : Schema}
    (hSchema : Schema.compile ds = .ok schema) {union : String} {members : List Codec}
    (h : schema.Knows (.named union (.union members))) :
    ⟨union, .union (members.map Codec.name)⟩ ∈ ds := by
  obtain ⟨memo, hBuilt, hTypes⟩ := compile_built hSchema
  rcases h with ⟨p, hp⟩ | h
  · cases hp
  obtain ⟨n, hn⟩ := (mem_types_iff hBuilt hTypes).mp h
  obtain ⟨d, hd, -, hCodec⟩ := hBuilt.hasCodec hn
  generalize hc : Codec.named union (.union members) = c at hCodec
  cases hCodec with
  | object hFields => exact absurd hc.symm (objectCodec_ne_union _ _ _ _)
  | @union name names codecs hMembers =>
      cases hc
      have hNames : members.map Codec.name = names := by
        rw [← List.forall₂_eq_eq_eq, List.forall₂_map_left_iff]
        exact hMembers.flip.imp fun m n hm => hBuilt.name_eq hm
      rwa [hNames]
  | _ => cases hc

namespace Selections

open Codec

variable {ds : List Definition} {schema : Schema}

/-- All unions in the codec of a field are covered. -/
def CoveredField (ds : List Definition) (parent : Codec) (s : Selection) (c : Codec) : Prop :=
  ∀ q entries, (q, .union entries) ∈ c.placed (.field parent s.name (parent.fieldType s.name)) →
    Covered ds q entries

/-- The unions of a selection set are those of its fields with selection sets. -/
theorem BodyCodec.covered {field : Codec → Selection → Codec → Prop} {on c : Codec}
    {selections : List Selection} (h : BodyCodec field on selections c)
    (hField : ∀ t d, field on t d → CoveredField ds on t d) {here q : Position}
    (hHere : here.type = on) {entries : List Codec}
    (hq : (q, .union entries) ∈ c.placed here) : Covered ds q entries := by
  obtain ⟨nested, hNested, rfl⟩ := h
  rcases List.mem_cons.mp hq with hSelf | hq
  · cases hSelf
  rw [hHere] at hq
  obtain ⟨part, hPart, hq⟩ := mem_placedParts.mp hq
  rcases List.mem_cons.mp hPart with rfl | hPart
  · simp [typename, placed, placedProps] at hq
  rcases List.mem_cons.mp hPart with rfl | hPart
  · simp [placed] at hq
  · obtain ⟨t, -, d, hd, rfl⟩ := exists_left_of_forall₂ hNested hPart
    refine hField t d hd q entries ?_
    simpa [placed, placedProps, Position.type] using hq

theorem BodyCodec.entryFor {field : Codec → Selection → Codec → Prop} {on c : Codec}
    {selections : List Selection} (h : BodyCodec field on selections c) : EntryFor on.name c := by
  obtain ⟨nested, -, rfl⟩ := h
  exact ⟨leaves selections, nested, rfl⟩

/-- **The unions in the codec of a field are covered.** -/
theorem Compiles.covered (hSchema : Schema.compile ds = .ok schema) {parent c : Codec}
    {s : Selection} (h : Compiles parent s c) (hParent : schema.Knows parent) :
    CoveredField ds parent s c := by
  have hClosed := compile_closed hSchema
  refine h.induct (motive := fun parent s c => schema.Knows parent → CoveredField ds parent s c)
    ?_ hParent
  clear h hParent
  intro parent s c hField hExit hParent q entries hq
  cases hExit with
  | scalar hType hCheck hCore =>
      rw [fieldType_eq hType] at hq
      have hScalar : (q, .union entries) ∈ c.core.placed (.field parent s.name c.core) :=
        placed_of_replaceCore (by rwa [replaceCore_self])
      simp [hCore, placed] at hScalar
  | whole hType hCheck hCore hNone hBare =>
      simp [wholeField, placed, placedParts, typename, placedProps] at hq
  | object hType hCheck hCore hNone hBare hBody =>
      obtain ⟨-, -, -, hKnows⟩ := hClosed.lookup_prop hParent hType
      rw [fieldType_eq hType] at hq
      exact hBody.covered (fun t d hd => hd.2 hKnows) rfl (placed_of_replaceCore hq)
  | @union type union members codecs hType hCheck hCore hSome hCover hMembers =>
      obtain ⟨-, -, -, hKnows⟩ := hClosed.lookup_prop hParent hType
      rw [hCore] at hKnows
      rw [fieldType_eq hType] at hq
      have hq' := placed_of_replaceCore hq
      rw [hCore] at hq'
      -- the union is that of the field, or is below one of its entries
      rcases List.mem_cons.mp hq' with hSelf | hBelow
      · cases hSelf
        refine .intro hType hCore (exists_union_definition hSchema hKnows) rfl ?_
        rw [List.forall₂_map_left_iff]
        refine hMembers.imp ?_
        rintro m d ⟨inner, -, -, hBody⟩
        exact hBody.entryFor
      · obtain ⟨m, hm, d, ⟨inner, -, -, hBody⟩, hq⟩ := exists_of_mem_placedEntries hMembers hBelow
        exact hBody.covered (fun t d hd => hd.2 (hClosed.knows_member hKnows hm)) rfl hq

/-! ## Missing member types -/

theorem fragment?_eq_none {type : String} {selections : List Selection} :
    fragment? type selections = none ↔ type ∉ conditions selections := by
  fun_induction fragment? type selections with
  | case1 => simp [conditions]
  | case2 directives inner rest => simp [conditions, Selection.condition?]
  | case3 c directives inner rest hc ih =>
      simpa [conditions, Selection.condition?, Ne.symm hc] using ih
  | case4 s rest hs ih =>
      have hNone : s.condition? = none := by
        cases s with
        | inline condition directives inner =>
            cases condition with
            | none => rfl
            | some c => exact absurd rfl (hs c directives inner)
        | _ => rfl
      rw [ih, conditions, conditions, List.filterMap_cons_none hNone]

/-- The inline fragments of supported selections have type conditions. -/
theorem conditions_ne_nil {selections : List Selection} (hCheck : check selections = .ok ())
    (h : ∃ t ∈ selections, t.isFragment = true) : conditions selections ≠ [] := by
  obtain ⟨t, ht, hFragment⟩ := h
  intro hNone
  have hField := isField_of_check hCheck hNone ht
  cases t with
  | inline condition directives inner => cases hField
  | _ => cases hFragment

section

variable {union union' : String} {names given missing : List String}

/-- Inline fragments cover a union if they leave out no member type and are on no other type. -/
theorem checkCover_eq_ok : checkCover union names given = .ok () ↔
    (∀ n ∈ names, n ∈ given) ∧ ∀ c ∈ given, c ∈ names := by
  constructor
  · intro h
    refine ⟨fun n hn => ?_, fun c hc => mem_of_checkCover h hc⟩
    simp only [checkCover] at h
    split_ifs at h with hMissing
    simpa using List.filter_eq_nil_iff.mp (not_not.mp hMissing) n hn
  · rintro ⟨hAll, hOnly⟩
    have hMissing : names.filter (· ∉ given) = [] := by simpa [List.filter_eq_nil_iff] using hAll
    have hStranger : given.find? (· ∉ names) = none := by simpa [List.find?_eq_none] using hOnly
    simp only [checkCover, hMissing, hStranger, ne_eq, not_true_eq_false, if_false]

/-- All missing member types are reported, before any other error. -/
theorem checkCover_eq_nonExhaustive :
    checkCover union names given = .error (.nonExhaustive union' missing) ↔
      union' = union ∧ missing ≠ [] ∧ missing = names.filter (· ∉ given) := by
  simp only [checkCover]
  split_ifs with hMissing
  · constructor
    · intro h
      cases h
      exact ⟨rfl, hMissing, rfl⟩
    · rintro ⟨rfl, -, rfl⟩
      rfl
  · constructor
    · intro h
      split at h <;> cases h
    · rintro ⟨-, hne, rfl⟩
      exact absurd hne hMissing

theorem exists_of_nestedCodecs_eq_error {parent : Codec} {selections : List Selection}
    {e : CompileError} (h : nestedCodecs parent selections = .error e) :
    ∃ t ∈ selections, fieldCodec parent t = .error e := by
  induction selections with
  | nil => cases h
  | cons s rest ih =>
      have hRest : nestedCodecs parent rest = .error e →
          ∃ t ∈ s :: rest, fieldCodec parent t = .error e := by
        intro h
        obtain ⟨t, ht, hError⟩ := ih h
        exact ⟨t, List.mem_cons_of_mem _ ht, hError⟩
      cases hNode : s.isNode with
      | false => exact hRest (by rwa [nestedCodecs_cons_other hNode] at h)
      | true =>
          cases s with
          | node shown name directives ss =>
              rw [nestedCodecs] at h
              rcases bind_eq_error.mp h with hHead | ⟨c, -, h⟩
              · exact ⟨_, List.mem_cons_self, hHead⟩
              rcases bind_eq_error.mp h with hTail | ⟨cs, -, h⟩
              · exact hRest hTail
              · cases h
          | _ => cases hNode

theorem check_ne_nonExhaustive {selections : List Selection} :
    check selections ≠ .error (.nonExhaustive union missing) := by
  unfold check
  split <;> simp

/-- A member type is reported missing if it has no fragment, or by a field of its first fragment. -/
theorem memberCodec_eq_nonExhaustive {m : Codec} {selections : List Selection}
    (h : memberCodec union' m selections = .error (.nonExhaustive union missing)) :
    (fragment? m.name selections = none ∧ union = union') ∨
      ∃ inner t, fragment? m.name selections = some inner ∧ t ∈ inner ∧
        fieldCodec m t = .error (.nonExhaustive union missing) := by
  rw [memberCodec_eq] at h
  cases hInner : fragment? m.name selections with
  | none =>
      rw [hInner] at h
      cases h
      exact Or.inl ⟨rfl, rfl⟩
  | some inner =>
      rw [hInner] at h
      rcases bind_eq_error.mp h with h | ⟨_, -, h⟩
      · exact absurd h check_ne_nonExhaustive
      rcases bind_eq_error.mp h with h | ⟨nested, -, h⟩
      · obtain ⟨t, ht, hError⟩ := exists_of_nestedCodecs_eq_error h
        exact Or.inr ⟨inner, t, rfl, ht, hError⟩
      · cases h

/-- **A field that reports a union** is of that union type, or a field below it reports the union,
on its type or on a member type. -/
theorem fieldCodec_eq_nonExhaustive {parent : Codec} {s : Selection}
    (h : fieldCodec parent s = .error (.nonExhaustive union missing)) :
    ∃ type, parent.props.lookup s.name = some type ∧
      ((∃ ms, type.core = .named union (.union ms)) ∨
        ∃ on t, (on = type.core ∨ on ∈ type.core.unionMembers) ∧ sizeOf t < sizeOf s ∧
          fieldCodec on t = .error (.nonExhaustive union missing)) := by
  have hDeclared : ∀ name, declared parent name ≠ .error (.nonExhaustive union missing) := by
    intro name
    unfold declared
    split <;> simp
  cases s with
  | leaf shown name directives =>
      rw [fieldCodec, leafCodec] at h
      rcases bind_eq_error.mp h with h | ⟨type, -, h⟩
      · exact absurd h (hDeclared name)
      · split at h <;> cases h
  | spread name directives => cases h
  | inline condition directives ss => cases h
  | node shown name directives ss =>
      rw [fieldCodec] at h
      rcases bind_eq_error.mp h with h | ⟨type, hType, h⟩
      · exact absurd h (hDeclared name)
      rw [declared_eq_ok] at hType
      refine ⟨type, hType, ?_⟩
      rcases bind_eq_error.mp h with h | ⟨_, -, h⟩
      · exact absurd h check_ne_nonExhaustive
      split at h
      · cases h
      · rename_i union' ms c cs hCore hConditions
        rcases bind_eq_error.mp h with h | ⟨_, -, h⟩
        · obtain ⟨rfl, -, -⟩ := checkCover_eq_nonExhaustive.mp h
          exact Or.inl ⟨ms, hCore⟩
        rcases bind_eq_error.mp h with h | ⟨codecs, -, h⟩
        · obtain ⟨m, hm, hMember⟩ := exists_of_mapM_eq_error h
          rcases memberCodec_eq_nonExhaustive hMember with ⟨-, rfl⟩ | ⟨inner, t, hInner, ht, hError⟩
          · exact Or.inl ⟨ms, hCore⟩
          · refine Or.inr ⟨m, t, Or.inr (by simpa [hCore, unionMembers] using hm), ?_, hError⟩
            exact sizeOf_lt_of_mem_fragment (s := .node shown name directives ss) hInner ht
        · cases h
      · cases h
      · split at h
        · cases h
        · rcases bind_eq_error.mp h with h | ⟨nested, -, h⟩
          · obtain ⟨t, ht, hError⟩ := exists_of_nestedCodecs_eq_error h
            refine Or.inr ⟨_, t, Or.inl rfl, ?_, hError⟩
            exact Selection.sizeOf_lt_of_mem_inner (s := .node shown name directives ss) ht
          · cases h

theorem knows_of_mem_unionMembers (hClosed : schema.Closed) {c m : Codec} (hc : schema.Knows c)
    (hm : m ∈ c.unionMembers) : schema.Knows m := by
  unfold unionMembers at hm
  split at hm
  · exact hClosed.knows_member hc hm
  · cases hm

/-- **A field reports only unions that are nodes of its parent**, and are therefore smaller. -/
theorem exists_of_nonExhaustive (hClosed : schema.Closed) {parent : Codec} {s : Selection}
    (hParent : schema.Knows parent)
    (h : fieldCodec parent s = .error (.nonExhaustive union missing)) :
    ∃ ms, schema.Knows (.named union (.union ms)) ∧
      sizeOf (Codec.named union (.union ms)) < sizeOf parent := by
  induction hk : sizeOf s using Nat.strongRecOn generalizing parent s with
  | _ k ih =>
    subst hk
    obtain ⟨type, hType, hCases⟩ := fieldCodec_eq_nonExhaustive h
    obtain ⟨-, -, -, hKnows⟩ := hClosed.lookup_prop hParent hType
    have hProp := sizeOf_lt_of_mem_props (Assoc.mem_of_lookup hType)
    have hCoreLe := sizeOf_core_le type
    rcases hCases with ⟨ms, hCore⟩ | ⟨on, t, hOn, hLt, hError⟩
    · rw [hCore] at hKnows hCoreLe
      exact ⟨ms, hKnows, by omega⟩
    · have hBelow : schema.Knows on ∧ sizeOf on ≤ sizeOf type.core := by
        rcases hOn with rfl | hMember
        · exact ⟨hKnows, Nat.le_refl _⟩
        · exact ⟨knows_of_mem_unionMembers hClosed hKnows hMember,
            (sizeOf_lt_of_mem_unionMembers hMember).le⟩
      obtain ⟨ms, hUnion, hSize⟩ := ih _ hLt hBelow.1 hError rfl
      exact ⟨ms, hUnion, by omega⟩

/-- **Inline fragments on a union fail with the member types they leave out**, if there are any. -/
theorem fieldCodec_union_eq_nonExhaustive (hClosed : schema.Closed) {parent type : Codec}
    {shown : Option String} {name : String} {directives : List String}
    {selections : List Selection} {ms : List Codec} (hParent : schema.Knows parent)
    (hType : parent.props.lookup name = some type) (hCore : type.core = .named union (.union ms))
    (hCheck : check selections = .ok ()) (hSome : conditions selections ≠ []) :
    fieldCodec parent (.node shown name directives selections)
        = .error (.nonExhaustive union missing) ↔
      missing ≠ [] ∧ missing = (ms.map Codec.name).filter (· ∉ conditions selections) := by
  obtain ⟨-, -, -, hUnion⟩ := hClosed.lookup_prop hParent hType
  rw [hCore] at hUnion
  obtain ⟨k, ks, hConditions⟩ := List.exists_cons_of_ne_nil hSome
  rw [fieldCodec, declared_eq_ok.mpr hType, hCheck, ok_bind, ok_bind, hCore, hConditions]
  dsimp only
  rw [← hConditions, bind_eq_error, checkCover_eq_nonExhaustive]
  constructor
  · rintro (⟨-, hMissing⟩ | ⟨_, hCover, h⟩)
    · exact hMissing
    rcases bind_eq_error.mp h with h | ⟨codecs, -, h⟩
    · exfalso
      obtain ⟨m, hm, hMember⟩ := exists_of_mapM_eq_error h
      rcases memberCodec_eq_nonExhaustive hMember with ⟨hNone, -⟩ | ⟨inner, t, -, -, hError⟩
      · have hName := (checkCover_eq_ok.mp hCover).1 m.name (List.mem_map.mpr ⟨m, hm, rfl⟩)
        exact fragment?_eq_none.mp hNone hName
      · -- the union reported would be this one, and lie inside one of its own members
        obtain ⟨ms', hUnion', hLt⟩ :=
          exists_of_nonExhaustive hClosed (hClosed.knows_member hUnion hm) hError
        have hSame := (hClosed.get_named hUnion).symm.trans (hClosed.get_named hUnion')
        cases hSame
        have hSize := sizeOf_lt_of_mem_unionMembers (c := .named union (.union ms)) hm
        omega
    · cases h
  · rintro ⟨hne, hMissing⟩
    exact Or.inl ⟨rfl, hne, hMissing⟩

end

end Selections

namespace Operation

open Selections

theorem placed_response {op : Operation} {root c : Codec} (h : op.selectionCodec root = .ok c)
    (q : Position) : c.placed q = (q, c) :: Codec.placedProps q.type c.props := by
  obtain ⟨name, props, -, -, rfl⟩ := selectionCodec_eq_ok.mp h
  split_ifs <;> rfl

/-- The unions of a response are those of its root fields. -/
theorem covered_response {ds : List Definition} {schema : Schema}
    (hSchema : Schema.compile ds = .ok schema) {op : Operation} {root c : Codec}
    (hRoot : schema.Knows root) (hc : op.selectionCodec root = .ok c) {q : Position}
    {entries : List Codec} (hq : (q, .union entries) ∈ c.placed (.on root)) :
    Covered ds q entries := by
  rw [placed_response hc] at hq
  rcases List.mem_cons.mp hq with hSelf | hq
  · obtain ⟨name, props, -, -, rfl⟩ := selectionCodec_eq_ok.mp hc
    split_ifs at hSelf <;> cases hSelf
  · obtain ⟨⟨k, d⟩, hk, hq⟩ := Codec.mem_placedProps.mp hq
    obtain ⟨s, -, rfl, hCompiles⟩ := exists_left_of_forall₂ (forall₂_rootProp hc) hk
    exact hCompiles.covered hSchema hRoot q entries hq

end Operation

/-- **Unions are covered at every depth.** Every union of a response, wherever it is placed, is
covered. Conversely, inline fragments on a union fail as non-exhaustive exactly if they leave out a
member type, and then all missing member types are reported, in order. -/
theorem Schema.unions_covered {ds : List Definition} {schema : Schema}
    (hSchema : Schema.compile ds = .ok schema) :
    (∀ (op : Operation) (root c : Codec), op.root schema = .ok root →
      op.selectionCodec root = .ok c →
        (c.placed (.on root)).map Prod.snd = c.parts ∧
        ∀ q entries, (q, .union entries) ∈ c.placed (.on root) → Covered ds q entries) ∧
    ∀ (parent type : Codec) (shown : Option String) (name : String) (directives : List String)
      (selections : List Selection) (union : String) (members : List Codec),
      parent ∈ schema.types → parent.props.lookup name = some type →
      type.core = .named union (.union members) → Selections.check selections = .ok () →
      (∃ t ∈ selections, t.isFragment = true) →
        ((∃ missing, Selections.fieldCodec parent (.node shown name directives selections)
            = .error (.nonExhaustive union missing)) ↔
          ∃ m ∈ members, m.name ∉ Selections.conditions selections) ∧
        ∀ missing, Selections.fieldCodec parent (.node shown name directives selections)
            = .error (.nonExhaustive union missing) →
          missing = (members.map Codec.name).filter (· ∉ Selections.conditions selections) := by
  have hClosed := compile_closed hSchema
  constructor
  · intro op root c hRoot hc
    have hKnows : schema.Knows root := Or.inr (Operation.mem_types_of_root hRoot)
    exact ⟨c.map_snd_placed _, fun q entries => Operation.covered_response hSchema hKnows hc⟩
  · intro parent type shown name directives selections union members hParent hType hCore hCheck
      hFragment
    have hRefused : ∀ missing,
        Selections.fieldCodec parent (.node shown name directives selections)
            = .error (.nonExhaustive union missing) ↔ missing ≠ [] ∧
          missing = (members.map Codec.name).filter (· ∉ Selections.conditions selections) :=
      fun missing => Selections.fieldCodec_union_eq_nonExhaustive hClosed (Or.inr hParent) hType
        hCore hCheck (Selections.conditions_ne_nil hCheck hFragment)
    simp only [hRefused]
    refine ⟨?_, fun missing h => h.2⟩
    simp [List.filter_eq_nil_iff]

namespace Board

def foundEntries : List Codec :=
  [.intersection [.typename "Todo", .pick "Todo" ["id"]],
    .intersection [.typename "User", .pick "User" ["name"]]]

def response : Codec :=
  .query "Board" [("now", date),
    ("todos", .array (.intersection [.typename "Todo", .pick "Todo" ["id"],
      .object [("due", .option date)],
      .object [("owner", .intersection [.typename "User", .pick "User" ["name"]])]])),
    ("found", .option (.array (.union foundEntries)))]

/-- Inline fragments on an unrelated type and on one of two member types. -/
def partialFragments : List Selection :=
  [.inline (some "Date") [] [.leaf none "day" []], .inline (some "User") [] [.leaf none "name" []]]

/-- The union of the board's response is covered. A missing member type is reported, although
another fragment is on no member type. -/
theorem unions_covered_found :
    Schema.compile (sortDefinitions definitions) = .ok schema ∧
      operation.root schema = .ok query ∧ operation.selectionCodec query = .ok response ∧
      (.field query "found" found, .union foundEntries) ∈ response.placed (.on query) ∧
      (∀ q entries, (q, .union entries) ∈ response.placed (.on query) →
        Covered (sortDefinitions definitions) q entries) ∧
      Selections.fieldCodec query (.node none "found" [] partialFragments)
        = .error (.nonExhaustive "Found" ["Todo"]) := by
  have hRoot : operation.root schema = .ok query := by cbv
  have hc : operation.selectionCodec query = .ok response := by cbv
  obtain ⟨hCovered, hRefused⟩ := Schema.unions_covered compile_definitions
  refine ⟨compile_definitions, hRoot, hc, ?_, (hCovered _ _ _ hRoot hc).2, ?_⟩
  · refine List.mem_cons_of_mem _ (Codec.mem_placedProps.mpr
      ⟨("found", .option (.array (.union foundEntries))), by simp, ?_⟩)
    exact List.mem_cons_of_mem _ (List.mem_cons_of_mem _ List.mem_cons_self)
  · obtain ⟨hIff, hList⟩ := hRefused query (.option (.array found)) none "found" []
      partialFragments "Found" [todo, user] (by simp [schema]) rfl rfl rfl
      ⟨_, List.mem_cons_self, rfl⟩
    obtain ⟨missing, hMissing⟩ := hIff.mpr ⟨todo, List.mem_cons_self, by decide⟩
    have hTodo : missing = ["Todo"] := hList missing hMissing
    rw [hMissing, hTodo]

end Board

end GraphCodec
