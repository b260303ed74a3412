import GraphCodec.Proofs.Selection

/-!
# Picked fields

The codec of a selection set has a `Pick` of its leaves by name. The compiler looks up a field with
a selection set in its type and rejects it if it is not declared. It does not look up the leaves. So
the `Pick`s of a response are sound exactly if each selection set is on a type with fields and its
leaves are among them (`selectionCodec_picks_declared_iff`), and nothing rejects one that is not
(`Board.undeclared_leaf_picked`).
-/

set_option autoImplicit false

namespace GraphCodec

namespace Codec

/-! ## Nodes of a codec -/

mutual

/-- The nodes of a codec at any depth, itself first. -/
def parts : Codec → List Codec
  | object ps => object ps :: propParts ps
  | input n ps => input n ps :: propParts ps
  | query n ps => query n ps :: propParts ps
  | mutation n ps => mutation n ps :: propParts ps
  | union ts => union ts :: listParts ts
  | intersection ts => intersection ts :: listParts ts
  | named n body => named n body :: parts body
  | array c => array c :: parts c
  | option c => option c :: parts c
  | c => [c]

def listParts : List Codec → List Codec
  | [] => []
  | c :: cs => parts c ++ listParts cs

def propParts : List (String × Codec) → List Codec
  | [] => []
  | (_, c) :: ps => parts c ++ propParts ps

end

theorem listParts_eq (cs : List Codec) : listParts cs = cs.flatMap parts := by
  induction cs with
  | nil => rfl
  | cons c cs ih =>
      rw [List.flatMap_cons, ← ih]
      rfl

theorem propParts_eq (ps : List (String × Codec)) :
    propParts ps = ps.flatMap fun q => q.2.parts := by
  induction ps with
  | nil => rfl
  | cons q ps ih =>
      rw [List.flatMap_cons, ← ih]
      rfl

section

variable (n : String) (ps : List (String × Codec)) (fs : List String) (cs : List Codec) (c : Codec)

@[simp] theorem parts_object : (object ps).parts = object ps :: ps.flatMap fun q => q.2.parts :=
  congrArg (_ :: ·) (propParts_eq ps)

@[simp] theorem parts_input : (input n ps).parts = input n ps :: ps.flatMap fun q => q.2.parts :=
  congrArg (_ :: ·) (propParts_eq ps)

@[simp] theorem parts_named : (named n c).parts = named n c :: c.parts := rfl

@[simp] theorem parts_query : (query n ps).parts = query n ps :: ps.flatMap fun q => q.2.parts :=
  congrArg (_ :: ·) (propParts_eq ps)

@[simp] theorem parts_mutation :
    (mutation n ps).parts = mutation n ps :: ps.flatMap fun q => q.2.parts :=
  congrArg (_ :: ·) (propParts_eq ps)

@[simp] theorem parts_union : (union cs).parts = union cs :: cs.flatMap parts :=
  congrArg (_ :: ·) (listParts_eq cs)

@[simp] theorem parts_intersection :
    (intersection cs).parts = intersection cs :: cs.flatMap parts :=
  congrArg (_ :: ·) (listParts_eq cs)

@[simp] theorem parts_array : (array c).parts = array c :: c.parts := rfl

@[simp] theorem parts_option : (option c).parts = option c :: c.parts := rfl

@[simp] theorem parts_pick : (pick n fs).parts = [pick n fs] := rfl

@[simp] theorem parts_literal : (literal n).parts = [literal n] := rfl

@[simp] theorem parts_scalar : (scalar n).parts = [scalar n] := rfl

end

/-- Wrappers keep the nodes of a codec. -/
theorem mem_parts_replaceCore {t new p : Codec} (h : p ∈ new.parts) :
    p ∈ (t.replaceCore new).parts := by
  fun_induction replaceCore t new with
  | case1 c new ih => exact List.mem_cons_of_mem _ (ih h)
  | case2 c new ih => exact List.mem_cons_of_mem _ (ih h)
  | case3 c new => exact h

/-- The nodes of `replaceCore`: those of the new core, and the wrappers. -/
theorem exists_of_mem_parts_replaceCore {t new p : Codec} (h : p ∈ (t.replaceCore new).parts) :
    p ∈ new.parts ∨ ∃ item, (.array item ∈ t.parts ∧ p = .array (item.replaceCore new)) ∨
      (.option item ∈ t.parts ∧ p = .option (item.replaceCore new)) := by
  fun_induction replaceCore t new with
  | case1 c new ih =>
      rcases List.mem_cons.mp h with rfl | h
      · exact Or.inr ⟨c, Or.inl ⟨List.mem_cons_self, rfl⟩⟩
      rcases ih h with hNew | ⟨item, ⟨hItem, hp⟩ | ⟨hItem, hp⟩⟩
      · exact Or.inl hNew
      · exact Or.inr ⟨item, Or.inl ⟨List.mem_cons_of_mem _ hItem, hp⟩⟩
      · exact Or.inr ⟨item, Or.inr ⟨List.mem_cons_of_mem _ hItem, hp⟩⟩
  | case2 c new ih =>
      rcases List.mem_cons.mp h with rfl | h
      · exact Or.inr ⟨c, Or.inr ⟨List.mem_cons_self, rfl⟩⟩
      rcases ih h with hNew | ⟨item, ⟨hItem, hp⟩ | ⟨hItem, hp⟩⟩
      · exact Or.inl hNew
      · exact Or.inr ⟨item, Or.inl ⟨List.mem_cons_of_mem _ hItem, hp⟩⟩
      · exact Or.inr ⟨item, Or.inr ⟨List.mem_cons_of_mem _ hItem, hp⟩⟩
  | case3 c new => exact Or.inl h

/-! ## Picks -/

/-- The codec has a `Pick` of these fields of the type. -/
def Picks (c : Codec) (type : String) (fields : List String) : Prop :=
  .pick type fields ∈ c.parts

variable {type : String} {fields : List String}

theorem picks_replaceCore {t new : Codec} :
    (t.replaceCore new).Picks type fields ↔ new.Picks type fields := by
  constructor
  · intro h
    rcases exists_of_mem_parts_replaceCore h with hNew | ⟨item, ⟨-, hp⟩ | ⟨-, hp⟩⟩
    · exact hNew
    · cases hp
    · cases hp
  · intro h
    exact mem_parts_replaceCore h

theorem picks_object {ps : List (String × Codec)} :
    (object ps).Picks type fields ↔ ∃ q ∈ ps, q.2.Picks type fields := by
  simp [Picks]

theorem picks_union {ts : List Codec} :
    (union ts).Picks type fields ↔ ∃ t ∈ ts, t.Picks type fields := by
  simp [Picks]

theorem picks_intersection {ts : List Codec} :
    (intersection ts).Picks type fields ↔ ∃ t ∈ ts, t.Picks type fields := by
  simp [Picks]

theorem picks_pick {type' : String} {fields' : List String} :
    (pick type' fields').Picks type fields ↔ type = type' ∧ fields = fields' := by
  simp [Picks]

theorem not_picks_typename {n : String} : ¬ (typename n).Picks type fields := by
  simp [Picks, typename]

end Codec

/-! ## Nodes of fields -/

namespace Selections

open Codec

/-- A node that compiling a selection can create: a custom scalar, or a node of a selection
codec. -/
inductive Added : Codec → Prop
  | scalar (name : String) : Added (.scalar name)
  | literal (value : String) : Added (.literal value)
  | pick (type : String) (fields : List String) : Added (.pick type fields)
  | object (props : List (String × Codec)) : Added (.object props)
  | union (entries : List Codec) : Added (.union entries)
  | intersection (first second : Codec) (rest : List Codec) :
      Added (.intersection (first :: second :: rest))

section

variable (field : Codec → Selection → Codec → Prop)

/-- **The nodes of the codec of a field.** They are created for its selection set, or they are
wrappers of its type, or nodes of nested fields, on the type itself or on a member type. -/
inductive FieldNode (parent : Codec) (name : String) : Codec → Prop
  | added {p : Codec} (h : Added p) : FieldNode parent name p
  | array {type item new : Codec} (hType : parent.props.lookup name = some type)
      (hItem : .array item ∈ type.parts) (hNew : Added new) :
      FieldNode parent name (.array (item.replaceCore new))
  | option {type item new : Codec} (hType : parent.props.lookup name = some type)
      (hItem : .option item ∈ type.parts) (hNew : Added new) :
      FieldNode parent name (.option (item.replaceCore new))
  | nested {type d p : Codec} {t : Selection} (hType : parent.props.lookup name = some type)
      (hField : field type.core t d) (hp : p ∈ d.parts) : FieldNode parent name p
  | member {type m d p : Codec} {t : Selection} {union : String} {members : List Codec}
      (hType : parent.props.lookup name = some type)
      (hCore : type.core = .named union (.union members)) (hm : m ∈ members)
      (hField : field m t d) (hp : p ∈ d.parts) : FieldNode parent name p

end

section

variable {field : Codec → Selection → Codec → Prop} {parent c p : Codec} {name : String}
  {selections : List Selection}

theorem BodyCodec.added {on : Codec} (h : BodyCodec field on selections c) : Added c := by
  obtain ⟨nested, -, rfl⟩ := h
  exact .intersection _ _ _

/-- The nodes of a selection codec: the anonymous ones that it always has, and those of the nested
fields. -/
theorem added_or_nested {n : String} {fields : List String} {nested : List Codec}
    (hp : p ∈ (Codec.intersection (typename n :: .pick n fields :: nested)).parts) :
    (Added p ∧ p.isNamed = false) ∨ ∃ part ∈ nested, p ∈ part.parts := by
  rw [parts_intersection] at hp
  rcases List.mem_cons.mp hp with rfl | hp
  · exact Or.inl ⟨.intersection _ _ _, rfl⟩
  obtain ⟨part, hPart, hp⟩ := List.mem_flatMap.mp hp
  rcases List.mem_cons.mp hPart with rfl | hPart
  · -- the type name is a literal in an object
    rcases List.mem_pair.mp hp with rfl | rfl
    · exact Or.inl ⟨.object _, rfl⟩
    · exact Or.inl ⟨.literal n, rfl⟩
  rcases List.mem_cons.mp hPart with rfl | hPart
  · obtain rfl := List.mem_singleton.mp hp
    exact Or.inl ⟨.pick _ _, rfl⟩
  · exact Or.inr ⟨part, hPart, hp⟩

theorem BodyCodec.node_cases {on : Codec} (h : BodyCodec field on selections c)
    (hp : p ∈ c.parts) :
    (Added p ∧ p.isNamed = false) ∨ ∃ t d, field on t d ∧ p ∈ d.parts := by
  obtain ⟨nested, hNested, rfl⟩ := h
  rcases added_or_nested hp with hAdded | ⟨part, hPart, hp⟩
  · exact Or.inl hAdded
  · obtain ⟨t, -, d, hd, rfl⟩ := exists_left_of_forall₂ hNested hPart
    rw [parts_object] at hp
    rcases List.mem_cons.mp hp with rfl | hp
    · exact Or.inl ⟨.object _, rfl⟩
    · exact Or.inr ⟨t, d, hd, by simpa using hp⟩

theorem FieldNode.of_replaceCore {type new : Codec} (hType : parent.props.lookup name = some type)
    (hNew : Added new) (hParts : ∀ p ∈ new.parts, FieldNode field parent name p)
    (hp : p ∈ (type.replaceCore new).parts) : FieldNode field parent name p := by
  rcases exists_of_mem_parts_replaceCore hp with hp | ⟨item, ⟨hItem, rfl⟩ | ⟨hItem, rfl⟩⟩
  · exact hParts p hp
  · exact .array hType hItem hNew
  · exact .option hType hItem hNew

/-- The nodes of the codec of a field, by the cases of its compilation. -/
theorem Exit.fieldNode (h : Exit field parent name selections c) (hp : p ∈ c.parts) :
    FieldNode field parent name p := by
  cases h with
  | @scalar _ n hType hCheck hCore =>
      rw [← replaceCore_self c, hCore] at hp
      refine .of_replaceCore hType (.scalar n) (fun q hq => ?_) hp
      obtain rfl := List.mem_singleton.mp hq
      exact .added (.scalar n)
  | whole hType hCheck hCore hNone hBare =>
      rcases added_or_nested hp with ⟨hAdded, -⟩ | ⟨part, hPart, -⟩
      · exact .added hAdded
      · cases hPart
  | object hType hCheck hCore hNone hBare hBody =>
      refine .of_replaceCore hType hBody.added (fun q hq => ?_) hp
      rcases hBody.node_cases hq with ⟨hAdded, -⟩ | ⟨t, d, hd, hPart⟩
      · exact .added hAdded
      · exact .nested hType hd hPart
  | union hType hCheck hCore hSome hCover hMembers =>
      refine .of_replaceCore hType (.union _) (fun q hq => ?_) hp
      rw [parts_union] at hq
      rcases List.mem_cons.mp hq with rfl | hq
      · exact .added (.union _)
      obtain ⟨d, hd, hPart⟩ := List.mem_flatMap.mp hq
      obtain ⟨m, hm, inner, -, -, hBody⟩ := exists_left_of_forall₂ hMembers hd
      rcases hBody.node_cases hPart with ⟨hAdded, -⟩ | ⟨t, e, he, hBelow⟩
      · exact .added hAdded
      · exact .member hType hCore hm he hBelow

end

end Selections

/-! ## Picks of fields -/

namespace Selections

open Codec

variable {type : String} {fields : List String}

/-- The `Pick`s of a selection set are that of its leaves and those of its nested fields. -/
theorem BodyCodec.picks {field : Codec → Selection → Codec → Prop} {on c : Codec}
    {selections : List Selection} (h : BodyCodec field on selections c)
    (hPicks : c.Picks type fields) :
    (type = on.name ∧ fields = leaves selections) ∨
      ∃ t ∈ nodes selections, ∃ d, field on t d ∧ d.Picks type fields := by
  obtain ⟨nested, hNested, rfl⟩ := h
  obtain ⟨part, hPart, hPicks⟩ := picks_intersection.mp hPicks
  rcases List.mem_cons.mp hPart with rfl | hPart
  · exact absurd hPicks not_picks_typename
  rcases List.mem_cons.mp hPart with rfl | hPart
  · exact Or.inl (picks_pick.mp hPicks)
  · obtain ⟨t, ht, d, hField, rfl⟩ := exists_left_of_forall₂ hNested hPart
    obtain ⟨q, hq, hPicks⟩ := picks_object.mp hPicks
    obtain rfl := List.mem_singleton.mp hq
    exact Or.inr ⟨t, ht, d, hField, hPicks⟩

theorem BodyCodec.picks_leaves {field : Codec → Selection → Codec → Prop} {on c : Codec}
    {selections : List Selection} (h : BodyCodec field on selections c) :
    c.Picks on.name (leaves selections) := by
  obtain ⟨nested, -, rfl⟩ := h
  exact picks_intersection.mpr ⟨_, by simp, picks_pick.mpr ⟨rfl, rfl⟩⟩

/-- The codec of a nested field is a node of that of the selection set. -/
theorem BodyCodec.mem_parts {field : Codec → Selection → Codec → Prop} {on c : Codec}
    {selections : List Selection} (h : BodyCodec field on selections c) {t : Selection}
    (ht : t ∈ nodes selections) : ∃ d, field on t d ∧ ∀ p ∈ d.parts, p ∈ c.parts := by
  obtain ⟨nested, hNested, rfl⟩ := h
  obtain ⟨o, ho, d, hField, rfl⟩ := exists_right_of_forall₂ hNested ht
  refine ⟨d, hField, fun p hp => ?_⟩
  have hObject : p ∈ (Codec.object [(t.name, d)]).parts := by simp [hp]
  rw [codec, parts_intersection]
  exact List.mem_cons_of_mem _ (List.mem_flatMap.mpr ⟨_, by simp [ho], hObject⟩)

section

variable {parent type c : Codec} {s : Selection}

/-- A nonempty selection set without inline fragments is compiled as an object. -/
theorem Compiles.exists_body (hc : Compiles parent s c)
    (hType : parent.props.lookup s.name = some type) (hCore : ∀ n, type.core ≠ .scalar n)
    (hNone : conditions s.inner = []) (hBare : isBare s.inner = false) :
    ∃ body, BodyCodec Compiles type.core s.inner body ∧ c = type.replaceCore body := by
  obtain ⟨-, hExit⟩ := compiles_iff.mp hc
  cases hExit with
  | scalar hType' hCheck hScalar =>
      obtain rfl := Option.some.inj (hType.symm.trans hType')
      exact absurd hScalar (hCore _)
  | union hType' hCheck hUnion hSome => exact absurd hNone hSome
  | whole hType' hCheck hCore' hNone' hBare' =>
      rw [hBare] at hBare'
      cases hBare'
  | object hType' hCheck hCore' hNone' hBare' hBody =>
      obtain rfl := Option.some.inj (hType.symm.trans hType')
      exact ⟨_, hBody, rfl⟩

/-- A selection set with inline fragments on a union type is compiled as a union. -/
theorem Compiles.exists_entries (hc : Compiles parent s c)
    (hType : parent.props.lookup s.name = some type) {union : String} {members : List Codec}
    (hCore : type.core = .named union (.union members)) (hSome : conditions s.inner ≠ []) :
    ∃ entries, List.Forall₂ (MemberCodec Compiles s.inner) members entries ∧
      c = type.replaceCore (.union entries) := by
  obtain ⟨-, hExit⟩ := compiles_iff.mp hc
  cases hExit with
  | scalar hType' hCheck hScalar =>
      obtain rfl := Option.some.inj (hType.symm.trans hType')
      rw [hCore] at hScalar
      cases hScalar
  | whole hType' hCheck hCore' hNone => exact absurd hNone hSome
  | object hType' hCheck hCore' hNone => exact absurd hNone hSome
  | @union _ union' members' entries hType' hCheck hCore' hSome' hCover hMembers =>
      obtain rfl := Option.some.inj (hType.symm.trans hType')
      obtain ⟨rfl, rfl⟩ : union = union' ∧ members = members' := by
        simpa using hCore.symm.trans hCore'
      exact ⟨entries, hMembers, rfl⟩

end

/-- **A selection set is compiled on its type**, and its codec is a node of that of the enclosing
field. -/
theorem Scope.body {parent on : Codec} {s : Selection} {selections : List Selection}
    (h : Scope parent s on selections) {c : Codec} (hc : Compiles parent s c) :
    ∃ body, BodyCodec Compiles on selections body ∧ ∀ p ∈ body.parts, p ∈ c.parts := by
  induction h generalizing c with
  | object hType hCore hNone hBare =>
      obtain ⟨body, hBody, rfl⟩ := hc.exists_body hType hCore hNone hBare
      exact ⟨body, hBody, fun p hp => mem_parts_replaceCore hp⟩
  | member hType hCore hMember hInner =>
      obtain ⟨entries, hEntries, rfl⟩ :=
        hc.exists_entries hType hCore (conditions_ne_nil_of_fragment? hInner)
      obtain ⟨d, hd, inner', hInner', -, hBody⟩ := exists_right_of_forall₂ hEntries hMember
      obtain rfl := Option.some.inj (hInner.symm.trans hInner')
      refine ⟨d, hBody, fun p hp => mem_parts_replaceCore ?_⟩
      rw [parts_union]
      exact List.mem_cons_of_mem _ (List.mem_flatMap.mpr ⟨d, hd, hp⟩)
  | nested h ht h' ih ih' =>
      obtain ⟨body, hBody, hParts⟩ := ih hc
      obtain ⟨d, hd, hPart⟩ := hBody.mem_parts ht
      obtain ⟨body', hBody', hParts'⟩ := ih' hd
      exact ⟨body', hBody', fun p hp => hParts p (hPart p (hParts' p hp))⟩

end Selections

/-! ## Sound picks -/

/-- The schema has a type of this name with all these fields. -/
def Schema.Declares (schema : Schema) (type : String) (fields : List String) : Prop :=
  ∃ t ∈ schema.types, t.name = type ∧ t.isObjectType = true ∧ ∀ f ∈ fields, f ∈ Assoc.keys t.props

/-- In a closed schema, a type declares exactly its own fields. -/
theorem Schema.Closed.declares_iff {schema : Schema} (h : schema.Closed) {t : Codec}
    (ht : t ∈ schema.types) {fields : List String} :
    schema.Declares t.name fields ↔
      t.isObjectType = true ∧ ∀ f ∈ fields, f ∈ Assoc.keys t.props := by
  constructor
  · rintro ⟨t', ht', hName, hObject, hFields⟩
    have hSame : some t' = some t := by rw [← h.get t' ht', hName, h.get t ht]
    cases hSame
    exact ⟨hObject, hFields⟩
  · rintro ⟨hObject, hFields⟩
    exact ⟨t, ht, rfl, hObject, hFields⟩

namespace Selections

open Codec

/-- Some selection set below the field is on a type of this name and has these leaves. -/
def PickedIn (parent : Codec) (s : Selection) (type : String) (fields : List String) : Prop :=
  ∃ on selections, Scope parent s on selections ∧ type = on.name ∧ fields = leaves selections

/-- The origin of a `Pick` below the field `s` of `parent`: a selection set, or a field without
sub-selections, which its type declares. -/
def Explained (schema : Schema) (parent : Codec) (s : Selection) (type : String)
    (fields : List String) : Prop :=
  PickedIn parent s type fields ∨ schema.Declares type fields

theorem BodyCodec.explained {schema : Schema} {parent on body : Codec} {s : Selection}
    {selections : List Selection} {type : String} {fields : List String}
    {field : Codec → Selection → Codec → Prop} (h : BodyCodec field on selections body)
    (hField : ∀ t d, field on t d → d.Picks type fields → Explained schema on t type fields)
    (hScope : Scope parent s on selections) (hPicks : body.Picks type fields) :
    Explained schema parent s type fields := by
  rcases h.picks hPicks with ⟨hType, hFields⟩ | ⟨t, ht, d, hd, hPicks⟩
  · exact Or.inl ⟨on, selections, hScope, hType, hFields⟩
  · rcases hField t d hd hPicks with ⟨on', selections', hScope', hPicked⟩ | hDeclares
    · exact Or.inl ⟨on', selections', hScope.nested ht hScope', hPicked⟩
    · exact Or.inr hDeclares

theorem declares_wholeField {schema : Schema} (hClosed : schema.Closed) {parent type : Codec}
    {name : String} (hParent : parent ∈ schema.types)
    (hType : parent.props.lookup name = some type) : schema.Declares parent.name [name] := by
  have hMem := Assoc.mem_of_lookup hType
  refine (hClosed.declares_iff hParent).mpr ⟨hClosed.objects parent hParent ?_, ?_⟩
  · exact List.ne_nil_of_mem hMem
  · intro f hf
    obtain rfl := List.mem_singleton.mp hf
    exact List.mem_map.mpr ⟨_, hMem, rfl⟩

/-- **The origin of the `Pick`s of a field.** -/
theorem Compiles.explained {schema : Schema} (hClosed : schema.Closed) {parent c : Codec}
    {s : Selection} (h : Compiles parent s c) (hParent : schema.Knows parent) {type : String}
    {fields : List String} (hPicks : c.Picks type fields) :
    Explained schema parent s type fields := by
  refine Compiles.induct (motive := fun parent s c => schema.Knows parent → c.Picks type fields →
    Explained schema parent s type fields) ?_ h hParent hPicks
  clear h hParent hPicks
  intro parent s c hField hExit hParent hPicks
  cases hExit with
  | @scalar _ n hType hCheck hCore =>
      -- a custom scalar keeps its codec, and the wrappers have no `Pick`
      rw [← replaceCore_self c, picks_replaceCore, hCore] at hPicks
      simp [Picks] at hPicks
  | whole hType hCheck hCore hNone hBare =>
      obtain ⟨part, hPart, hPicks⟩ := picks_intersection.mp hPicks
      rcases List.mem_cons.mp hPart with rfl | hPart
      · exact absurd hPicks not_picks_typename
      · obtain rfl := List.mem_singleton.mp hPart
        obtain ⟨rfl, rfl⟩ := picks_pick.mp hPicks
        exact Or.inr (declares_wholeField hClosed (hParent.mem_of_lookup hType) hType)
  | object hType hCheck hCore hNone hBare hBody =>
      obtain ⟨-, -, -, hKnows⟩ := hClosed.lookup_prop hParent hType
      rw [picks_replaceCore] at hPicks
      exact hBody.explained (fun t d hd => hd.2 hKnows) (.object hType hCore hNone hBare) hPicks
  | union hType hCheck hCore hSome hCover hMembers =>
      obtain ⟨-, -, -, hKnows⟩ := hClosed.lookup_prop hParent hType
      rw [hCore] at hKnows
      rw [picks_replaceCore] at hPicks
      obtain ⟨d, hd, hPicks⟩ := picks_union.mp hPicks
      obtain ⟨m, hm, inner, hInner, -, hBody⟩ := exists_left_of_forall₂ hMembers hd
      exact hBody.explained (fun t d hd => hd.2 (hClosed.knows_member hKnows hm))
        (.member hType hCore hm hInner) hPicks

end Selections

namespace Operation

open Selections

/-- The nodes of a response are itself and those of its properties. -/
theorem parts_response {op : Operation} {root c : Codec} (h : op.selectionCodec root = .ok c) :
    c.parts = c :: c.props.flatMap fun q => q.2.parts := by
  obtain ⟨name, props, -, -, rfl⟩ := selectionCodec_eq_ok.mp h
  split_ifs
  · exact Codec.parts_mutation name props
  · exact Codec.parts_query name props

/-- A response is named, so its anonymous nodes are nodes of its fields. -/
theorem exists_field_of_mem_parts {op : Operation} {root c p : Codec}
    (h : op.selectionCodec root = .ok c) (hUnnamed : p.isNamed = false) (hp : p ∈ c.parts) :
    ∃ s ∈ op.selections, ∃ d, Compiles root s d ∧ p ∈ d.parts := by
  rw [parts_response h] at hp
  rcases List.mem_cons.mp hp with rfl | hp
  · obtain ⟨name, props, -, -, rfl⟩ := selectionCodec_eq_ok.mp h
    split_ifs at hUnnamed <;> cases hUnnamed
  · obtain ⟨q, hq, hPart⟩ := List.mem_flatMap.mp hp
    obtain ⟨s, hs, -, hd⟩ := exists_left_of_forall₂ (forall₂_rootProp h) hq
    exact ⟨s, hs, q.2, hd, hPart⟩

theorem picks_response {op : Operation} {root c : Codec} (h : op.selectionCodec root = .ok c)
    {type : String} {fields : List String} :
    c.Picks type fields ↔ ∃ q ∈ c.props, q.2.Picks type fields := by
  obtain ⟨name, props, -, -, rfl⟩ := selectionCodec_eq_ok.mp h
  unfold Codec.Picks
  split_ifs
  · simp [Codec.props]
  · simp [Codec.props]

/-- **The `Pick`s of a response are sound exactly if every leaf is a field of the type it is
selected on.** The compiler does not look leaves up, so nothing else ensures it. -/
theorem selectionCodec_picks_declared_iff {ds : List Definition} {schema : Schema}
    (hSchema : Schema.compile ds = .ok schema) {op : Operation} {root c : Codec}
    (hRoot : op.root schema = .ok root) (hc : op.selectionCodec root = .ok c) :
    (∀ type fields, c.Picks type fields → schema.Declares type fields) ↔
      ∀ s ∈ op.selections, ∀ on selections, Scope root s on selections →
        schema.Declares on.name (leaves selections) := by
  have hClosed := compile_closed hSchema
  have hProps := forall₂_rootProp hc
  constructor
  · intro h s hs on selections hScope
    obtain ⟨q, hq, -, hCompiles⟩ := exists_right_of_forall₂ hProps hs
    obtain ⟨body, hBody, hParts⟩ := hScope.body hCompiles
    exact h _ _ ((picks_response hc).mpr ⟨q, hq, hParts _ hBody.picks_leaves⟩)
  · intro h type fields hPicks
    obtain ⟨q, hq, hPicks⟩ := (picks_response hc).mp hPicks
    obtain ⟨s, hs, -, hCompiles⟩ := exists_left_of_forall₂ hProps hq
    have hKnows : schema.Knows root := Or.inr (mem_types_of_root hRoot)
    rcases hCompiles.explained hClosed hKnows hPicks with ⟨on, selections, hScope, rfl, rfl⟩ | hOk
    · exact h s hs on selections hScope
    · exact hOk

end Operation

/-! ## A leaf that no type declares -/

namespace Board

/-- An operation that selects an undeclared field. -/
def misspelt : Operation where
  kind := .query
  name := some "Misspelt"
  vars := []
  selections := [.node none "todos" [] [.leaf none "nope" []]]

def misspeltResponse : Codec :=
  .query "Misspelt" [("todos", .array (.intersection [.typename "Todo", .pick "Todo" ["nope"]]))]

theorem misspelt_picks_iff :
    Schema.compile (sortDefinitions definitions) = .ok schema ∧
      misspelt.root schema = .ok query ∧ misspelt.selectionCodec query = .ok misspeltResponse ∧
      ((∀ type fields, misspeltResponse.Picks type fields → schema.Declares type fields) ↔
        ∀ s ∈ misspelt.selections, ∀ on selections, Selections.Scope query s on selections →
          schema.Declares on.name (Selections.leaves selections)) := by
  have hRoot : misspelt.root schema = .ok query := by cbv
  have hc : misspelt.selectionCodec query = .ok misspeltResponse := by cbv
  exact ⟨compile_definitions, hRoot, hc,
    Operation.selectionCodec_picks_declared_iff compile_definitions hRoot hc⟩

/-- **A `Pick` of a field that the type does not declare.** -/
theorem undeclared_leaf_picked :
    misspelt.root schema = .ok query ∧ misspelt.selectionCodec query = .ok misspeltResponse ∧
      misspeltResponse.Picks "Todo" ["nope"] ∧ ¬ schema.Declares "Todo" ["nope"] := by
  refine ⟨by cbv, by cbv, ?_, ?_⟩
  · simp [misspeltResponse, Codec.Picks]
  · rintro ⟨t, ht, hName, -, hFields⟩
    have hNope := hFields "nope" (by simp)
    simp only [schema, List.mem_cons, List.not_mem_nil, or_false] at ht
    rcases ht with rfl | rfl | rfl | rfl | rfl | rfl
    all_goals revert hName hNope; decide

end Board

end GraphCodec
