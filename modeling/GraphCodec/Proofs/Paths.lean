import GraphCodec.Proofs.Erasure
import GraphCodec.Proofs.Order

/-!
# The paths of a response

A path leads from the root to a field, by field names and type conditions. The paths of an operation
are those of its selection set (`Selection.paths`), the paths of a response are those of its codec
(`Codec.keyPaths`), and the two must agree: no selected field may be missing from the codec and none
may be added.

Ignored selections are left out of the comparison (`Erasure.unasked`): those on a custom scalar, the
fields beside inline fragments on a union, and the inline fragments on a member type after the
first. The rest agrees path for path, with one exception. An inline fragment directly inside an
inline fragment is neither compiled nor rejected, and its selections are lost
(`selectionCodec_paths`, `Board.nested_fragment_lost`).
-/

set_option autoImplicit false

namespace GraphCodec

/-! ## Paths of a response -/

namespace Codec

/-- The members of a union type. -/
def unionMembers : Codec → List Codec
  | named _ (union members) => members
  | _ => []

/-- Whether a codec is a `Pick` from the type of this name. -/
def picksFrom (type : String) : Codec → Bool
  | pick t _ => t = type
  | _ => false

mutual

/-- The paths below a key of the type `on` whose field has the codec `type`. An intersection with a
`Pick` from `on` itself is a leaf. -/
def pathsBelow (on type : Codec) : Codec → List (List String)
  | array c => pathsBelow on type c
  | option c => pathsBelow on type c
  | union entries => entryPaths on type.core.unionMembers entries
  | intersection (_ :: parts) =>
    if parts.any (picksFrom on.name) then [] else partPaths type.core parts
  | _ => []
termination_by structural c => c

/-- The paths of the entries of a union. The member type is a step of the path. -/
def entryPaths (on : Codec) : List Codec → List Codec → List (List String)
  | m :: members, c :: entries =>
    (pathsBelow on m c).map (m.name :: ·) ++ entryPaths on members entries
  | _, _ => []
termination_by structural _ entries => entries

/-- The paths of the members of an intersection after its `__typename`. -/
def partPaths (on : Codec) : List Codec → List (List String)
  | [] => []
  | pick _ fields :: parts => fields.map ([·]) ++ partPaths on parts
  | object props :: parts => keyPaths on props ++ partPaths on parts
  | _ :: parts => partPaths on parts
termination_by structural parts => parts

/-- The paths of properties of the type `on`: each key, and the paths below it. -/
def keyPaths (on : Codec) : List (String × Codec) → List (List String)
  | [] => []
  | (k, c) :: props =>
    [k] :: (pathsBelow on (on.fieldType k) c).map (k :: ·) ++ keyPaths on props
termination_by structural props => props

end

end Codec

/-! ## Paths of an operation -/

mutual

/-- The paths of the fields in a selection, without `__typename`. -/
def Selection.paths : Selection → List (List String)
  | .leaf _ name _ => if name = "__typename" then [] else [[name]]
  | .node _ name _ selections => [name] :: (Selections.paths selections).map (name :: ·)
  | .inline condition _ selections =>
    (Selections.paths selections).map (condition.toList ++ ·)
  | .spread _ _ => []

def Selections.paths : List Selection → List (List String)
  | [] => []
  | s :: rest => s.paths ++ Selections.paths rest

end

/-- The paths of a root selection, where `__typename` is a field like any other. -/
def Selection.rootPaths : Selection → List (List String)
  | .leaf _ name _ => [[name]]
  | s => s.paths

/-! ## Ignored selections -/

/-- Drops the ignored selections. -/
def Erasure.unasked : Erasure := ⟨fun _ => [], true⟩

@[simp] theorem Erasure.flatMap_unasked (selections : List Selection) :
    selections.flatMap unasked.remains = [] :=
  List.flatMap_eq_nil_iff.mpr fun _ _ => rfl

/-- Whether the selection is an inline fragment. -/
def Selection.isFragment : Selection → Bool
  | .inline _ _ _ => true
  | _ => false

mutual

/-- A selection without the inline fragments directly inside inline fragments. -/
def Selection.unnested : Selection → Selection
  | .node shown name directives selections =>
    .node shown name directives (Selections.unnested selections)
  | .inline condition directives selections =>
    .inline condition directives (Selections.unnestedFields selections)
  | .leaf shown name directives => .leaf shown name directives
  | .spread name directives => .spread name directives

def Selections.unnested : List Selection → List Selection
  | [] => []
  | s :: rest => s.unnested :: Selections.unnested rest

/-- The selection set of an inline fragment, without the inline fragments in it. -/
def Selections.unnestedFields : List Selection → List Selection
  | [] => []
  | .inline _ _ _ :: rest => Selections.unnestedFields rest
  | s :: rest => s.unnested :: Selections.unnestedFields rest

end

/-- **The paths that an operation requests** on a root type. -/
def Operation.requestedPaths (root : Codec) (selections : List Selection) : List (List String) :=
  selections.flatMap fun s => (s.erased .unasked root).rootPaths

/-! ## Names inside a type

A type holds the codecs of its field types, so these are smaller, and a name stands for one
codec only. A codec inside a type therefore never has the type's name. -/

namespace Codec

theorem sizeOf_core_le (c : Codec) : sizeOf c.core ≤ sizeOf c := by
  fun_induction core c with
  | case1 c ih =>
      rw [array.sizeOf_spec]
      omega
  | case2 c ih =>
      rw [option.sizeOf_spec]
      omega
  | case3 c => exact Nat.le_refl _

theorem sizeOf_lt_of_mem_props {c t : Codec} {k : String} (h : (k, t) ∈ c.props) :
    sizeOf t < sizeOf c := by
  have hProps : ∀ {ps : List (String × Codec)}, (k, t) ∈ ps → sizeOf t < sizeOf ps := by
    intro ps hMem
    have hPair := List.sizeOf_lt_of_mem hMem
    rw [Prod.mk.sizeOf_spec] at hPair
    omega
  unfold props at h
  split at h
  case h_6 => cases h
  all_goals
    have := hProps h
    simp
    omega

theorem sizeOf_lt_of_mem_unionMembers {c m : Codec} (h : m ∈ c.unionMembers) :
    sizeOf m < sizeOf c := by
  unfold unionMembers at h
  split at h
  · have := List.sizeOf_lt_of_mem h
    simp
    omega
  · cases h

end Codec

namespace Schema

variable {schema : Schema}

theorem Closed.name_ne_of_sizeOf_lt (h : schema.Closed) (hNames : ∀ c ∈ schema.types, c.name ≠ "")
    {c parent : Codec} (hc : schema.Knows c) (hParent : parent ∈ schema.types)
    (hLt : sizeOf c < sizeOf parent) : c.name ≠ parent.name := by
  intro hName
  rcases hc with ⟨p, rfl⟩ | hc
  · exact hNames parent hParent hName.symm
  · have hSame : some c = some parent := by rw [← h.get c hc, hName, h.get parent hParent]
    cases hSame
    exact Nat.lt_irrefl _ hLt

/-- A member type of a union is found by its name. -/
theorem Closed.memberNamed_eq (h : schema.Closed) {union : String} {members : List Codec}
    (hUnion : schema.Knows (.named union (.union members))) {m : Codec} (hm : m ∈ members) :
    Codec.memberNamed members m.name = m := by
  have hTypes : ∀ c ∈ members, c ∈ schema.types := by
    rcases hUnion with ⟨p, hp⟩ | hUnion
    · cases hp
    · exact h.member union members hUnion
  unfold Codec.memberNamed
  cases hFind : members.find? fun c => c.name = m.name with
  | none => exact absurd (List.find?_eq_none.mp hFind m hm) (by simp)
  | some c =>
      have hName : c.name = m.name := by simpa using List.find?_some hFind
      have hSame : some c = some m := by
        rw [← h.get c (hTypes c (List.mem_of_find?_eq_some hFind)), hName, h.get m (hTypes m hm)]
      rw [Option.getD_some, Option.some.inj hSame]

end Schema

/-! ## Paths of lists -/

namespace Codec

variable {on type : Codec} {p : List String}

theorem pathsBelow_replaceCore (t new : Codec) :
    pathsBelow on type (t.replaceCore new) = pathsBelow on type new := by
  fun_induction core t with
  | case1 c ih => rw [replaceCore, pathsBelow, ih]
  | case2 c ih => rw [replaceCore, pathsBelow, ih]
  | case3 c hArray hOption =>
      rw [replaceCore]
      · exact hArray
      · exact hOption

theorem pathsBelow_core (c : Codec) : pathsBelow on type c.core = pathsBelow on type c := by
  rw [← pathsBelow_replaceCore c c.core, replaceCore_self]

theorem pathsBelow_intersection {discriminant : Codec} {parts : List Codec}
    (h : parts.any (picksFrom on.name) = false) :
    pathsBelow on type (intersection (discriminant :: parts)) = partPaths type.core parts := by
  simp [pathsBelow, h]

/-- A field without sub-selections is a leaf. -/
@[simp] theorem pathsBelow_wholeField (name : String) :
    pathsBelow on type (Selections.wholeField on name) = [] := by
  simp [Selections.wholeField, pathsBelow, picksFrom]

theorem mem_keyPaths {props : List (String × Codec)} :
    p ∈ keyPaths on props ↔ ∃ q ∈ props, p = [q.1] ∨
      ∃ r ∈ pathsBelow on (on.fieldType q.1) q.2, p = q.1 :: r := by
  induction props with
  | nil => simp [keyPaths]
  | cons q props ih =>
      obtain ⟨k, c⟩ := q
      simp only [keyPaths, List.cons_append, List.mem_cons, List.mem_append, List.mem_map, ih,
        exists_eq_or_imp, or_assoc, @eq_comm _ p]

/-- The members of a selection codec after its `Pick` are objects. -/
theorem mem_partPaths_objects {objects : List Codec}
    (hObjects : ∀ c ∈ objects, ∃ props, c = object props) :
    p ∈ partPaths on objects ↔ ∃ c ∈ objects, p ∈ keyPaths on c.props := by
  induction objects with
  | nil => simp [partPaths]
  | cons c objects ih =>
      obtain ⟨props, rfl⟩ := hObjects c (by simp)
      rw [partPaths, List.mem_append, ih fun d hd => hObjects d (by simp [hd])]
      simp [Codec.props]

theorem mem_entryPaths {members entries : List Codec} {R : Codec → List String → Prop}
    (h : List.Forall₂ (fun m c => ∀ r, r ∈ pathsBelow on m c ↔ R m r) members entries) :
    p ∈ entryPaths on members entries ↔ ∃ m ∈ members, ∃ r, R m r ∧ p = m.name :: r := by
  induction h with
  | nil => simp [entryPaths]
  | @cons m c members entries hHead hTail ih =>
      rw [entryPaths, List.mem_append, ih]
      simp [hHead, @eq_comm _ p]

end Codec

namespace Selections

variable {on : Codec} {selections : List Selection} {p : List String}

theorem mem_paths : p ∈ paths selections ↔ ∃ s ∈ selections, p ∈ s.paths := by
  induction selections with
  | nil => simp [paths]
  | cons s rest ih => simp [paths, ih]

theorem unnested_eq (selections : List Selection) :
    unnested selections = selections.map Selection.unnested := by
  induction selections with
  | nil => rfl
  | cons s rest ih => rw [unnested, ih, List.map_cons]

theorem mem_unnestedFields {t : Selection} :
    t ∈ unnestedFields selections ↔
      ∃ s ∈ selections, s.isFragment = false ∧ t = s.unnested := by
  induction selections with
  | nil => simp [unnestedFields]
  | cons s rest ih =>
      cases s with
      | inline c ds ss => simp [unnestedFields, ih, Selection.isFragment]
      | _ => simp [unnestedFields, ih, Selection.isFragment]

theorem conditions_unnested (selections : List Selection) :
    conditions (unnested selections) = conditions selections := by
  rw [unnested_eq, conditions, conditions, List.filterMap_map]
  congr 1
  funext s
  cases s <;> rfl

theorem fragment?_unnested (type : String) (selections : List Selection) :
    fragment? type (unnested selections) = (fragment? type selections).map unnestedFields := by
  fun_induction fragment? type selections with
  | case1 => rfl
  | case2 ds inner rest => simp [unnested, Selection.unnested, fragment?]
  | case3 c ds inner rest hc ih => simp [unnested, Selection.unnested, fragment?, hc, ih]
  | case4 s rest hs ih =>
      cases s with
      | inline c ds ss =>
          cases c with
          | none => simpa [unnested, Selection.unnested, fragment?] using ih
          | some c => exact absurd rfl (hs c ds ss)
      | _ => simpa [unnested, Selection.unnested, fragment?] using ih

/-! ## Requested paths below a field -/

theorem inner_erased_unnested {s : Selection} (h : s.isField = true) {on type : Codec}
    (hType : on.props.lookup s.name = some type) :
    (s.unnested.erased .unasked on).inner = erasedBelow .unasked type.core (unnested s.inner) := by
  rw [← Codec.fieldType_eq hType]
  cases s with
  | leaf shown name directives => exact inner_erased rfl on
  | node shown name directives ss => exact inner_erased rfl on
  | _ => cases h

/-- The paths of an erased selection set on a union: those of the first inline fragments, each below
its type condition. -/
theorem mem_paths_erasedFragments {members : List Codec} {done : List String} :
    p ∈ paths (erasedFragments .unasked members done selections) ↔
      ∃ c inner, c ∉ done ∧ fragment? c selections = some inner ∧
        ∃ q ∈ paths (erased .unasked (Codec.memberNamed members c) inner), p = c :: q := by
  rw [mem_paths]
  constructor
  · rintro ⟨t, ht, hp⟩
    rcases of_mem_erasedFragments ht with ⟨s, -, hRemains⟩ | ⟨c, directives, inner, hc, hInner, rfl⟩
    · cases hRemains
    · obtain ⟨q, hq, rfl⟩ := List.mem_map.mp hp
      exact ⟨c, inner, hc, hInner, q, hq, rfl⟩
  · rintro ⟨c, inner, hc, hInner, q, hq, rfl⟩
    obtain ⟨directives, hMem⟩ := exists_mem_erasedFragments hc hInner
    exact ⟨_, hMem, List.mem_map.mpr ⟨q, hq, rfl⟩⟩

/-- The paths of the fields of a selection set: the leaves, and the nested fields with the paths
below them. -/
def Asked (on : Codec) (selections : List Selection) (p : List String) : Prop :=
  (∃ n ∈ leaves selections, p = [n]) ∨
    ∃ t ∈ nodes selections, p ∈ (t.unnested.erased .unasked on).paths

theorem paths_leaf (on : Codec) (shown : Option String) (name : String) (directives : List String) :
    ((Selection.leaf shown name directives).unnested.erased .unasked on).paths =
      if name = "__typename" then [] else [[name]] :=
  rfl

theorem asked_iff : Asked on selections p ↔
    ∃ s ∈ selections, s.isFragment = false ∧ p ∈ (s.unnested.erased .unasked on).paths := by
  constructor
  · rintro (⟨n, hn, rfl⟩ | ⟨t, ht, hp⟩)
    · obtain ⟨s, hs, hLeaf⟩ := List.mem_filterMap.mp hn
      cases s with
      | leaf shown name directives =>
          simp only [Selection.leaf?, Option.ite_none_left_eq_some, Option.some.injEq] at hLeaf
          obtain ⟨hName, rfl⟩ := hLeaf
          exact ⟨_, hs, rfl, by simp [paths_leaf, hName]⟩
      | _ => cases hLeaf
    · obtain ⟨hMem, hNode⟩ := mem_nodes.mp ht
      cases t with
      | node shown name directives ss => exact ⟨_, hMem, rfl, hp⟩
      | _ => cases hNode
  · rintro ⟨s, hs, hFragment, hp⟩
    cases s with
    | leaf shown name directives =>
        rw [paths_leaf] at hp
        by_cases hName : name = "__typename"
        · simp [hName] at hp
        · refine Or.inl ⟨name, List.mem_filterMap.mpr ⟨_, hs, ?_⟩, ?_⟩
          · simp [Selection.leaf?, hName]
          · simpa [hName] using hp
    | node shown name directives ss => exact Or.inr ⟨_, mem_nodes.mpr ⟨hs, rfl⟩, hp⟩
    | spread name directives => simp [Selection.unnested, Selection.erased, Selection.paths] at hp
    | inline c ds ss => cases hFragment

/-- The paths of an inline fragment without the inline fragments in it. -/
theorem mem_paths_unnestedFields :
    p ∈ paths (erased .unasked on (unnestedFields selections)) ↔ Asked on selections p := by
  rw [asked_iff, mem_paths, erased_eq]
  simp only [List.mem_map, mem_unnestedFields]
  constructor
  · rintro ⟨_, ⟨_, ⟨s, hs, hFragment, rfl⟩, rfl⟩, hp⟩
    exact ⟨s, hs, hFragment, hp⟩
  · rintro ⟨s, hs, hFragment, hp⟩
    exact ⟨_, ⟨_, ⟨s, hs, hFragment, rfl⟩, rfl⟩, hp⟩

/-- The paths of a selection set without inline fragments. -/
theorem mem_paths_unnested (hCheck : check selections = .ok ())
    (hNone : conditions selections = []) :
    p ∈ paths (erased .unasked on (unnested selections)) ↔ Asked on selections p := by
  rw [asked_iff, mem_paths, erased_eq, unnested_eq]
  simp only [List.mem_map]
  constructor
  · rintro ⟨_, ⟨_, ⟨s, hs, rfl⟩, rfl⟩, hp⟩
    have hField := isField_of_check hCheck hNone hs
    refine ⟨s, hs, ?_, hp⟩
    cases s with
    | inline c ds ss => cases hField
    | _ => rfl
  · rintro ⟨s, hs, -, hp⟩
    exact ⟨_, ⟨_, ⟨s, hs, rfl⟩, rfl⟩, hp⟩

/-- The requested paths of a selection set on a union. -/
theorem mem_paths_fragments {members : List Codec} :
    p ∈ paths (erasedFragments .unasked members [] (unnested selections)) ↔
      ∃ c inner, fragment? c selections = some inner ∧
        ∃ q, Asked (Codec.memberNamed members c) inner q ∧ p = c :: q := by
  rw [mem_paths_erasedFragments]
  simp only [List.not_mem_nil, not_false_eq_true, true_and, fragment?_unnested,
    Option.map_eq_some_iff]
  refine exists_congr fun c => ⟨?_, ?_⟩
  · rintro ⟨_, ⟨inner, hInner, rfl⟩, q, hq, rfl⟩
    exact ⟨inner, hInner, q, mem_paths_unnestedFields.mp hq, rfl⟩
  · rintro ⟨inner, hInner, q, hq, rfl⟩
    exact ⟨_, ⟨inner, hInner, rfl⟩, q, mem_paths_unnestedFields.mpr hq, rfl⟩

theorem not_asked_of_isBare (hBare : isBare selections = true) : ¬ Asked on selections p := by
  simp only [isBare, Bool.and_eq_true, decide_eq_true_eq, Bool.not_eq_true'] at hBare
  rintro (⟨n, hn, -⟩ | ⟨t, ht, -⟩)
  · rw [hBare.1] at hn
    cases hn
  · obtain ⟨hMem, hNode⟩ := mem_nodes.mp ht
    exact List.any_eq_false.mp hBare.2 t hMem hNode

/-- A field with a selection set is a path and a prefix of the paths below it. -/
theorem mem_paths_node {t : Selection} (h : t.isNode = true) :
    p ∈ (t.unnested.erased .unasked on).paths ↔ p = [t.name] ∨
      ∃ q ∈ paths (t.unnested.erased .unasked on).inner, p = t.name :: q := by
  cases t with
  | node shown name directives ss =>
      simp [Selection.unnested, Selection.erased, Selection.paths, Selection.inner,
        Selection.name, @eq_comm _ p]
  | _ => cases h

theorem mem_rootPaths {t : Selection} (h : t.isField = true) :
    p ∈ (t.unnested.erased .unasked on).rootPaths ↔ p = [t.name] ∨
      ∃ q ∈ paths (t.unnested.erased .unasked on).inner, p = t.name :: q := by
  cases t with
  | leaf shown name directives =>
      simp [Selection.unnested, Selection.erased, Selection.rootPaths, Selection.inner,
        Selection.name, paths]
  | node shown name directives ss => exact mem_paths_node rfl
  | _ => cases h

/-! ## Fields have the requested paths -/

/-- The codec of a field of `parent` has exactly the requested paths below the field. -/
def Shows (parent : Codec) (s : Selection) (c : Codec) : Prop :=
  ∀ p, p ∈ Codec.pathsBelow parent (parent.fieldType s.name) c ↔
    p ∈ paths (s.unnested.erased .unasked parent).inner

section

variable {field : Codec → Selection → Codec → Prop}

/-- A nested field is a key of the codec. -/
theorem NestedCodec.mem_keyPaths {t : Selection} {c : Codec} (h : NestedCodec field on t c)
    (ht : t.isNode = true) (hShows : ∀ d, field on t d → Shows on t d) :
    p ∈ Codec.keyPaths on c.props ↔ p ∈ (t.unnested.erased .unasked on).paths := by
  obtain ⟨d, hField, rfl⟩ := h
  rw [mem_paths_node ht, Codec.mem_keyPaths]
  simp only [Codec.props, List.mem_singleton, exists_eq_left]
  exact or_congr_right (exists_congr fun q => and_congr_left fun _ => hShows d hField q)

/-- **A selection set has the requested paths**, if its nested fields have. -/
theorem BodyCodec.mem_pathsBelow {parent type body : Codec}
    (h : BodyCodec field on selections body) (hCore : type.core = on)
    (hName : on.name ≠ parent.name) (hShows : ∀ t d, field on t d → Shows on t d) :
    p ∈ Codec.pathsBelow parent type body ↔ Asked on selections p := by
  obtain ⟨nested, hNested, rfl⟩ := h
  have hObjects : ∀ c ∈ nested, ∃ props, c = .object props := by
    intro c hc
    obtain ⟨t, -, d, -, rfl⟩ := exists_left_of_forall₂ hNested hc
    exact ⟨_, rfl⟩
  -- only the leaves are part of a `Pick`, and from another type than the parent
  have hPicks : (Codec.pick on.name (leaves selections) :: nested).any
      (Codec.picksFrom parent.name) = false := by
    refine List.any_eq_false.mpr fun c hc => ?_
    rcases List.mem_cons.mp hc with rfl | hc
    · simpa [Codec.picksFrom] using hName
    · obtain ⟨props, rfl⟩ := hObjects c hc
      simp [Codec.picksFrom]
  rw [codec, Codec.pathsBelow_intersection hPicks, hCore, Codec.partPaths, List.mem_append,
    Codec.mem_partPaths_objects hObjects]
  refine or_congr (by simp [@eq_comm _ p]) ⟨?_, ?_⟩
  · rintro ⟨c, hc, hp⟩
    obtain ⟨t, ht, htc⟩ := exists_left_of_forall₂ hNested hc
    exact ⟨t, ht, (htc.mem_keyPaths (mem_nodes.mp ht).2 (hShows t)).mp hp⟩
  · rintro ⟨t, ht, hp⟩
    obtain ⟨c, hc, htc⟩ := exists_right_of_forall₂ hNested ht
    exact ⟨c, hc, (htc.mem_keyPaths (mem_nodes.mp ht).2 (hShows t)).mpr hp⟩

end

section

variable {schema : Schema} (hClosed : schema.Closed)
  (hNames : ∀ c ∈ schema.types, c.name ≠ "")

include hClosed hNames

/-- The named type of a field differs from the type that has the field. -/
theorem name_core_ne {parent type : Codec} {name : String} (hParent : schema.Knows parent)
    (hType : parent.props.lookup name = some type) {c : Codec} (hc : schema.Knows c)
    (hSize : sizeOf c ≤ sizeOf type.core) : c.name ≠ parent.name := by
  have hProp := Codec.sizeOf_lt_of_mem_props (Assoc.mem_of_lookup hType)
  have hTypeCore := Codec.sizeOf_core_le type
  exact hClosed.name_ne_of_sizeOf_lt hNames hc (hParent.mem_of_lookup hType) (by omega)

/-- The entries of a union have the requested paths, if the nested fields have. -/
theorem mem_entryPaths_iff {parent type : Codec} {s : Selection} {union : String}
    {members codecs : List Codec} (hParent : schema.Knows parent)
    (hType : parent.props.lookup s.name = some type)
    (hCore : type.core = .named union (.union members))
    (hMembers : List.Forall₂ (MemberCodec (fun q t d => schema.Knows q → Shows q t d) s.inner)
      members codecs) {p : List String} :
    p ∈ Codec.entryPaths parent members codecs ↔ ∃ m ∈ members, ∃ r,
      (∃ inner, fragment? m.name s.inner = some inner ∧ Asked m inner r) ∧ p = m.name :: r := by
  refine Codec.mem_entryPaths
    (((List.forall₂_and_left _ _).mpr ⟨fun m hm => hm, hMembers⟩).imp ?_)
  rintro m c ⟨hm, inner, hInner, -, hBody⟩ r
  obtain ⟨-, -, -, hUnion⟩ := hClosed.lookup_prop hParent hType
  have hSize : sizeOf m < sizeOf type.core := by
    rw [hCore]
    exact Codec.sizeOf_lt_of_mem_unionMembers hm
  rw [hCore] at hUnion
  have hKnows := hClosed.knows_member hUnion hm
  rw [hBody.mem_pathsBelow (hKnows.core_eq hClosed)
    (name_core_ne hClosed hNames hParent hType hKnows hSize.le) fun t d hShows => hShows hKnows]
  constructor
  · intro hAsked
    exact ⟨inner, hInner, hAsked⟩
  · rintro ⟨inner', hInner', hAsked⟩
    rw [hInner] at hInner'
    cases hInner'
    exact hAsked

/-- **A field has the requested paths**, if the nested fields have. -/
theorem Exit.shows {parent c : Codec} {s : Selection} (hField : s.isField = true)
    (hParent : schema.Knows parent)
    (h : Exit (fun q t d => schema.Knows q → Shows q t d) parent s.name s.inner c) :
    Shows parent s c := by
  intro p
  cases h with
  | @scalar type n hType hCheck hCore =>
      rw [inner_erased_unnested hField hType, Codec.fieldType_eq hType, ← Codec.pathsBelow_core,
        hCore]
      simp [Codec.pathsBelow, erasedBelow, paths]
  | @union type union members codecs hType hCheck hCore hSome hCover hMembers =>
      obtain ⟨-, -, -, hUnion⟩ := hClosed.lookup_prop hParent hType
      rw [hCore] at hUnion
      rw [inner_erased_unnested hField hType, Codec.fieldType_eq hType,
        Codec.pathsBelow_replaceCore, Codec.pathsBelow, hCore, Codec.unionMembers,
        mem_entryPaths_iff hClosed hNames hParent hType hCore hMembers,
        erasedBelow_union (by rwa [conditions_unnested]), mem_paths_fragments]
      constructor
      · rintro ⟨m, hm, q, ⟨inner, hInner, hAsked⟩, rfl⟩
        rw [← hClosed.memberNamed_eq hUnion hm] at hAsked
        exact ⟨m.name, inner, hInner, q, hAsked, rfl⟩
      · -- a condition that is no member's name would not have passed the check
        rintro ⟨k, inner, hInner, q, hAsked, rfl⟩
        obtain ⟨m, hm, rfl⟩ := List.mem_map.mp
          (mem_of_checkCover hCover (mem_conditions_of_fragment? hInner))
        rw [hClosed.memberNamed_eq hUnion hm] at hAsked
        exact ⟨m, hm, q, ⟨inner, hInner, hAsked⟩, rfl⟩
  | @whole type hType hCheck hCore hNone hBare =>
      rw [inner_erased_unnested hField hType, Codec.pathsBelow_wholeField,
        erasedBelow_plain hCore (by rw [conditions_unnested, hNone]),
        mem_paths_unnested hCheck hNone]
      simpa using not_asked_of_isBare hBare
  | @object type body hType hCheck hCore hNone hBare hBody =>
      obtain ⟨-, -, -, hKnows⟩ := hClosed.lookup_prop hParent hType
      rw [inner_erased_unnested hField hType, Codec.fieldType_eq hType,
        Codec.pathsBelow_replaceCore, erasedBelow_plain hCore (by rw [conditions_unnested, hNone]),
        mem_paths_unnested hCheck hNone]
      exact hBody.mem_pathsBelow rfl (name_core_ne hClosed hNames hParent hType hKnows le_rfl)
        fun t d hShows => hShows hKnows

theorem Compiles.shows {parent c : Codec} {s : Selection} (h : Compiles parent s c)
    (hParent : schema.Knows parent) : Shows parent s c := by
  refine h.induct (motive := fun q t d => schema.Knows q → Shows q t d) ?_ hParent
  intro q t d hField hExit hKnows
  exact Exit.shows hClosed hNames hField hKnows (hExit.imp fun _ _ _ _ hNested => hNested.2)

end

/-! ## Responses have the requested paths -/

/-- Dropping nested inline fragments loses paths only. -/
def AsksLess (s : Selection) : Prop :=
  ∀ on, (s.unnested.erased .unasked on).paths ⊆ (s.erased .unasked on).paths

theorem paths_erased_subset {kept : List Selection}
    (hKept : ∀ t ∈ kept, ∃ s ∈ selections, t = s.unnested)
    (hLess : ∀ s ∈ selections, AsksLess s) :
    paths (erased .unasked on kept) ⊆ paths (erased .unasked on selections) := by
  intro p hp
  rw [mem_paths, erased_eq] at hp ⊢
  obtain ⟨_, hMem, hp⟩ := hp
  obtain ⟨t, ht, rfl⟩ := List.mem_map.mp hMem
  obtain ⟨s, hs, rfl⟩ := hKept t ht
  exact ⟨_, List.mem_map_of_mem hs, hLess s hs on hp⟩

theorem paths_unnestedFields_subset (hLess : ∀ s ∈ selections, AsksLess s) :
    paths (erased .unasked on (unnestedFields selections)) ⊆
      paths (erased .unasked on selections) := by
  refine paths_erased_subset (fun t ht => ?_) hLess
  obtain ⟨s, hs, -, rfl⟩ := mem_unnestedFields.mp ht
  exact ⟨s, hs, rfl⟩

theorem paths_erasedBelow_subset {core : Codec} (hLess : ∀ s ∈ selections, AsksLess s)
    (hInside : ∀ c inner, fragment? c selections = some inner → ∀ s ∈ inner, AsksLess s) :
    paths (erasedBelow .unasked core (unnested selections)) ⊆
      paths (erasedBelow .unasked core selections) := by
  unfold erasedBelow
  rw [conditions_unnested]
  split
  · rw [Erasure.flatMap_unasked, Erasure.flatMap_unasked]
    exact List.Subset.refl _
  · intro p hp
    rw [mem_paths_erasedFragments] at hp ⊢
    obtain ⟨c, kept, hc, hKept, q, hq, rfl⟩ := hp
    rw [fragment?_unnested] at hKept
    obtain ⟨inner, hInner, rfl⟩ := Option.map_eq_some_iff.mp hKept
    exact ⟨c, inner, hc, hInner, q,
      paths_unnestedFields_subset (hInside c inner hInner) hq, rfl⟩
  · refine paths_erased_subset (fun t ht => ?_) hLess
    rw [unnested_eq] at ht
    obtain ⟨s, hs, rfl⟩ := List.mem_map.mp ht
    exact ⟨s, hs, rfl⟩

theorem asksLess (s : Selection) : AsksLess s := by
  -- the fragments on a union are compiled with the field, two levels above their selections
  induction hk : sizeOf s using Nat.strongRecOn generalizing s with
  | _ k ih =>
    subst hk
    have hInner : ∀ t ∈ s.inner, AsksLess t :=
      fun t ht => ih _ (Selection.sizeOf_lt_of_mem_inner ht) t rfl
    intro on
    cases s with
    | leaf shown name directives => exact List.Subset.refl _
    | spread name directives => exact List.Subset.refl _
    | node shown name directives ss =>
        have hBelow : paths (erasedBelow .unasked (on.fieldType name).core (unnested ss)) ⊆
            paths (erasedBelow .unasked (on.fieldType name).core ss) :=
          paths_erasedBelow_subset hInner fun c inner hFragment t ht =>
            ih _ (sizeOf_lt_of_mem_fragment hFragment ht) t rfl
        exact List.cons_subset_cons _ (List.map_subset _ hBelow)
    | inline condition directives ss =>
        exact List.map_subset _ (paths_unnestedFields_subset hInner)

theorem rootPaths_unnested_subset (s : Selection) (on : Codec) :
    (s.unnested.erased .unasked on).rootPaths ⊆ (s.erased .unasked on).rootPaths := by
  cases s with
  | leaf shown name directives => exact List.Subset.refl _
  | _ => exact asksLess _ on

end Selections

namespace Operation

open Selections

/-- A root field has the requested paths. -/
theorem RootProp.mem_paths {schema : Schema} (hClosed : schema.Closed)
    (hNames : ∀ c ∈ schema.types, c.name ≠ "") {root : Codec} (hRoot : schema.Knows root)
    {s : Selection} {q : String × Codec} (h : RootProp root s q) {p : List String} :
    (p = [q.1] ∨ ∃ r ∈ Codec.pathsBelow root (root.fieldType q.1) q.2, p = q.1 :: r) ↔
      p ∈ (s.unnested.erased .unasked root).rootPaths := by
  obtain ⟨hName, hCompiles⟩ := h
  have hShows := hCompiles.shows hClosed hNames hRoot
  rw [mem_rootPaths (compiles_iff.mp hCompiles).1, hName]
  exact or_congr_right (exists_congr fun r => and_congr_left fun _ => hShows r)

theorem mem_keyPaths_iff {schema : Schema} (hClosed : schema.Closed)
    (hNames : ∀ c ∈ schema.types, c.name ≠ "") {op : Operation} {root c : Codec}
    (hRoot : op.root schema = .ok root) (hc : op.selectionCodec root = .ok c) {p : List String} :
    p ∈ Codec.keyPaths root c.props ↔
      p ∈ requestedPaths root (op.selections.map Selection.unnested) := by
  have hProps := forall₂_rootProp hc
  have hKnows : schema.Knows root := Or.inr (mem_types_of_root hRoot)
  rw [Codec.mem_keyPaths, requestedPaths, List.flatMap_map, List.mem_flatMap]
  constructor
  · rintro ⟨q, hq, hp⟩
    obtain ⟨s, hs, hProp⟩ := exists_left_of_forall₂ hProps hq
    exact ⟨s, hs, (hProp.mem_paths hClosed hNames hKnows).mp hp⟩
  · rintro ⟨s, hs, hp⟩
    obtain ⟨q, hq, hProp⟩ := exists_right_of_forall₂ hProps hs
    exact ⟨q, hq, (hProp.mem_paths hClosed hNames hKnows).mpr hp⟩

theorem requestedPaths_unnested_subset (root : Codec) (selections : List Selection) :
    requestedPaths root (selections.map Selection.unnested) ⊆ requestedPaths root selections := by
  intro p hp
  rw [requestedPaths, List.flatMap_map, List.mem_flatMap] at hp
  obtain ⟨s, hs, hp⟩ := hp
  exact List.mem_flatMap.mpr ⟨s, hs, rootPaths_unnested_subset s root hp⟩

/-- **The paths of a response are those its operation requests, but for nested inline fragments.**
They are the paths that are requested once the inline fragments inside inline fragments are dropped,
so none is added, and none is lost otherwise. -/
theorem selectionCodec_paths {ds : List Definition} {schema : Schema} {op : Operation}
    {root c : Codec} (hSchema : Schema.compile ds = .ok schema)
    (hNames : ∀ d ∈ ds, d.name ≠ "") (hRoot : op.root schema = .ok root)
    (hc : op.selectionCodec root = .ok c) :
    (∀ p, p ∈ Codec.keyPaths root c.props ↔
        p ∈ requestedPaths root (op.selections.map Selection.unnested)) ∧
      ∀ p ∈ Codec.keyPaths root c.props, p ∈ requestedPaths root op.selections := by
  have hTypeNames : ∀ t ∈ schema.types, t.name ≠ "" := by
    intro t ht
    obtain ⟨memo, hBuilt, hTypes⟩ := compile_built hSchema
    obtain ⟨d, hd, hLook⟩ := exists_left_of_forall₂ hTypes ht
    rw [hBuilt.name_eq hLook]
    exact hNames d hd
  have hIff := fun p => mem_keyPaths_iff (compile_closed hSchema) hTypeNames hRoot hc (p := p)
  exact ⟨hIff, fun p hp => requestedPaths_unnested_subset root _ ((hIff p).mp hp)⟩

end Operation

namespace Board

/-- The operation has selection sets on a scalar, on object types and on a union. -/
theorem operation_paths :
    Schema.compile (sortDefinitions definitions) = .ok schema ∧
      (∀ d ∈ sortDefinitions definitions, d.name ≠ "") ∧ operation.root schema = .ok query ∧
      ∃ c, operation.selectionCodec query = .ok c ∧
        (∀ p, p ∈ Codec.keyPaths query c.props ↔
          p ∈ Operation.requestedPaths query (operation.selections.map Selection.unnested)) ∧
        ∀ p ∈ Codec.keyPaths query c.props,
          p ∈ Operation.requestedPaths query operation.selections := by
  have hGiven : ∀ d ∈ definitions, d.name ≠ "" := by decide
  have hNames : ∀ d ∈ sortDefinitions definitions, d.name ≠ "" :=
    fun d hd => hGiven d (Order.mem_of_mem_sort hd)
  have hRoot : operation.root schema = .ok query := by cbv
  obtain ⟨c, hc⟩ := exists_eq_ok (x := operation.selectionCodec query) (by cbv)
  exact ⟨compile_definitions, hNames, hRoot, c, hc,
    Operation.selectionCodec_paths compile_definitions hNames hRoot hc⟩

/-- An operation with an inline fragment inside an inline fragment. -/
def nested : Operation where
  kind := .query
  name := some "Nested"
  vars := []
  selections :=
    [.node none "found" []
      [.inline (some "User") [] [.inline (some "User") [] [.leaf none "name" []]],
        .inline (some "Todo") [] [.leaf none "id" []]]]

def nestedResponse : Codec :=
  .query "Nested" [("found", .option (.array (.union
    [.intersection [.typename "Todo", .pick "Todo" ["id"]],
      .intersection [.typename "User", .pick "User" []]])))]

/-- **The selections of a nested inline fragment are lost**, and the operation compiles. -/
theorem nested_fragment_lost :
    nested.root schema = .ok query ∧ nested.selectionCodec query = .ok nestedResponse ∧
      ["found", "User", "User", "name"] ∈ Operation.requestedPaths query nested.selections ∧
      ["found", "User", "User", "name"] ∉ Codec.keyPaths query nestedResponse.props := by
  refine ⟨by cbv, by cbv, ?_, ?_⟩
  · decide
  · decide

end Board

end GraphCodec
