import GraphCodec.Proofs.Order
import GraphCodec.Proofs.Selection

/-!
# Growing a schema

A schema grows when types gain fields, enum types gain values, and types are added. The codecs of
the two schemas differ everywhere, since the codec of a field contains the codecs of all types below
it. They still agree in what a selection set depends on: names, kinds, the member types of unions,
and the type references of the old fields (`Grown`). The compiler preserves this relation step by
step, so an operation compiles to the same codec (`selectionCodec_of_grown`).
-/

set_option autoImplicit false

namespace GraphCodec

/-! ## Growing definitions -/

/-- The type reference of a field, the last one of several. -/
def fieldType? (fields : List Field) (name : String) : Option Signature :=
  (fields.reverse.find? fun f => f.name = name).map Field.type

/-- Every field keeps its type reference. -/
def FieldsGrow (old new : List Field) : Prop :=
  ∀ name t, fieldType? old name = some t → fieldType? new name = some t

/-- A superset of fields with distinct names is a growth. -/
theorem fieldsGrow_of_subset {old new : List Field} (hDistinct : (new.map Field.name).Nodup)
    (h : ∀ f ∈ old, f ∈ new) : FieldsGrow old new := by
  intro name t ht
  unfold fieldType? at ht ⊢
  obtain ⟨f, hFind, rfl⟩ := Option.map_eq_some_iff.mp ht
  have hMem : f ∈ new := h f (by simpa using List.mem_of_find?_eq_some hFind)
  have hName : f.name = name := by simpa using List.find?_some hFind
  cases hFind' : new.reverse.find? (fun f => f.name = name) with
  | none =>
      rw [List.find?_eq_none] at hFind'
      exact absurd (by simpa using hName) (hFind' f (by simpa using hMem))
  | some g =>
      have hMem' : g ∈ new := by simpa using List.mem_of_find?_eq_some hFind'
      have hName' : g.name = name := by simpa using List.find?_some hFind'
      rw [List.inj_on_of_nodup_map hDistinct hMem' hMem (hName'.trans hName.symm)]
      rfl

/-- **A type that grows.** It keeps its kind, and a union keeps its member types. -/
inductive Body.Grows : Body → Body → Prop
  | object {old new : List Field} (h : FieldsGrow old new) : Grows (.object old) (.object new)
  | input {old new : List Field} (h : FieldsGrow old new) : Grows (.input old) (.input new)
  | union (members : List String) : Grows (.union members) (.union members)
  | enum {old new : List String} (h : ∀ v ∈ old, v ∈ new) : Grows (.enum old) (.enum new)
  | scalar : Grows .scalar .scalar

/-- Every definition is kept, possibly grown. -/
def DefinitionsGrow (old new : List Definition) : Prop :=
  ∀ d ∈ old, ∃ d' ∈ new, d'.name = d.name ∧ d.body.Grows d'.body

/-! ## Properties and type references -/

section

variable {memo : Memo} {fields : List Field} {pairs : List (String × Codec)}

/-- The property of a name is that of the first field of this name. -/
theorem lookup_fields (h : List.Forall₂ (FieldCodec memo) fields pairs) {name : String}
    {t : Codec} : pairs.lookup name = some t ↔
      ∃ f, (fields.find? fun f => f.name = name) = some f ∧
        ∃ b, memo.field? f.type.base = some b ∧ t = f.type.wrap b := by
  induction h with
  | nil => simp
  | @cons f p fields pairs hHead hTail ih =>
      obtain ⟨b, hb, rfl⟩ := hHead
      by_cases hName : f.name = name
      · rw [List.find?_cons_of_pos (by simpa using hName), List.lookup_cons]
        simp [hName, hb, eq_comm]
      · have hKey : (name == f.name) = false := by simpa using fun he => hName he.symm
        rw [List.find?_cons_of_neg (by simpa using hName), List.lookup_cons, hKey]
        exact ih

/-- The property of a field is the codec of its named type with the wrappers of its type
reference. -/
theorem lookup_ofList_fields (h : List.Forall₂ (FieldCodec memo) fields pairs) {name : String}
    {t : Codec} : (Assoc.ofList pairs).lookup name = some t ↔
      ∃ sig, fieldType? fields name = some sig ∧
        ∃ b, memo.field? sig.base = some b ∧ t = sig.wrap b := by
  rw [Assoc.lookup_ofList, lookup_fields (List.forall₂_reverse_iff.mpr h)]
  simp [fieldType?]

end

/-! ## Grown codecs -/

section

variable (old new : Memo)

/-- **The codecs of a definition and of its growth**, each by its own memo. -/
inductive Alike : Codec → Codec → Prop
  | primitive (p : Primitive) : Alike (.primitive p) (.primitive p)
  | object {name : String} {fields fields' : List Field} {pairs pairs' : List (String × Codec)}
      (hGrow : FieldsGrow fields fields') (h : List.Forall₂ (FieldCodec old) fields pairs)
      (h' : List.Forall₂ (FieldCodec new) fields' pairs') :
      Alike (objectCodec name (Assoc.ofList pairs)) (objectCodec name (Assoc.ofList pairs'))
  | input {name : String} {fields fields' : List Field} {pairs pairs' : List (String × Codec)}
      (hGrow : FieldsGrow fields fields') (h : List.Forall₂ (FieldCodec old) fields pairs)
      (h' : List.Forall₂ (FieldCodec new) fields' pairs') :
      Alike (.input name (Assoc.ofList pairs)) (.input name (Assoc.ofList pairs'))
  | union {name : String} {names : List String} {members members' : List Codec}
      (h : List.Forall₂ (fun m c => old.lookup m = some c) names members)
      (h' : List.Forall₂ (fun m c => new.lookup m = some c) names members') :
      Alike (.named name (.union members)) (.named name (.union members'))
  | enum (name : String) (values values' : List String) :
      Alike (.enum name values) (.enum name values')
  | scalar (name : String) : Alike (.scalar name) (.scalar name)

/-- The entries of one name in two memos, or the same built-in scalar. -/
def Grown (c c' : Codec) : Prop :=
  (∃ p, c = .primitive p ∧ c' = .primitive p) ∨
    ∃ n, old.lookup n = some c ∧ new.lookup n = some c'

/-- Every entry of the first memo has a grown entry in the second. -/
def Memo.Grows : Prop :=
  ∀ n c, old.lookup n = some c → ∃ c', new.lookup n = some c' ∧ Alike old new c c'

end

variable {old new : Memo}

theorem HasCodec.alike {d d' : Definition} {c c' : Codec} (hName : d'.name = d.name)
    (hBody : d.body.Grows d'.body) (h : HasCodec old d c) (h' : HasCodec new d' c') :
    Alike old new c c' := by
  obtain ⟨name, body⟩ := d
  obtain ⟨name', body'⟩ := d'
  obtain rfl : name' = name := hName
  cases hBody with
  | object hGrow =>
      cases h with
      | object h =>
          cases h' with
          | object h' => exact .object hGrow h h'
  | input hGrow =>
      cases h with
      | input h =>
          cases h' with
          | input h' => exact .input hGrow h h'
  | union members =>
      cases h with
      | union h =>
          cases h' with
          | union h' => exact .union h h'
  | enum hGrow =>
      cases h
      cases h'
      exact .enum _ _ _
  | scalar =>
      cases h
      cases h'
      exact .scalar _

theorem Grown.alike {c c' : Codec} (hGrows : old.Grows new) (h : Grown old new c c') :
    Alike old new c c' := by
  rcases h with ⟨p, rfl, rfl⟩ | ⟨n, hc, hc'⟩
  · exact .primitive p
  · obtain ⟨e, he, hAlike⟩ := hGrows n c hc
    obtain rfl := Option.some.inj (hc'.symm.trans he)
    exact hAlike

theorem Memo.Grows.lookup (hGrows : old.Grows new) {n : String} {c : Codec}
    (hc : old.lookup n = some c) : ∃ c', new.lookup n = some c' ∧ Grown old new c c' := by
  obtain ⟨c', hc', -⟩ := hGrows n c hc
  exact ⟨c', hc', Or.inr ⟨n, hc, hc'⟩⟩

theorem Memo.Grows.field? (hGrows : old.Grows new) {n : String} {b : Codec}
    (hb : old.field? n = some b) : ∃ b', new.field? n = some b' ∧ Grown old new b b' := by
  rcases Memo.field?_eq_some.mp hb with ⟨p, hBuiltin, rfl⟩ | ⟨hNone, hb⟩
  · exact ⟨_, Memo.field?_eq_some.mpr (Or.inl ⟨p, hBuiltin, rfl⟩), Or.inl ⟨p, rfl, rfl⟩⟩
  · obtain ⟨b', hb', hGrown⟩ := hGrows.lookup hb
    exact ⟨b', Memo.field?_eq_some.mpr (Or.inr ⟨hNone, hb'⟩), hGrown⟩

namespace Alike

variable {c c' : Codec}

theorem name_eq (h : Alike old new c c') : c'.name = c.name := by
  cases h with
  | object => rw [objectCodec_name, objectCodec_name]
  | _ => rfl

theorem kind_eq (h : Alike old new c c') : c'.kind = c.kind := by
  cases h with
  | object =>
      unfold objectCodec
      split_ifs <;> rfl
  | _ => rfl

theorem core_eq (h : Alike old new c c') : c.core = c ∧ c'.core = c' := by
  cases h with
  | object => exact ⟨objectCodec_core _ _, objectCodec_core _ _⟩
  | _ => exact ⟨rfl, rfl⟩

theorem scalar_iff (h : Alike old new c c') (n : String) : c = .scalar n ↔ c' = .scalar n := by
  cases h with
  | object =>
      unfold objectCodec
      split_ifs <;> simp
  | _ => simp

/-- A union keeps its member types, each of which may have grown. -/
theorem union_eq (h : Alike old new c c') {n : String} {members : List Codec}
    (hc : c = .named n (.union members)) : ∃ members', c' = .named n (.union members') ∧
      List.Forall₂ (Grown old new) members members' := by
  cases h with
  | object => exact absurd hc (objectCodec_ne_union _ _ _ _)
  | @union name names members members' h h' =>
      cases hc
      refine ⟨members', rfl, (forall₂_of_left h h').imp ?_⟩
      rintro m m' ⟨k, hm, hm'⟩
      exact Or.inr ⟨k, hm, hm'⟩
  | _ => cases hc

/-- A field keeps its type reference, whose named type may have grown. -/
theorem lookup_prop (hGrows : old.Grows new) (h : Alike old new c c') {k : String} {t : Codec}
    (ht : c.props.lookup k = some t) : ∃ (sig : Signature) (b b' : Codec), t = sig.wrap b ∧
      c'.props.lookup k = some (sig.wrap b') ∧ Grown old new b b' := by
  have hFields : ∀ {fields fields' : List Field} {pairs pairs' : List (String × Codec)},
      FieldsGrow fields fields' → List.Forall₂ (FieldCodec old) fields pairs →
      List.Forall₂ (FieldCodec new) fields' pairs' → (Assoc.ofList pairs).lookup k = some t →
      ∃ (sig : Signature) (b b' : Codec), t = sig.wrap b ∧
        (Assoc.ofList pairs').lookup k = some (sig.wrap b') ∧ Grown old new b b' := by
    intro fields fields' pairs pairs' hGrow h h' ht
    obtain ⟨sig, hSig, b, hb, rfl⟩ := (lookup_ofList_fields h).mp ht
    obtain ⟨b', hb', hGrown⟩ := hGrows.field? hb
    exact ⟨sig, b, b', rfl, (lookup_ofList_fields h').mpr ⟨sig, hGrow k sig hSig, b', hb', rfl⟩,
      hGrown⟩
  cases h with
  | object hGrow h h' =>
      rw [objectCodec_props] at ht ⊢
      exact hFields hGrow h h' ht
  | input hGrow h h' => exact hFields hGrow h h' ht
  | _ => simp [Codec.props] at ht

end Alike

/-! ## Selections on grown types -/

/-- The codec of a field after growth differs in its `core` only, and that of a custom scalar not at
all. -/
theorem Memo.Grows.lookup_prop (hGrows : old.Grows new) {parent parent' type : Codec}
    {name : String} (hParent : Grown old new parent parent')
    (hType : parent.props.lookup name = some type) :
    ∃ type', parent'.props.lookup name = some type' ∧ Grown old new type.core type'.core ∧
      (∀ body, type'.replaceCore body = type.replaceCore body) ∧
      ∀ n, type.core = .scalar n → type' = type := by
  obtain ⟨sig, b, b', rfl, hType', hGrown⟩ := (hParent.alike hGrows).lookup_prop hGrows hType
  have hAlike := hGrown.alike hGrows
  obtain ⟨hCore, hCore'⟩ := hAlike.core_eq
  refine ⟨sig.wrap b', hType', ?_, ?_, ?_⟩
  · rw [Signature.core_wrap, Signature.core_wrap, hCore, hCore']
    exact hGrown
  · intro body
    rw [sig.replaceCore_wrap hCore, sig.replaceCore_wrap hCore']
  · intro n hScalar
    rw [Signature.core_wrap, hCore] at hScalar
    rw [hScalar, (hAlike.scalar_iff n).mp hScalar]

namespace Selections

/-- The codec of a selection set depends only on the name of the type it is on. -/
theorem BodyCodec.of_name_eq {field field' : Codec → Selection → Codec → Prop} {on on' c : Codec}
    {selections : List Selection} (h : BodyCodec field on selections c)
    (hName : on'.name = on.name) (hField : ∀ t d, field on t d → field' on' t d) :
    BodyCodec field' on' selections c := by
  obtain ⟨nested, hNested, rfl⟩ := h
  refine ⟨nested, hNested.imp ?_, ?_⟩
  · rintro t o ⟨d, hd, rfl⟩
    exact ⟨d, hField t d hd, rfl⟩
  · rw [codec, codec, hName]

/-- **A field selection compiles to the same codec on a grown type.** -/
theorem Compiles.of_grown (hGrows : old.Grows new) {parent parent' c : Codec} {s : Selection}
    (h : Compiles parent s c) (hParent : Grown old new parent parent') : Compiles parent' s c := by
  refine Compiles.induct (motive := fun parent s c => ∀ parent', Grown old new parent parent' →
    Compiles parent' s c) ?_ h parent' hParent
  clear h hParent
  intro parent s c hField hExit parent' hParent
  -- growing keeps what the case depends on: the wrappers, the kind of the core and its member types
  refine compiles_iff.mpr ⟨hField, ?_⟩
  cases hExit with
  | scalar hType hCheck hCore =>
      obtain ⟨type', hType', -, -, hScalar⟩ := hGrows.lookup_prop hParent hType
      obtain rfl := hScalar _ hCore
      exact .scalar hType' hCheck hCore
  | @whole type hType hCheck hCore hNone hBare =>
      obtain ⟨type', hType', hGrown, -, -⟩ := hGrows.lookup_prop hParent hType
      have hCore' : ∀ n, type'.core ≠ .scalar n := fun n hn =>
        hCore n (((hGrown.alike hGrows).scalar_iff n).mpr hn)
      have hWhole : wholeField parent s.name = wholeField parent' s.name := by
        rw [wholeField, wholeField, (hParent.alike hGrows).name_eq]
      rw [hWhole]
      exact .whole hType' hCheck hCore' hNone hBare
  | @object type body hType hCheck hCore hNone hBare hBody =>
      obtain ⟨type', hType', hGrown, hReplace, -⟩ := hGrows.lookup_prop hParent hType
      have hCore' : ∀ n, type'.core ≠ .scalar n := fun n hn =>
        hCore n (((hGrown.alike hGrows).scalar_iff n).mpr hn)
      rw [← hReplace]
      refine .object hType' hCheck hCore' hNone hBare ?_
      exact hBody.of_name_eq (hGrown.alike hGrows).name_eq fun t d hd => hd.2 _ hGrown
  | @union type union members codecs hType hCheck hCore hSome hCover hMembers =>
      obtain ⟨type', hType', hGrown, hReplace, -⟩ := hGrows.lookup_prop hParent hType
      obtain ⟨members', hCore', hAll⟩ := (hGrown.alike hGrows).union_eq hCore
      have hNames : members'.map Codec.name = members.map Codec.name := by
        rw [← List.forall₂_eq_eq_eq, List.forall₂_map_left_iff, List.forall₂_map_right_iff]
        exact hAll.flip.imp fun m' m hm => (Grown.alike hGrows hm).name_eq
      rw [← hReplace]
      rw [← hNames] at hCover
      refine .union hType' hCheck hCore' hSome hCover ((forall₂_of_left hAll hMembers).imp ?_)
      rintro m' d ⟨m, hm, inner, hInner, hInnerCheck, hBody⟩
      have hName := (hm.alike hGrows).name_eq
      refine ⟨inner, by rw [hName, hInner], hInnerCheck, ?_⟩
      exact hBody.of_name_eq hName fun t d hd => hd.2 _ hm

end Selections

/-! ## Operations on a grown schema -/

/-- Growing definitions compile to growing memos. -/
theorem memo_grows {ds ds' : List Definition} {types' : List Codec}
    (hBuilt : old.Built (sortDefinitions ds)) (hBuilt' : new.Built (sortDefinitions ds'))
    (hTypes' : List.Forall₂ (fun d c => new.lookup d.name = some c) (sortDefinitions ds') types')
    (hDistinct : (ds'.map Definition.name).Nodup) (hGrow : DefinitionsGrow ds ds') :
    old.Grows new := by
  intro n c hc
  obtain ⟨d, hd, rfl, hCodec⟩ := hBuilt.hasCodec hc
  obtain ⟨d', hd', hName, hBody⟩ := hGrow d (Order.mem_of_mem_sort hd)
  obtain ⟨e, he, hen⟩ :=
    Order.mem_names.mp (Order.mem_names_sort.mpr (Order.mem_names.mpr ⟨d', hd', rfl⟩))
  obtain ⟨c', -, hc'⟩ := exists_right_of_forall₂ hTypes' he
  obtain ⟨e', he', hen', hCodec'⟩ := hBuilt'.hasCodec hc'
  -- names are distinct, so the codec of the name is that of the grown definition
  obtain rfl : e' = d' :=
    List.inj_on_of_nodup_map hDistinct (Order.mem_of_mem_sort he') hd' (hen'.trans hen)
  refine ⟨c', ?_, hCodec.alike hName hBody hCodec'⟩
  rw [← hName, ← hc', hen']

theorem Operation.rootProps_of_grown (hGrows : old.Grows new) {root root' : Codec}
    (hRoot : Grown old new root root') {selections : List Selection}
    {props all : List (String × Codec)} (h : rootProps root props selections = .ok all) :
    rootProps root' props selections = .ok all := by
  induction selections generalizing props with
  | nil => exact h
  | cons s rest ih =>
      obtain ⟨hCheck, hField, hNew, c, hc, hRest⟩ := rootProps_cons.mp h
      exact rootProps_cons.mpr ⟨hCheck, hField, hNew, c, hc.of_grown hGrows hRoot, ih hRest⟩

theorem Operation.root_of_grown {ds ds' : List Definition} {schema schema' : Schema}
    (hGrows : old.Grows new) (hBuilt : old.Built ds) (hBuilt' : new.Built ds')
    (hTypes : List.Forall₂ (fun d c => old.lookup d.name = some c) ds schema.types)
    (hTypes' : List.Forall₂ (fun d c => new.lookup d.name = some c) ds' schema'.types)
    {op : Operation} {root : Codec} (h : op.root schema = .ok root) :
    ∃ root', op.root schema' = .ok root' ∧ Grown old new root root' := by
  obtain ⟨hKind, hGet, hRoot⟩ := root_eq_ok.mp h
  obtain ⟨n, hn⟩ := (mem_types_iff hBuilt hTypes).mp (Schema.mem_of_get? hGet)
  obtain ⟨root', hn', hGrown⟩ := hGrows.lookup hn
  have hAlike := hGrown.alike hGrows
  have hMem' := (mem_types_iff hBuilt' hTypes').mpr ⟨n, hn'⟩
  have hGet' := (closed_of_built hBuilt' hTypes').get root' hMem'
  rw [hAlike.name_eq, Schema.name_of_get? hGet] at hGet'
  exact ⟨root', root_eq_ok.mpr ⟨hKind, hGet', hAlike.kind_eq.trans hRoot⟩, hGrown⟩

/-- **Growing a schema changes no operation.** An operation that compiles against the old schema
compiles against the new one, to the same codec and the same expression. -/
theorem Operation.selectionCodec_of_grown {ds ds' : List Definition} {schema schema' : Schema}
    (hSchema : compileDefinitions ds = .ok schema) (hSchema' : compileDefinitions ds' = .ok schema')
    (hDistinct : (ds'.map Definition.name).Nodup) (hGrow : DefinitionsGrow ds ds')
    {op : Operation} {root c : Codec} (hRoot : op.root schema = .ok root)
    (hc : op.selectionCodec root = .ok c) :
    ∃ root' c', op.root schema' = .ok root' ∧ op.selectionCodec root' = .ok c' ∧ c' = c ∧
      (Export.ofSelection c').text = (Export.ofSelection c).text := by
  obtain ⟨memo, hBuilt, hTypes⟩ := compile_built hSchema
  obtain ⟨memo', hBuilt', hTypes'⟩ := compile_built hSchema'
  have hGrows := memo_grows hBuilt hBuilt' hTypes' hDistinct hGrow
  obtain ⟨root', hRoot', hGrown⟩ := root_of_grown hGrows hBuilt hBuilt' hTypes hTypes' hRoot
  obtain ⟨name, props, hName, hProps, hShape⟩ := selectionCodec_eq_ok.mp hc
  have hc' := selectionCodec_eq_ok.mpr
    ⟨name, props, hName, rootProps_of_grown hGrows hGrown hProps, hShape⟩
  exact ⟨root', c, hRoot', hc', rfl, rfl⟩

namespace Board

/-- A later version of the board, with more fields and types. -/
def laterDefinitions : List Definition :=
  [⟨"Tag", .enum ["HOME", "WORK"]⟩,
    ⟨"Date", .scalar⟩,
    ⟨"User", .object [⟨"email", .named "String" false⟩, ⟨"name", .named "String" true⟩]⟩,
    ⟨"Todo", .object [⟨"id", .named "ID" true⟩, ⟨"tags", .list (.named "Tag" true) true⟩,
      ⟨"owner", .named "User" true⟩, ⟨"due", .named "Date" false⟩]⟩,
    ⟨"Found", .union ["Todo", "User"]⟩,
    ⟨"Filter", .input [⟨"before", .named "Date" false⟩, ⟨"tag", .named "Tag" false⟩]⟩,
    ⟨"Query", .object [⟨"version", .named "Int" true⟩, ⟨"now", .named "Date" true⟩,
      ⟨"todos", .list (.named "Todo" true) true⟩, ⟨"found", .list (.named "Found" true) false⟩]⟩]

theorem definitions_grow : DefinitionsGrow definitions laterDefinitions := by
  intro d hd
  simp only [definitions, List.mem_cons, List.not_mem_nil, or_false] at hd
  rcases hd with rfl | rfl | rfl | rfl | rfl | rfl
  · exact ⟨laterDefinitions[6], List.getElem_mem _, rfl,
      .object (fieldsGrow_of_subset (by decide) (by decide))⟩
  · exact ⟨laterDefinitions[4], List.getElem_mem _, rfl, .union _⟩
  · exact ⟨laterDefinitions[3], List.getElem_mem _, rfl,
      .object (fieldsGrow_of_subset (by decide) (by decide))⟩
  · exact ⟨laterDefinitions[2], List.getElem_mem _, rfl,
      .object (fieldsGrow_of_subset (by decide) (by decide))⟩
  · exact ⟨laterDefinitions[5], List.getElem_mem _, rfl,
      .input (fieldsGrow_of_subset (by decide) (by decide))⟩
  · exact ⟨laterDefinitions[1], List.getElem_mem _, rfl, .scalar⟩

/-- The operation compiles to the same codec on the later board. -/
theorem operation_of_grown :
    compileDefinitions definitions = .ok schema ∧
      (laterDefinitions.map Definition.name).Nodup ∧
      DefinitionsGrow definitions laterDefinitions ∧ operation.root schema = .ok query ∧
      ∃ later c, compileDefinitions laterDefinitions = .ok later ∧
        operation.selectionCodec query = .ok c ∧
        ∃ root' c', operation.root later = .ok root' ∧ operation.selectionCodec root' = .ok c' ∧
          c' = c ∧ (Export.ofSelection c').text = (Export.ofSelection c).text := by
  have hDistinct : (laterDefinitions.map Definition.name).Nodup := by decide
  have hRoot : operation.root schema = .ok query := by cbv
  obtain ⟨later, hLater⟩ := exists_eq_ok (x := compileDefinitions laterDefinitions) (by cbv)
  obtain ⟨c, hc⟩ := exists_eq_ok (x := operation.selectionCodec query) (by cbv)
  exact ⟨compile_definitions, hDistinct, definitions_grow, hRoot, later, c, hLater, hc,
    Operation.selectionCodec_of_grown compile_definitions hLater hDistinct definitions_grow hRoot
      hc⟩

end Board

end GraphCodec
