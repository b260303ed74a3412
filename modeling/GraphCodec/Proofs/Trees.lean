import GraphCodec.Files.Entry
import GraphCodec.Proofs.Compiler

/-!
# Directory trees

A tree is read in two ways: by looking up a path (`Entry.get?`), and by listing its files
(`Entry.files`). In a well-formed tree, where no directory lists a name twice, both agree
(`mem_files_iff`), and the listing has every file once (`nodup_files`).

A file system lists the entries of a directory in any order. Relisted trees have the same entries at
the same paths (`Relisted.get?`), and permuted listings of files (`Relisted.files_perm`).
-/

set_option autoImplicit false

namespace GraphCodec

/-- With distinct keys, lookup is membership. -/
theorem lookup_eq_some_iff_mem {κ α : Type} [BEq κ] [LawfulBEq κ] {l : List (κ × α)}
    (h : (l.map Prod.fst).Nodup) {k : κ} {v : α} : l.lookup k = some v ↔ (k, v) ∈ l := by
  induction l with
  | nil => simp
  | cons p l ih =>
      obtain ⟨k', v'⟩ := p
      obtain ⟨hNew, hRest⟩ := List.nodup_cons.mp h
      rw [List.lookup_cons, List.mem_cons]
      by_cases hKey : k = k'
      · subst hKey
        have hOther : (k, v) ∉ l := fun hv => hNew (List.mem_map.mpr ⟨_, hv, rfl⟩)
        simp [hOther, eq_comm]
      · simp [beq_eq_false_iff_ne.mpr hKey, hKey, ih hRest]

namespace Entry

/-! ## Well-formed trees -/

mutual

/-- The file names in each directory are distinct and without slashes. -/
def wellFormed : Entry → Bool
  | file _ | device => true
  | directory es => wellFormedEntries es

def wellFormedEntries : List (String × Entry) → Bool
  | [] => true
  | (name, e) :: es =>
    !(Assoc.keys es).contains name && !name.toList.contains '/' && e.wellFormed &&
      wellFormedEntries es

end

theorem wellFormedEntries_cons {name : String} {e : Entry} {es : List (String × Entry)} :
    wellFormedEntries ((name, e) :: es) = true ↔
      name ∉ Assoc.keys es ∧ '/' ∉ name.toList ∧ e.wellFormed = true ∧
        wellFormedEntries es = true := by
  simp [wellFormedEntries, and_assoc]

theorem nodup_keys {es : List (String × Entry)} (h : wellFormedEntries es = true) :
    (Assoc.keys es).Nodup := by
  induction es with
  | nil => exact List.nodup_nil
  | cons p es ih =>
      obtain ⟨hNew, -, -, hRest⟩ := wellFormedEntries_cons.mp h
      exact List.nodup_cons.mpr ⟨hNew, ih hRest⟩

theorem wellFormed_of_mem {es : List (String × Entry)} (h : wellFormedEntries es = true)
    {name : String} {e : Entry} (he : (name, e) ∈ es) :
    '/' ∉ name.toList ∧ e.wellFormed = true := by
  induction es with
  | nil => cases he
  | cons p es ih =>
      obtain ⟨-, hSlash, hFirst, hRest⟩ := wellFormedEntries_cons.mp h
      rcases List.mem_cons.mp he with rfl | he
      · exact ⟨hSlash, hFirst⟩
      · exact ih hRest he

theorem lookup_eq_some_iff {es : List (String × Entry)} (h : wellFormedEntries es = true)
    {name : String} {e : Entry} : es.lookup name = some e ↔ (name, e) ∈ es :=
  lookup_eq_some_iff_mem (nodup_keys h)

/-! ## Looking up a path -/

theorem get?_directory_cons (es : List (String × Entry)) (n : String) (ns : List String) :
    (directory es).get? (n :: ns) = (es.lookup n).bind (·.get? ns) := by
  rw [get?]
  cases es.lookup n <;> rfl

/-- A path of several names leads through a directory. -/
theorem get?_cons_eq_some {top e : Entry} {n : String} {ns : List String} :
    top.get? (n :: ns) = some e ↔
      ∃ es inner, top = directory es ∧ es.lookup n = some inner ∧ inner.get? ns = some e := by
  cases top with
  | file content => simp [get?]
  | device => simp [get?]
  | directory es =>
      rw [get?_directory_cons, Option.bind_eq_some_iff]
      simp

/-- Lookup along a concatenated path. -/
theorem get?_append (top : Entry) (path rest : List String) :
    top.get? (path ++ rest) = (top.get? path).bind (·.get? rest) := by
  induction path generalizing top with
  | nil => simp [get?]
  | cons n ns ih =>
      cases top with
      | file content => simp [get?]
      | device => simp [get?]
      | directory es =>
          rw [List.cons_append, get?_directory_cons, get?_directory_cons]
          cases es.lookup n with
          | none => rfl
          | some e => exact ih e

theorem entryFiles_cons (name : String) (e : Entry) (es : List (String × Entry)) :
    entryFiles ((name, e) :: es) =
      e.files.map (fun f => (name :: f.1, f.2)) ++ entryFiles es := rfl

theorem entryFiles_append (es es' : List (String × Entry)) :
    entryFiles (es ++ es') = entryFiles es ++ entryFiles es' := by
  induction es with
  | nil => rfl
  | cons p es ih => rw [List.cons_append, entryFiles_cons, entryFiles_cons, ih, List.append_assoc]

theorem mem_entryFiles {es : List (String × Entry)} {path : List String} {content : ByteArray} :
    (path, content) ∈ entryFiles es ↔
      ∃ n ns e, path = n :: ns ∧ (n, e) ∈ es ∧ (ns, content) ∈ e.files := by
  induction es with
  | nil => simp [entryFiles]
  | cons p es ih =>
      obtain ⟨name, inner⟩ := p
      rw [entryFiles_cons, List.mem_append, ih, List.mem_map]
      constructor
      · rintro (⟨f, hf, hEq⟩ | ⟨n, ns, e, rfl, he, hns⟩)
        · cases hEq
          exact ⟨name, f.1, inner, rfl, List.mem_cons_self, hf⟩
        · exact ⟨n, ns, e, rfl, List.mem_cons_of_mem _ he, hns⟩
      · rintro ⟨n, ns, e, rfl, he, hns⟩
        rcases List.mem_cons.mp he with hEq | he
        · cases hEq
          exact Or.inl ⟨_, hns, rfl⟩
        · exact Or.inr ⟨n, ns, e, rfl, he, hns⟩

mutual

/-- **The listing has every file once.** -/
theorem nodup_files (top : Entry) (h : top.wellFormed = true) : (top.files.map Prod.fst).Nodup := by
  match top with
  | file content => simp [files]
  | device => simp [files]
  | directory es => exact nodup_entryFiles es h

theorem nodup_entryFiles (es : List (String × Entry)) (h : wellFormedEntries es = true) :
    ((entryFiles es).map Prod.fst).Nodup := by
  match es with
  | [] => simp [entryFiles]
  | (name, e) :: es =>
      obtain ⟨hNew, -, hFirst, hRest⟩ := wellFormedEntries_cons.mp h
      have hOwn : ((e.files.map fun f => (name :: f.1, f.2)).map Prod.fst).Nodup := by
        have hCons := (nodup_files e hFirst).map (List.cons_injective (a := name))
        simpa [Function.comp_def] using hCons
      rw [entryFiles_cons, List.map_append]
      refine hOwn.append (nodup_entryFiles es hRest) ?_
      -- the paths here start with this name, and the later ones with other names
      intro path hHere hBehind
      obtain ⟨⟨p, c⟩, hp, rfl⟩ := List.mem_map.mp hBehind
      obtain ⟨n, ns, e', rfl, he', -⟩ := mem_entryFiles.mp hp
      obtain ⟨f, -, hf⟩ : ∃ f ∈ e.files, name :: f.1 = n :: ns := by simpa using hHere
      cases hf
      exact hNew (List.mem_map.mpr ⟨_, he', rfl⟩)

end

/-! ## Relisted trees -/

mutual

/-- **Trees that differ only in the order in which directories list their entries.** -/
inductive Relisted : Entry → Entry → Prop
  | file (content : ByteArray) : Relisted (.file content) (.file content)
  | device : Relisted .device .device
  | directory {es es' : List (String × Entry)} (h : RelistedEntries es es') :
      Relisted (.directory es) (.directory es')

/-- Permuted entries, each of them relisted. -/
inductive RelistedEntries : List (String × Entry) → List (String × Entry) → Prop
  | nil : RelistedEntries [] []
  | cons {name : String} {e e' : Entry} {es before after : List (String × Entry)}
      (h : Relisted e e') (hs : RelistedEntries es (before ++ after)) :
      RelistedEntries ((name, e) :: es) (before ++ (name, e') :: after)

end

mutual

/-- **Listing a tree in another order permutes its files.** -/
theorem Relisted.files_perm {a b : Entry} (h : Relisted a b) : a.files.Perm b.files :=
  match h with
  | .file _ => .refl _
  | .device => .refl _
  | .directory h => h.files_perm

theorem RelistedEntries.files_perm {es es' : List (String × Entry)} (h : RelistedEntries es es') :
    (entryFiles es).Perm (entryFiles es') :=
  match h with
  | .nil => .refl _
  | @RelistedEntries.cons name e e' es before after h hs => by
      have hFirst := h.files_perm.map fun f => (name :: f.1, f.2)
      have hRest := hs.files_perm
      rw [entryFiles_append] at hRest
      rw [entryFiles_cons, entryFiles_append, entryFiles_cons]
      exact (hFirst.append hRest).trans (List.perm_append_comm_assoc _ _ _)

end

theorem RelistedEntries.keys_perm {es es' : List (String × Entry)} (h : RelistedEntries es es') :
    (Assoc.keys es).Perm (Assoc.keys es') := by
  induction es generalizing es' with
  | nil =>
      cases h
      exact .refl _
  | cons p es ih =>
      cases h with
      | @cons name e e' _ before after _ hs =>
          have hRest := ih hs
          simp only [Assoc.keys, List.map_append, List.map_cons] at hRest ⊢
          exact (hRest.cons name).trans List.perm_middle.symm

/-- With distinct names, relisting keeps lookups. -/
theorem RelistedEntries.lookup {es es' : List (String × Entry)} (h : RelistedEntries es es')
    (hDistinct : (Assoc.keys es).Nodup) (n : String) :
    Option.Rel Relisted (es.lookup n) (es'.lookup n) := by
  induction es generalizing es' with
  | nil =>
      cases h
      exact .none
  | cons p es ih =>
      cases h with
      | @cons name e e' _ before after hFirst hs =>
          obtain ⟨hNew, hRest⟩ := List.nodup_cons.mp hDistinct
          have hTail := ih hs hRest
          rw [List.lookup_append] at hTail ⊢
          rw [List.lookup_cons, List.lookup_cons]
          by_cases hName : n = name
          · subst hName
            have hBefore : before.lookup n = none := by
              rw [Assoc.lookup_eq_none]
              intro hn
              have hListed : n ∈ Assoc.keys (before ++ after) := by
                rw [Assoc.keys, List.map_append]
                exact List.mem_append_left _ hn
              exact hNew (hs.keys_perm.mem_iff.mpr hListed)
            simp only [hBefore, beq_self_eq_true, Option.none_or]
            exact .some hFirst
          · simpa [beq_eq_false_iff_ne.mpr hName] using hTail

/-- **Relisted trees have the same entries at the same paths**, up to relisting. -/
theorem Relisted.get? {a b : Entry} (h : Relisted a b) (hWell : a.wellFormed = true)
    (path : List String) : Option.Rel Relisted (a.get? path) (b.get? path) := by
  induction path generalizing a b with
  | nil =>
      rw [Entry.get?, Entry.get?]
      exact .some h
  | cons n ns ih =>
      cases h with
      | file content => exact .none
      | device => exact .none
      | @directory es es' h =>
          rw [get?_directory_cons, get?_directory_cons]
          have hEntry := h.lookup (nodup_keys hWell) n
          cases hFound : es.lookup n with
          | none =>
              rw [hFound] at hEntry
              generalize es'.lookup n = o at hEntry
              cases hEntry
              exact .none
          | some e =>
              have hInner := (wellFormed_of_mem hWell ((lookup_eq_some_iff hWell).mp hFound)).2
              rw [hFound] at hEntry
              generalize es'.lookup n = o at hEntry
              cases hEntry with
              | some hRelisted => exact ih hRelisted hInner

end Entry

end GraphCodec
