import GraphCodec.Proofs.Runs
import GraphCodec.Proofs.Trees

/-!
# Making directories

`mkdir -p` makes the directories of a path one by one, and a failure does not remove those made
before. Still, no directory is made before a failure at a usable path: the file or device that
blocks the path is an entry of the original tree, so its ancestors exist already, and only a free
path has missing directories (`Reached.unchanged_or_free`, `makeDirs_made`). The same holds of the
file that is written at the end (`Reached.written`, `Reached.not_written`).

Trees are compared by the file types at all paths (`kindAt`), not by the listings of directories.
-/

set_option autoImplicit false

namespace GraphCodec

/-! ## Components of a path -/

namespace Path

/-- The file names of a POSIX path without `.` and `..`; empty components are dropped. -/
def names (ps : List String) : List String := ps.filter (· ≠ "")

@[simp] theorem names_nil : names [] = [] := rfl

theorem names_append (ps qs : List String) : names (ps ++ qs) = names ps ++ names qs :=
  List.filter_append ps qs

@[simp] theorem names_empty : names [""] = [] := rfl

theorem names_concat {name : String} (h : name ≠ "") (ps : List String) :
    names (ps ++ [name]) = names ps ++ [name] := by
  simp [names, h]

theorem names_cons {p : String} (hp : p ≠ "") (ps : List String) :
    names (p :: ps) = p :: names ps := by
  simp [names, hp]

/-- Leading empty components are dropped. -/
theorem names_dropWhile (ps : List String) : names (ps.dropWhile (· = "")) = names ps := by
  induction ps with
  | nil => rfl
  | cons p ps ih =>
      by_cases hp : p = ""
      · subst hp
        exact ih
      · simp [hp]

theorem names_reverse (ps : List String) : names ps.reverse = (names ps).reverse :=
  List.filter_reverse

/-- No component is `.` or `..`. -/
def NoDots (ps : List String) : Prop := ∀ p ∈ ps, p ≠ "." ∧ p ≠ ".."

instance (ps : List String) : Decidable (NoDots ps) :=
  inferInstanceAs (Decidable (∀ p ∈ ps, p ≠ "." ∧ p ≠ ".."))

/-- No component exceeds `NAME_MAX`. -/
def Short (ps : List String) : Prop := ∀ p ∈ ps, isLong p = false

instance (ps : List String) : Decidable (Short ps) :=
  inferInstanceAs (Decidable (∀ p ∈ ps, isLong p = false))

/-- **The components of a path that system calls accept**: within `NAME_MAX` and `PATH_MAX`, and
without the character U+0000. -/
structure Usable (ps : List String) : Prop where
  noZero : hasZero (String.intercalate "/" ps) = false
  fits : isTooLong (String.intercalate "/" ps) = false
  short : Short ps

theorem intercalate_concat {ps : List String} (h : ps ≠ []) (p : String) :
    String.intercalate "/" (ps ++ [p]) = String.intercalate "/" ps ++ "/" ++ p := by
  induction ps with
  | nil => exact absurd rfl h
  | cons a ps ih =>
      cases ps with
      | nil => simp [String.intercalate_cons_cons]
      | cons b ps =>
          rw [List.cons_append, List.cons_append, String.intercalate_cons_cons,
            String.intercalate_cons_cons, ← List.cons_append, ih (List.cons_ne_nil b ps)]
          simp only [String.append_assoc]

/-- The parent of a usable path is usable. -/
theorem Usable.of_concat {ps : List String} {p : String} (h : Usable (ps ++ [p])) : Usable ps := by
  by_cases hps : ps = []
  · subst hps
    exact ⟨by decide, by decide, fun p hp => absurd hp (List.not_mem_nil)⟩
  · have hZero := h.noZero
    have hFits := h.fits
    rw [intercalate_concat hps] at hZero hFits
    refine ⟨?_, ?_, fun q hq => h.short q (List.mem_append_left _ hq)⟩
    · simp only [hasZero, String.toList_append, List.contains_eq_mem, List.mem_append,
        decide_eq_false_iff_not, not_or] at hZero ⊢
      exact hZero.1.1
    · simp only [isTooLong, String.utf8ByteSize_append, decide_eq_false_iff_not] at hFits ⊢
      omega

/-! The components of a POSIX path. -/

theorem parts_eq (path : String) : parts path = parent path ++ [baseName path] := by
  have hNe : parts path ≠ [] := by simp [parts, List.splitOn_ne_nil]
  rw [parent, baseName, List.getLastD_eq_getLast?, List.getLast?_eq_some_getLast hNe]
  exact (List.dropLast_concat_getLast hNe).symm

theorem names_parts {path : String} (h : baseName path ≠ "") :
    names (parts path) = names (parent path) ++ [baseName path] := by
  rw [parts_eq, names_concat h]

theorem intercalate_parts (path : String) : String.intercalate "/" (parts path) = path := by
  rw [← String.toList_inj, String.toList_intercalate]
  simp [parts, Function.comp_def, List.intercalate_splitOn]

/-- Only the empty path and paths with a trailing slash have an empty base name. -/
theorem eq_empty_of_baseName {path : String} (hSlash : path.toList.getLast? ≠ some '/')
    (h : baseName path = "") : path = "" := by
  have hPath := intercalate_parts path
  rw [parts_eq, h] at hPath
  by_cases hParent : parent path = []
  · simpa [hParent] using hPath.symm
  · rw [intercalate_concat hParent] at hPath
    rw [← hPath] at hSlash
    simp at hSlash

end Path

namespace Entry

open GraphCodec.Path (names names_nil names_cons NoDots Short Usable)

/-! ## File types -/

/-- The file type of an entry, with the content of a regular file. -/
inductive Kind where
  | file (content : ByteArray)
  | directory
  | device
  deriving DecidableEq

def kind : Entry → Kind
  | file content => .file content
  | directory _ => .directory
  | device => .device

/-- The file type of the entry at a path. -/
def kindAt (top : Entry) (path : List String) : Option Kind := (top.get? path).map kind

theorem kindAt_eq_none {top : Entry} {path : List String} :
    top.kindAt path = none ↔ top.get? path = none := by
  simp [kindAt]

theorem kindAt_eq_directory {top : Entry} {path : List String} :
    top.kindAt path = some .directory ↔ ∃ es, top.get? path = some (directory es) := by
  unfold kindAt
  cases top.get? path with
  | none => simp
  | some e => cases e <;> simp [kind]

theorem kindAt_eq_device {top : Entry} {path : List String} :
    top.kindAt path = some .device ↔ top.get? path = some device := by
  unfold kindAt
  cases top.get? path with
  | none => simp
  | some e => cases e <;> simp [kind]

theorem kindAt_nil (top : Entry) : top.kindAt [] = some top.kind := by
  rw [kindAt, get?, Option.map_some]

theorem kindAt_directory_cons (es : List (String × Entry)) (n : String) (ns : List String) :
    (directory es).kindAt (n :: ns) = (es.lookup n).bind (·.kindAt ns) := by
  rw [kindAt, get?_directory_cons]
  cases es.lookup n <;> rfl

/-- **The parent of an entry is a directory.** -/
theorem kindAt_of_below {top : Entry} {path : List String} {n : String} {ns : List String}
    (h : top.kindAt (path ++ n :: ns) ≠ none) : top.kindAt path = some .directory := by
  rw [ne_eq, kindAt_eq_none, get?_append, Option.bind_eq_none_iff] at h
  push Not at h
  obtain ⟨e, he, hBelow⟩ := h
  obtain ⟨e', he'⟩ := Option.ne_none_iff_exists'.mp hBelow
  obtain ⟨es, _, rfl, -, -⟩ := get?_cons_eq_some.mp he'
  exact kindAt_eq_directory.mpr ⟨es, he⟩

/-- The ancestors of a directory are directories. -/
theorem kindAt_directory_before {top : Entry} {dir path : List String} (hDir : dir <+: path)
    (h : top.kindAt path = some .directory) : top.kindAt dir = some .directory := by
  obtain ⟨rest, rfl⟩ := hDir
  cases rest with
  | nil => rwa [List.append_nil] at h
  | cons n ns =>
      have hThere : top.kindAt (dir ++ n :: ns) ≠ none := by simp [h]
      exact kindAt_of_below hThere

/-- **The frame of `put`.** An entry without children changes the file type at its own path only, if
it does not replace a directory. -/
theorem kindAt_put {top new : Entry} {here : List String} {name : String}
    (hHere : top.kindAt here = some .directory)
    (hOld : top.kindAt (here ++ [name]) ≠ some .directory)
    (hNew : ∀ n ns, new.kindAt (n :: ns) = none) (q : List String) :
    (top.put (here ++ [name]) new).kindAt q =
      if q = here ++ [name] then some new.kind else top.kindAt q := by
  induction here generalizing top q with
  | nil =>
      obtain ⟨es, hTop⟩ := kindAt_eq_directory.mp hHere
      cases hTop
      rw [List.nil_append, put, put]
      cases q with
      | nil => rfl
      | cons n ns =>
          rw [kindAt_directory_cons]
          by_cases hn : n = name
          · subst hn
            rw [Assoc.lookup_set_self, Option.bind_some]
            cases ns with
            | nil => simp [kindAt_nil]
            | cons m ms =>
                -- a file or a device has no entries below it
                have hBelow : (directory es).kindAt (n :: m :: ms) = none := by
                  by_contra hThere
                  have hDirectory : (directory es).kindAt [n] = some .directory :=
                    kindAt_of_below hThere
                  exact hOld hDirectory
                simp [hNew, hBelow]
          · rw [Assoc.lookup_set_ne hn, ← kindAt_directory_cons]
            simp [hn]
  | cons h hs ih =>
      obtain ⟨es', hGet⟩ := kindAt_eq_directory.mp hHere
      obtain ⟨es, inner, rfl, hInner, -⟩ := get?_cons_eq_some.mp hGet
      have hStep : ∀ ns, (directory es).kindAt (h :: ns) = inner.kindAt ns := by
        intro ns
        rw [kindAt_directory_cons, hInner, Option.bind_some]
      rw [hStep] at hHere
      rw [List.cons_append, hStep] at hOld
      rw [List.cons_append, put, hInner, Option.getD_some]
      cases q with
      | nil => rfl
      | cons n ns =>
          rw [kindAt_directory_cons]
          by_cases hn : n = h
          · subst hn
            rw [Assoc.lookup_set_self, Option.bind_some, ih hHere hOld, hStep]
            simp
          · rw [Assoc.lookup_set_ne hn, ← kindAt_directory_cons]
            simp [hn]

/-! ## Added directories -/

/-- **The trees differ only in added directories**, which are on the path `way`. -/
def DirsAdded (top top' : Entry) (way : List String) : Prop :=
  ∀ q, top'.kindAt q = top.kindAt q ∨
    (q <+: way ∧ top.kindAt q = none ∧ top'.kindAt q = some .directory)

theorem DirsAdded.refl (top : Entry) (way : List String) : DirsAdded top top way :=
  fun _ => Or.inl rfl

theorem DirsAdded.mono {top top' : Entry} {way way' : List String} (h : DirsAdded top top' way)
    (hWay : way <+: way') : DirsAdded top top' way' :=
  fun q => (h q).imp_right fun ⟨hq, hNone, hNew⟩ => ⟨hq.trans hWay, hNone, hNew⟩

theorem DirsAdded.trans {top mid top' : Entry} {way : List String} (h : DirsAdded top mid way)
    (h' : DirsAdded mid top' way) : DirsAdded top top' way := by
  intro q
  rcases h q with hSame | ⟨hq, hNone, hNew⟩
  · rw [← hSame]
    exact h' q
  · rcases h' q with hSame' | ⟨-, hNone', -⟩
    · exact Or.inr ⟨hq, hNone, hSame'.trans hNew⟩
    · rw [hNew] at hNone'
      cases hNone'

/-- The children of `way` are unchanged. -/
theorem DirsAdded.kindAt_below {top top' : Entry} {way : List String} (h : DirsAdded top top' way)
    (n : String) : top'.kindAt (way ++ [n]) = top.kindAt (way ++ [n]) := by
  rcases h (way ++ [n]) with hSame | ⟨hPrefix, -, -⟩
  · exact hSame
  · have hLength := hPrefix.length_le
    simp at hLength

/-- Some prefix of `way` is a file or a device. -/
def Blocked (top : Entry) (way : List String) : Prop :=
  ∃ dir, dir <+: way ∧ top.kindAt dir ≠ none ∧ top.kindAt dir ≠ some .directory

theorem Blocked.mono {top : Entry} {way way' : List String} (h : Blocked top way)
    (hWay : way <+: way') : Blocked top way' := by
  obtain ⟨dir, hDir, hThere, hOther⟩ := h
  exact ⟨dir, hDir.trans hWay, hThere, hOther⟩

/-- There is no entry at `way`, and no prefix of it is a file or a device. -/
structure Free (top : Entry) (way : List String) : Prop where
  absent : top.kindAt way = none
  clear : ¬ Blocked top way

/-- Every path below a free one is free. -/
theorem Free.mono {top : Entry} {way way' : List String} (h : Free top way)
    (hWay : way <+: way') : Free top way' := by
  obtain ⟨rest, rfl⟩ := hWay
  have hBelow : ∀ more, top.kindAt (way ++ more) = none := by
    intro more
    cases more with
    | nil => rw [List.append_nil, h.absent]
    | cons n ns =>
        by_contra hThere
        have hDirectory := kindAt_of_below hThere
        simp [h.absent] at hDirectory
  refine ⟨hBelow rest, ?_⟩
  rintro ⟨dir, hDir, hThere, hOther⟩
  -- what blocks the longer path is a prefix of the free one or below it
  rcases List.prefix_or_prefix_of_prefix hDir (List.prefix_append way rest) with hIn | hOut
  · exact h.clear ⟨dir, hIn, hThere, hOther⟩
  · obtain ⟨more, rfl⟩ := hOut
    exact hThere (hBelow more)

/-- `way` is a directory of the second tree, which differs from the first only in the missing
directories on `way`. -/
structure Reached (top top' : Entry) (way : List String) : Prop where
  added : DirsAdded top top' way
  there : top'.kindAt way = some .directory
  idle : top.kindAt way = some .directory → top' = top

theorem Reached.refl {top : Entry} {way : List String} (h : top.kindAt way = some .directory) :
    Reached top top way :=
  ⟨.refl _ _, h, fun _ => rfl⟩

/-- Making a missing directory reaches it. -/
theorem Reached.put {top : Entry} {here : List String} {name : String}
    (hHere : top.kindAt here = some .directory) (hNone : top.kindAt (here ++ [name]) = none) :
    Reached top (top.put (here ++ [name]) (directory [])) (here ++ [name]) := by
  have hOld : top.kindAt (here ++ [name]) ≠ some .directory := by simp [hNone]
  have hKinds := @kindAt_put top (directory []) here name hHere hOld (fun n ns => rfl)
  refine ⟨fun q => ?_, by simp [hKinds, kind], fun hThere => by simp [hNone] at hThere⟩
  by_cases hq : q = here ++ [name]
  · subst hq
    exact Or.inr ⟨List.prefix_refl _, hNone, by simp [hKinds, kind]⟩
  · exact Or.inl (by rw [hKinds, if_neg hq])

/-- Reaching a parent and then a child of it reaches the child. -/
theorem Reached.trans {top mid top' : Entry} {way : List String} {name : String}
    (h : Reached top mid way) (h' : Reached mid top' (way ++ [name])) :
    Reached top top' (way ++ [name]) where
  added := (h.added.mono (List.prefix_append _ _)).trans h'.added
  there := h'.there
  idle hThere := by
    have hMid := h.idle (kindAt_directory_before (List.prefix_append _ _) hThere)
    rw [← hMid] at hThere
    rw [h'.idle hThere, hMid]

/-- **If a reached directory has a child in the first tree, no directory was missing.** -/
theorem Reached.unchanged_of_below {top top' : Entry} {way : List String} {n : String}
    (h : Reached top top' way) (hBelow : top'.kindAt (way ++ [n]) ≠ none) : top' = top :=
  h.idle (kindAt_of_below (h.added.kindAt_below n ▸ hBelow))

/-- A reached path is not blocked. -/
theorem Reached.not_blocked {top top' : Entry} {way : List String} (h : Reached top top' way) :
    ¬ Blocked top way := by
  rintro ⟨dir, hDir, hThere, hOther⟩
  rcases h.added dir with hSame | ⟨-, hNone, -⟩
  · exact hOther (hSame ▸ kindAt_directory_before hDir h.there)
  · exact hThere hNone

/-- Either no directory was missing, or the path was free. -/
theorem Reached.unchanged_or_free {top top' : Entry} {way : List String}
    (h : Reached top top' way) : top' = top ∨ Free top way := by
  by_cases hDir : top.kindAt way = some .directory
  · exact Or.inl (h.idle hDir)
  · refine Or.inr ⟨?_, h.not_blocked⟩
    by_contra hThere
    exact h.not_blocked ⟨way, List.prefix_refl _, hThere, hDir⟩

/-! ## Path resolution -/

/-- A path without `.` and `..` resolves to its file names. -/
theorem follow_eq_ok {top : Entry} {here ps q : List String} (hDots : NoDots ps)
    (h : top.follow here ps = .ok q) :
    q = here ++ names ps ∧ Short (names ps) ∧ top.kindAt q ≠ none := by
  induction ps generalizing here with
  | nil =>
      rw [follow] at h
      split_ifs at h with hThere
      cases h
      refine ⟨by simp, by simp [Short], ?_⟩
      exact fun hNone => by simp [kindAt_eq_none.mp hNone] at hThere
  | cons p ps ih =>
      obtain ⟨hp, hps⟩ := List.forall_mem_cons.mp hDots
      rw [follow] at h
      split at h
      · by_cases hEmpty : p = ""
        · subst hEmpty
          exact ih hps h
        · simp only [hEmpty, hp.1, hp.2, decide_false, Bool.or_self, Bool.false_eq_true,
            if_false] at h
          split_ifs at h with hLong
          obtain ⟨hq, hShort, hThere⟩ := ih hps h
          rw [names_cons hEmpty]
          refine ⟨by simpa using hq, ?_, hThere⟩
          exact List.forall_mem_cons.mpr ⟨by simpa using hLong, hShort⟩
      · cases h
      · cases h

/-- The path of a directory resolves, if it has no `.`, no `..` and no component beyond
`NAME_MAX`. -/
theorem follow_of_directory {top : Entry} {here ps : List String} (hDots : NoDots ps)
    (hShort : Short (names ps)) (h : top.kindAt (here ++ names ps) = some .directory) :
    top.follow here ps = .ok (here ++ names ps) := by
  induction ps generalizing here with
  | nil =>
      rw [names_nil, List.append_nil] at h ⊢
      obtain ⟨es, hHere⟩ := kindAt_eq_directory.mp h
      simp [follow, hHere]
  | cons p ps ih =>
      obtain ⟨hp, hps⟩ := List.forall_mem_cons.mp hDots
      have hStart := kindAt_directory_before (List.prefix_append here _) h
      obtain ⟨es, hHere⟩ := kindAt_eq_directory.mp hStart
      rw [follow, hHere]
      by_cases hEmpty : p = ""
      · subst hEmpty
        exact ih hps hShort h
      · rw [names_cons hEmpty] at h hShort ⊢
        obtain ⟨hOwn, hRest⟩ := List.forall_mem_cons.mp hShort
        rw [List.append_cons] at h ⊢
        simp [hEmpty, hp.1, hp.2, hOwn, ih hps hRest h]

theorem at?_eq_some {top e : Entry} {here ps : List String} (hDots : NoDots ps)
    (h : top.at? here ps = some e) : top.get? (here ++ names ps) = some e ∧ Short (names ps) := by
  rw [at?, Option.bind_eq_some_iff] at h
  obtain ⟨q, hq, he⟩ := h
  have hFollow : top.follow here ps = .ok q := by
    cases hRun : top.follow here ps with
    | error fault => simp [hRun, Except.toOption] at hq
    | ok q' => simpa [hRun, Except.toOption] using hq
  obtain ⟨rfl, hShort, -⟩ := follow_eq_ok hDots hFollow
  exact ⟨he, hShort⟩

theorem at?_isDirectory {top : Entry} {here ps : List String} (hDots : NoDots ps) :
    (top.at? here ps).any isDirectory = true ↔
      top.kindAt (here ++ names ps) = some .directory ∧ Short (names ps) := by
  constructor
  · intro h
    cases hAt : top.at? here ps with
    | none => simp [hAt] at h
    | some e =>
        obtain ⟨hGet, hShort⟩ := at?_eq_some hDots hAt
        cases e with
        | directory es => exact ⟨kindAt_eq_directory.mpr ⟨es, hGet⟩, hShort⟩
        | file content => simp [hAt, isDirectory] at h
        | device => simp [hAt, isDirectory] at h
  · rintro ⟨hDir, hShort⟩
    obtain ⟨es, hGet⟩ := kindAt_eq_directory.mp hDir
    simp [at?, follow_of_directory hDots hShort hDir, Except.toOption, hGet, isDirectory]

/-! ## One directory -/

theorem makeDir_eq (top : Entry) (start ps : List String) (name : String) :
    top.makeDir start ps name =
      if Path.hasZero (String.intercalate "/" (ps ++ [name])) then .error .zeroByte
      else if Path.isTooLong (String.intercalate "/" (ps ++ [name])) then .error .tooLong
      else
        match top.follow start ps with
        | .error e => .error e
        | .ok here =>
          match top.get? here with
          | some (directory _) =>
            if Path.isLong name then .error .tooLong
            else if name = "." || name = ".." || (top.get? (here ++ [name])).isSome then
              .error .alreadyThere
            else .ok (top.put (here ++ [name]) (directory []))
          | _ => .error .notDirectory := by
  unfold makeDir
  dsimp only
  by_cases hZero : Path.hasZero (String.intercalate "/" (ps ++ [name])) = true
  · simp only [hZero, if_true]
    rfl
  · by_cases hFits : Path.isTooLong (String.intercalate "/" (ps ++ [name])) = true
    · simp only [hZero, hFits, if_true]
      rfl
    · simp only [hZero, hFits]
      cases top.follow start ps <;> rfl

/-- `mkdir` succeeds where the parent is a directory and has no child of that name. -/
theorem makeDir_eq_ok {top top' : Entry} {start ps : List String} {name : String}
    (hDots : NoDots ps) (h : top.makeDir start ps name = .ok top') :
    top.kindAt (start ++ names ps) = some .directory ∧ Short (names ps ++ [name]) ∧
      top.kindAt (start ++ names ps ++ [name]) = none ∧
      top' = top.put (start ++ names ps ++ [name]) (directory []) := by
  rw [makeDir_eq] at h
  cases hFollow : top.follow start ps with
  | error e =>
      simp only [hFollow] at h
      split_ifs at h
  | ok here =>
      obtain ⟨rfl, hShort, -⟩ := follow_eq_ok hDots hFollow
      by_cases hDir : top.kindAt (start ++ names ps) = some .directory
      · obtain ⟨es, hHere⟩ := kindAt_eq_directory.mp hDir
        simp only [hFollow, hHere] at h
        split_ifs at h with hZero hFits hLong hThere
        cases h
        simp only [Bool.or_eq_true, not_or, Bool.not_eq_true, Option.isSome_eq_false_iff,
          Option.isNone_iff_eq_none] at hThere
        refine ⟨hDir, ?_, kindAt_eq_none.mpr hThere.2, rfl⟩
        exact List.forall_mem_append.mpr ⟨hShort, by simpa using hLong⟩
      · have hOther : ∀ es, top.get? (start ++ names ps) ≠ some (directory es) :=
          fun es hHere => hDir (kindAt_eq_directory.mpr ⟨es, hHere⟩)
        simp only [hFollow] at h
        split_ifs at h

/-- In an existing directory `mkdir` fails only with an entry of that name or an unusable path. -/
theorem makeDir_eq_error {top : Entry} {start ps : List String} {name : String} {e : FileError}
    (hDots : NoDots (ps ++ [name])) (hDir : top.kindAt (start ++ names ps) = some .directory)
    (hShort : Short (names ps)) (h : top.makeDir start ps name = .error e) :
    (top.kindAt (start ++ names ps ++ [name]) ≠ none ∧ Short (names ps ++ [name])) ∨
      ((e = .tooLong ∨ e = .zeroByte) ∧ ¬ Usable (ps ++ [name])) := by
  obtain ⟨hps, hLast⟩ := List.forall_mem_append.mp hDots
  have hName := hLast name (List.mem_singleton_self name)
  obtain ⟨es, hHere⟩ := kindAt_eq_directory.mp hDir
  rw [makeDir_eq, follow_of_directory hps hShort hDir] at h
  simp only [hHere] at h
  split_ifs at h with hZero hFits hLong hThere
  · cases h
    exact Or.inr ⟨Or.inr rfl, fun hUsable => by simp [hUsable.noZero] at hZero⟩
  · cases h
    exact Or.inr ⟨Or.inl rfl, fun hUsable => by simp [hUsable.fits] at hFits⟩
  · cases h
    refine Or.inr ⟨Or.inl rfl, fun hUsable => ?_⟩
    simp [hUsable.short name (by simp)] at hLong
  · refine Or.inl ⟨fun hNone => ?_, ?_⟩
    · rw [kindAt_eq_none.mp hNone] at hThere
      simp [hName.1, hName.2] at hThere
    · exact List.forall_mem_append.mpr ⟨hShort, by simpa using hLong⟩

/-- `mkdir` that accepts an existing directory. -/
def makeOrEnter (top : Entry) (start ps : List String) (name : String) :
    Except FileError Unit × Entry :=
  match top.makeDir start ps name with
  | .ok top' => (.ok (), top')
  | .error e =>
    if (top.at? start (ps ++ [name])).any isDirectory then (.ok (), top) else (.error e, top)

/-- The parent of a made or existing directory is a directory. -/
theorem makeOrEnter_eq_ok {top top' : Entry} {start ps : List String} {name : String}
    (hDots : NoDots (ps ++ [name])) (hName : name ≠ "")
    (h : top.makeOrEnter start ps name = (.ok (), top')) :
    top.kindAt (start ++ names ps) = some .directory ∧
      Reached top top' (start ++ names ps ++ [name]) ∧ Short (names ps ++ [name]) := by
  unfold makeOrEnter at h
  split at h
  · rename_i made hMade
    cases h
    obtain ⟨hDir, hShort, hNone, rfl⟩ := makeDir_eq_ok (List.forall_mem_append.mp hDots).1 hMade
    exact ⟨hDir, .put hDir hNone, hShort⟩
  · split_ifs at h with hThere
    · cases h
      obtain ⟨hKind, hShort⟩ := (at?_isDirectory hDots).mp hThere
      rw [Path.names_concat hName] at hKind hShort
      rw [← List.append_assoc] at hKind
      exact ⟨kindAt_directory_before (List.prefix_append _ _) hKind, .refl hKind, hShort⟩
    · cases h

/-- In an existing directory, with a usable path, `makeOrEnter` fails only with a file or a device
of that name. -/
theorem makeOrEnter_eq_error {top top' : Entry} {start ps : List String} {name : String}
    {e : FileError} (hDots : NoDots (ps ++ [name])) (hName : name ≠ "")
    (h : top.makeOrEnter start ps name = (.error e, top')) :
    top' = top ∧ (top.kindAt (start ++ names ps) = some .directory → Short (names ps) →
      (top.kindAt (start ++ names ps ++ [name]) ≠ none ∧
        top.kindAt (start ++ names ps ++ [name]) ≠ some .directory) ∨
      ((e = .tooLong ∨ e = .zeroByte) ∧ ¬ Usable (ps ++ [name]))) := by
  unfold makeOrEnter at h
  split at h
  · cases h
  · rename_i fault hFault
    split_ifs at h with hThere
    · cases h
    · cases h
      refine ⟨rfl, fun hDir hShort => ?_⟩
      rcases makeDir_eq_error hDots hDir hShort hFault with ⟨hSome, hOwn⟩ | hUnusable
      · refine Or.inl ⟨hSome, fun hKind => hThere ?_⟩
        rw [at?_isDirectory hDots, Path.names_concat hName, ← List.append_assoc]
        exact ⟨hKind, hOwn⟩
      · exact Or.inr hUnusable

/-! ## All directories of a path -/

/-- **The specification of `mkdir -p`.** On success the path is reached. A usable path fails only if
it is blocked, and then the tree is unchanged. -/
def Made (top : Entry) (start ps : List String) : Except FileError Unit × Entry → Prop
  | (.ok (), top') => Reached top top' (start ++ names ps) ∧ Short (names ps)
  | (.error e, top') =>
    DirsAdded top top' (start ++ names ps) ∧ (top' = top ∨ Free top (start ++ names ps)) ∧
      (Blocked top (start ++ names ps) ∨ ((e = .tooLong ∨ e = .zeroByte) ∧ ¬ Usable ps))

/-- A failure at the parent is a failure at the path. -/
theorem Made.error_concat {top top' : Entry} {start ps : List String} {e : FileError}
    (h : Made top start ps (.error e, top')) (name : String) :
    Made top start (ps ++ [name]) (.error e, top') := by
  have hWay : start ++ names ps <+: start ++ names (ps ++ [name]) := by
    rw [Path.names_append, ← List.append_assoc]
    exact List.prefix_append _ _
  obtain ⟨hAdded, hFree, hCause⟩ := h
  refine ⟨hAdded.mono hWay, hFree.imp_right (·.mono hWay), hCause.imp (·.mono hWay) ?_⟩
  exact fun ⟨hFault, hUsable⟩ => ⟨hFault, fun h => hUsable h.of_concat⟩

/-- From a reached parent the child is reached, or the child is a file or a device and no directory
was missing. -/
theorem Reached.made {top mid : Entry} {start ps : List String} {name : String}
    (h : Reached top mid (start ++ names ps)) (hShort : Short (names ps))
    (hDots : NoDots (ps ++ [name])) (hName : name ≠ "") :
    Made top start (ps ++ [name]) (mid.makeOrEnter start ps name) := by
  have hNames : start ++ names (ps ++ [name]) = start ++ names ps ++ [name] := by
    rw [Path.names_concat hName, List.append_assoc]
  match hRun : mid.makeOrEnter start ps name with
  | (.ok (), top') =>
      obtain ⟨-, hReached, hAll⟩ := makeOrEnter_eq_ok hDots hName hRun
      rw [Made, hNames, Path.names_concat hName]
      exact ⟨h.trans hReached, hAll⟩
  | (.error e, top') =>
      obtain ⟨rfl, hCause⟩ := makeOrEnter_eq_error hDots hName hRun
      have hWay := List.prefix_append (start ++ names ps) [name]
      rw [Made, hNames]
      refine ⟨h.added.mono hWay, h.unchanged_or_free.imp_right (·.mono hWay), ?_⟩
      refine (hCause h.there hShort).imp_left fun ⟨hSome, hOther⟩ => ?_
      rw [h.added.kindAt_below] at hSome hOther
      exact ⟨_, List.prefix_refl _, hSome, hOther⟩

/-- Below a blocked path nothing is made. -/
theorem Blocked.made {top : Entry} {start ps : List String} {name : String}
    (h : Blocked top (start ++ names ps)) (hDots : NoDots (ps ++ [name])) (hName : name ≠ "") :
    Made top start (ps ++ [name]) (top.makeOrEnter start ps name) := by
  match hRun : top.makeOrEnter start ps name with
  | (.ok (), top') =>
      obtain ⟨hDir, -, -⟩ := makeOrEnter_eq_ok hDots hName hRun
      exact absurd h (Reached.refl hDir).not_blocked
  | (.error e, top') =>
      obtain ⟨rfl, -⟩ := makeOrEnter_eq_error hDots hName hRun
      exact Made.error_concat ⟨.refl _ _, Or.inl rfl, Or.inl h⟩ name

theorem makeDirs_cons {name : String} (hName : name ≠ "") (hDot : name ≠ ".") (top : Entry)
    (start outer : List String) :
    top.makeDirs start (name :: outer) =
      match (if (top.at? start (outer.dropWhile (· = "")).reverse).isNone then
          top.makeDirs start outer else (.ok (), top)) with
      | (.error e, mid) => (.error e, mid)
      | (.ok (), mid) => mid.makeOrEnter start outer.reverse name := by
  rw [makeDirs, if_neg hName]
  simp only [hDot, decide_false, Bool.and_false, Bool.false_eq_true, if_false]
  generalize (if (top.at? start (outer.dropWhile (· = "")).reverse).isNone = true then
    top.makeDirs start outer else (.ok (), top)) = run
  match run with
  | (.error e, mid) => rfl
  | (.ok (), mid) => rfl

/-- **`makeDirs` meets its specification.** The induction is on the components, the last one
first. -/
theorem makeDirs_made {top : Entry} {start : List String}
    (hStart : top.kindAt start = some .directory) (rs : List String) (hDots : NoDots rs) :
    Made top start rs.reverse (top.makeDirs start rs) := by
  induction rs with
  | nil =>
      rw [makeDirs]
      exact ⟨.refl (by simpa using hStart), by simp [Short]⟩
  | cons name outer ih =>
      obtain ⟨hName, hOuter⟩ := List.forall_mem_cons.mp hDots
      have hMade := ih hOuter
      rw [List.reverse_cons]
      by_cases hEmpty : name = ""
      · subst hEmpty
        rw [makeDirs, if_pos rfl]
        match hRun : top.makeDirs start outer with
        | (.ok (), mid) =>
            rw [hRun] at hMade
            simpa [Made, Path.names_append] using hMade
        | (.error e, mid) =>
            rw [hRun] at hMade
            exact hMade.error_concat ""
      · have hAll : NoDots (outer.reverse ++ [name]) := by
          simpa [NoDots, or_comm, forall_eq_or_imp] using hDots
        rw [makeDirs_cons hEmpty hName.1]
        split_ifs with hMissing
        · -- the outer directories are made first
          match hRun : top.makeDirs start outer with
          | (.ok (), mid) =>
              rw [hRun] at hMade
              exact hMade.1.made hMade.2 hAll hEmpty
          | (.error e, mid) =>
              rw [hRun] at hMade
              exact hMade.error_concat name
        · -- something is there already, but it need not be a directory
          have hTail : NoDots (outer.dropWhile (· = "")).reverse := fun p hp =>
            hOuter p ((List.dropWhile_suffix _).subset (List.mem_reverse.mp hp))
          obtain ⟨e, he⟩ : ∃ e, top.at? start (outer.dropWhile (· = "")).reverse = some e := by
            simpa [Option.isNone_iff_eq_none, ← Option.isSome_iff_ne_none,
              Option.isSome_iff_exists] using hMissing
          obtain ⟨hThere, hShort⟩ := at?_eq_some hTail he
          rw [Path.names_reverse, Path.names_dropWhile, ← Path.names_reverse] at hThere hShort
          by_cases hDir : top.kindAt (start ++ names outer.reverse) = some .directory
          · exact (Reached.refl hDir).made hShort hAll hEmpty
          · refine Blocked.made ⟨_, List.prefix_refl _, ?_, hDir⟩ hAll hEmpty
            simp [kindAt, hThere]

/-! ## One file -/

theorem writeFile_eq (top : Entry) (start : List String) (path : String) (content : ByteArray) :
    top.writeFile start path content =
      if Path.hasZero path then .error .zeroByte
      else if path = "" then .error .notFound
      else if Path.isTooLong path then .error .tooLong
      else
        match top.follow start (Path.parent path) with
        | .error e => .error e
        | .ok here =>
          let name := Path.baseName path
          if name = "" || name = "." || name = ".." then .error .isDirectory
          else if Path.isLong name then .error .tooLong
          else
            match top.get? (here ++ [name]) with
            | some (directory _) => .error .isDirectory
            | some device => .ok top
            | _ => .ok (top.put (here ++ [name]) (file content)) := by
  unfold writeFile
  dsimp only
  by_cases hZero : Path.hasZero path = true
  · simp only [hZero, if_true]
    rfl
  · by_cases hEmpty : path = ""
    · subst hEmpty
      rfl
    · by_cases hFits : Path.isTooLong path = true
      · simp only [hZero, hEmpty, hFits, if_true]
        rfl
      · simp only [hZero, hEmpty, hFits]
        cases top.follow start (Path.parent path) with
        | error e => rfl
        | ok here =>
            simp only [ok_bind]
            split_ifs <;> rfl

/-- In an existing directory a regular file is written, unless a directory has its name. Writing to
a device changes nothing. -/
theorem writeFile_eq_ok {top top' : Entry} {start : List String} {path : String}
    {content : ByteArray} (hDots : NoDots (Path.parent path))
    (hDir : top.kindAt (start ++ names (Path.parent path)) = some .directory)
    (h : top.writeFile start path content = .ok top') :
    Path.baseName path ≠ "" ∧
      let out := start ++ names (Path.parent path) ++ [Path.baseName path]
      (top.kindAt out = some .device ∧ top' = top) ∨
        (top.kindAt out ≠ some .device ∧ top.kindAt out ≠ some .directory ∧
          ∀ q, top'.kindAt q = if q = out then some (.file content) else top.kindAt q) := by
  rw [writeFile_eq] at h
  split_ifs at h
  split at h
  · cases h
  · rename_i here hFollow
    obtain ⟨rfl, -, -⟩ := follow_eq_ok hDots hFollow
    dsimp only at h
    split_ifs at h with hName hLong
    simp only [Bool.or_eq_true, decide_eq_true_eq, not_or] at hName
    refine ⟨hName.1.1, ?_⟩
    generalize start ++ names (Path.parent path) = here at hDir h ⊢
    split at h
    · cases h
    · rename_i hDevice
      cases h
      exact Or.inl ⟨kindAt_eq_device.mpr hDevice, rfl⟩
    · rename_i hNotDirectory hNotDevice
      cases h
      have hOld : top.kindAt (here ++ [Path.baseName path]) ≠ some .directory := fun hKind =>
        (kindAt_eq_directory.mp hKind).elim hNotDirectory
      refine Or.inr ⟨fun hKind => hNotDevice (kindAt_eq_device.mp hKind), hOld, ?_⟩
      exact kindAt_put hDir hOld fun n ns => rfl

/-- In an existing directory writing fails only if a directory has the name or the path is
unusable. -/
theorem writeFile_eq_error {top : Entry} {start : List String} {path : String}
    {content : ByteArray} {e : FileError} (hDots : NoDots (Path.parts path))
    (hDir : top.kindAt (start ++ names (Path.parent path)) = some .directory)
    (hShort : Short (names (Path.parent path)))
    (h : top.writeFile start path content = .error e) :
    top.kindAt (start ++ names (Path.parts path)) = some .directory ∨
      ((e = .tooLong ∨ e = .zeroByte) ∧ ¬ Usable (Path.parts path)) := by
  rw [Path.parts_eq] at hDots
  obtain ⟨hParent, hLast⟩ := List.forall_mem_append.mp hDots
  obtain ⟨hDot, hDotDot⟩ := hLast _ (List.mem_singleton_self _)
  have hNoName : Path.baseName path = "" →
      top.kindAt (start ++ names (Path.parts path)) = some .directory := by
    intro hEmpty
    rwa [Path.parts_eq, hEmpty, Path.names_append, Path.names_empty, List.append_nil]
  rw [writeFile_eq, follow_of_directory hParent hShort hDir] at h
  dsimp only at h
  split_ifs at h with hZero hEmpty hFits hName hLong
  · cases h
    refine Or.inr ⟨Or.inr rfl, fun hUsable => ?_⟩
    have hNo := hUsable.noZero
    rw [Path.intercalate_parts] at hNo
    simp [hNo] at hZero
  · subst hEmpty
    exact Or.inl (hNoName rfl)
  · cases h
    refine Or.inr ⟨Or.inl rfl, fun hUsable => ?_⟩
    have hNo := hUsable.fits
    rw [Path.intercalate_parts] at hNo
    simp [hNo] at hFits
  · exact Or.inl (hNoName (by simpa [hDot, hDotDot] using hName))
  · cases h
    refine Or.inr ⟨Or.inl rfl, fun hUsable => ?_⟩
    simp [hUsable.short (Path.baseName path) (by simp [Path.parts_eq])] at hLong
  · have hBase : Path.baseName path ≠ "" := fun hEmpty => by simp [hEmpty] at hName
    split at h
    · rename_i es hThere
      left
      rw [Path.names_parts hBase, ← List.append_assoc]
      exact kindAt_eq_directory.mpr ⟨es, hThere⟩
    · cases h
    · cases h

/-! ## A file and its directories -/

/-- **The specification of writing a file**: the path holds the content, or a device, and all other
entries are unchanged but for the missing parent directories. -/
structure Written (top top' : Entry) (out : List String) (content : ByteArray) : Prop where
  holds : top.kindAt out ≠ some .device → top'.kindAt out = some (.file content)
  dropped : top.kindAt out = some .device → top' = top
  outer : ∀ dir, dir <+: out → dir ≠ out → top'.kindAt dir = some .directory
  others : ∀ q, q ≠ out → top'.kindAt q = top.kindAt q ∨
    (q <+: out ∧ top.kindAt q = none ∧ top'.kindAt q = some .directory)

/-- Writing into a reached directory meets the specification. -/
theorem Reached.written {top mid top' : Entry} {start : List String} {path : String}
    {content : ByteArray} (h : Reached top mid (start ++ names (Path.parent path)))
    (hDots : NoDots (Path.parent path)) (hRun : mid.writeFile start path content = .ok top') :
    Written top top' (start ++ names (Path.parts path)) content ∧
      top.kindAt (start ++ names (Path.parts path)) ≠ some .directory := by
  obtain ⟨hName, hCases⟩ := writeFile_eq_ok hDots h.there hRun
  rw [Path.names_parts hName, ← List.append_assoc]
  generalize start ++ names (Path.parent path) = way at h hCases ⊢
  generalize Path.baseName path = name at hCases ⊢
  dsimp only at hCases
  have hOuter : ∀ dir, dir <+: way ++ [name] → dir ≠ way ++ [name] →
      mid.kindAt dir = some .directory := by
    intro dir hDir hNe
    exact kindAt_directory_before ((List.prefix_concat_iff.mp hDir).resolve_left hNe) h.there
  rcases hCases with ⟨hDevice, rfl⟩ | ⟨hDevice, hDirectory, hKinds⟩
  · obtain rfl := h.unchanged_of_below (Option.ne_none_iff_exists'.mpr ⟨_, hDevice⟩)
    refine ⟨⟨fun hOther => absurd hDevice hOther, fun _ => rfl, hOuter, fun _ _ => Or.inl rfl⟩, ?_⟩
    simp [hDevice]
  · rw [h.added.kindAt_below] at hDevice hDirectory
    refine ⟨⟨fun _ => ?_, fun hOld => absurd hOld hDevice, ?_, ?_⟩, hDirectory⟩
    · rw [hKinds, if_pos rfl]
    · intro dir hDir hNe
      rw [hKinds, if_neg hNe]
      exact hOuter dir hDir hNe
    · intro q hq
      rw [hKinds, if_neg hq]
      exact h.added.mono (List.prefix_append _ _) q

/-- Writing into a reached directory fails only if a directory has the name in the first tree, or
the path is unusable. -/
theorem Reached.not_written {top mid : Entry} {start : List String} {path : String}
    {content : ByteArray} {e : FileError} (h : Reached top mid (start ++ names (Path.parent path)))
    (hStart : top.kindAt start = some .directory) (hShort : Short (names (Path.parent path)))
    (hDots : NoDots (Path.parts path)) (hSlash : path.toList.getLast? ≠ some '/')
    (hRun : mid.writeFile start path content = .error e) :
    top.kindAt (start ++ names (Path.parts path)) = some .directory ∨
      ((e = .tooLong ∨ e = .zeroByte) ∧ ¬ Usable (Path.parts path)) := by
  refine (writeFile_eq_error hDots h.there hShort hRun).imp_left fun hThere => ?_
  by_cases hName : Path.baseName path = ""
  · -- only the empty path has no name behind its directories, and it leads nowhere else
    obtain rfl := Path.eq_empty_of_baseName hSlash hName
    have hOut : start ++ names (Path.parts "") = start := List.append_nil start
    rw [hOut]
    exact hStart
  · rw [Path.names_parts hName, ← List.append_assoc] at hThere ⊢
    rwa [h.added.kindAt_below] at hThere

end Entry

end GraphCodec
