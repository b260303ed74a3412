import GraphCodec.Proofs.Commands
import GraphCodec.Proofs.Making
import GraphCodec.Proofs.References

/-!
# Writing is all or nothing

A module is generated as a whole before the first directory is made: it is compiled, rendered by a
template and changed by hooks. So the file system is unchanged when generation fails. What remains
is the path. Only a free parent has missing directories, and below a free parent nothing can keep
the file from being written, unless the path is unusable.

The template engine and the external programs are arbitrary. Of the programs, only the formatter is
assumed not to change the file system (`Runner.Keeps`).
-/

set_option autoImplicit false

namespace GraphCodec

/-! ## Hooks -/

/-- The program of a command line does not change the file system, whatever its standard input
is. -/
def Runner.Keeps (programs : Runner) (top : Entry) (line : String) : Prop :=
  ∀ program args, splitWords line = .ok (program :: args) →
    ∀ input, (programs top program args input).2 = top

theorem format_snd {programs : Runner} {top : Entry} {line : String}
    (h : programs.Keeps top line) (file content : String) :
    (format programs top line file content).2 = top := by
  unfold format
  cases hWords : splitWords line with
  | error fault => rfl
  | ok words =>
      cases words with
      | nil => rfl
      | cons program args =>
          have hKept := h program args hWords content.toUTF8
          dsimp only
          split_ifs
          · rfl
          generalize programs top program args content.toUTF8 = run at hKept ⊢
          obtain ⟨result, after⟩ := run
          cases result with
          | ok done => exact hKept
          | error fault => cases fault <;> exact hKept

/-- Hooks do not change the file system, if the programs of all formatter commands do not. -/
theorem Hook.runAll_snd {programs : Runner} {top : Entry} {hooks : List Hook}
    (h : ∀ line, .command line ∈ hooks → programs.Keeps top line) (file content : String) :
    (runAll programs top hooks file content).2 = top := by
  induction hooks generalizing content with
  | nil => rfl
  | cons hook rest ih =>
      have hRest : ∀ line, .command line ∈ rest → programs.Keeps top line := fun line hLine =>
        h line (List.mem_cons_of_mem _ hLine)
      have hHook : (hook.run programs top file content).2 = top := by
        cases hook with
        | header text => rfl
        | transform change => rfl
        | command line => exact format_snd (h line List.mem_cons_self) file content
      rw [runAll]
      generalize hook.run programs top file content = run at hHook ⊢
      obtain ⟨result, after⟩ := run
      obtain rfl : after = top := hHook
      cases result with
      | error e => rfl
      | ok text => exact ih hRest text

namespace Generator

/-- **Generating a module does not change the file system**, if the formatter does not. -/
theorem generate_snd {g : Generator} {engine : TemplateEngine} {programs : Runner} {place : Place}
    (hFormatter : ∀ line, g.config.formatCommand = some line → programs.Keeps place.top line)
    (file : String) : (g.generate engine programs place file).2 = place.top := by
  unfold generate
  cases g.render engine place with
  | error e => rfl
  | ok text =>
      have hHooks : (Hook.runAll programs place.top g.config.hooks file text).2 = place.top :=
        Hook.runAll_snd (fun line hLine => hFormatter line (Config.mem_hooks_command hLine)) _ _
      dsimp only
      generalize Hook.runAll programs place.top g.config.hooks file text = run at hHooks ⊢
      obtain ⟨result, after⟩ := run
      cases result with
      | error e => exact hHooks
      | ok text => exact hHooks

end Generator

/-! ## Plain paths -/

/-- A path with a nonempty base name and without `.` and `..`, as resolved paths are. -/
structure Path.Plain (path : String) : Prop where
  ends : path.toList.getLast? ≠ some '/'
  noDots : NoDots (parts path)

theorem Path.Plain.noDots_parent {path : String} (h : Plain path) : NoDots (parent path) :=
  fun p hp => h.noDots p (by rw [parts_eq]; exact List.mem_append_left _ hp)

namespace Place

/-- The tree is well formed, and the working directory is a directory of it. -/
def wellFormed (place : Place) : Bool :=
  place.top.wellFormed && (place.top.get? place.here).any Entry.isDirectory

/-- The path in the tree of a plain path. -/
def target (place : Place) (path : String) : List String :=
  place.start path ++ Path.names (Path.parts path)

/-- The parent directory of a plain path, in the tree. -/
def outer (place : Place) (path : String) : List String :=
  place.start path ++ Path.names (Path.parent path)

theorem outer_le_target (place : Place) (path : String) :
    place.outer path <+: place.target path := by
  rw [outer, target, Path.parts_eq, Path.names_append, ← List.append_assoc]
  exact List.prefix_append _ _

/-- Every path is resolved from a directory. -/
theorem kindAt_start {place : Place} (h : place.wellFormed = true) (path : String) :
    place.top.kindAt (place.start path) = some .directory := by
  have hHere : place.top.kindAt place.here = some .directory := by
    have hThere := (Bool.and_eq_true_iff.mp h).2
    cases hGet : place.top.get? place.here with
    | none => simp [hGet] at hThere
    | some e =>
        cases e with
        | directory es => exact Entry.kindAt_eq_directory.mpr ⟨es, hGet⟩
        | file content => simp [hGet, Entry.isDirectory] at hThere
        | device => simp [hGet, Entry.isDirectory] at hThere
  unfold start
  split_ifs
  · exact Entry.kindAt_directory_before List.nil_prefix hHere
  · exact hHere

end Place

namespace Generator

variable {g : Generator} {engine : TemplateEngine} {programs : Runner} {path : String}
  {place : Place} {text : String}

/-- The reasons why a module is not written to a usable path. -/
inductive Refusal (g : Generator) (engine : TemplateEngine) (programs : Runner) (path : String)
    (place : Place) : GenerateError → Prop
  /-- Generation fails: in the compiler, the template or a hook. -/
  | unmade {e : GenerateError}
      (h : (g.generate engine programs place (Path.baseName path)).1 = .error e) :
      Refusal g engine programs path place e
  /-- The path is a directory. -/
  | taken {fault : FileError} (h : place.top.kindAt (place.target path) = some .directory) :
      Refusal g engine programs path place (.file fault)
  /-- The parent or one of its ancestors is a file or a device. -/
  | blocked {fault : FileError} (h : place.top.Blocked (place.outer path)) :
      Refusal g engine programs path place (.file fault)

theorem write_eq
    (hFormatter : ∀ line, g.config.formatCommand = some line → programs.Keeps place.top line) :
    g.write engine programs path place =
      match (g.generate engine programs place (Path.baseName path)).1 with
      | .error e => (.error e, place.top)
      | .ok text =>
        match place.top.makeDirs (place.start path) (Path.parent path).reverse with
        | (.error e, mid) => (.error (.file e), mid)
        | (.ok (), mid) =>
          match mid.writeFile (place.start path) path text.toUTF8 with
          | .error e => (.error (.file e), mid)
          | .ok top => (.ok text, top) := by
  have hAfter : (g.generate engine programs place (Path.baseName path)).2 = place.top :=
    generate_snd hFormatter _
  unfold write
  generalize g.generate engine programs place (Path.baseName path) = run at hAfter ⊢
  obtain ⟨made, top⟩ := run
  obtain rfl : top = place.top := hAfter
  cases made <;> rfl

theorem not_refusal
    (hMade : (g.generate engine programs place (Path.baseName path)).1 = .ok text)
    (hTarget : place.top.kindAt (place.target path) ≠ some .directory)
    (hOuter : ¬ place.top.Blocked (place.outer path)) (e : GenerateError) :
    ¬ g.Refusal engine programs path place e := by
  rintro (hError | hTaken | hBlocked)
  · rw [hMade] at hError
    cases hError
  · exact hTarget hTaken
  · exact hOuter hBlocked

/-- A generated module can be written if the parent is free. -/
theorem not_refusal_of_free
    (hMade : (g.generate engine programs place (Path.baseName path)).1 = .ok text)
    (hFree : place.top.Free (place.outer path)) (e : GenerateError) :
    ¬ g.Refusal engine programs path place e := by
  have hTarget := (hFree.mono (place.outer_le_target path)).absent
  exact not_refusal hMade (by simp [hTarget]) hFree.clear e

/-- **Writing is all or nothing**, for any template engine and any programs, as long as the
formatter does not change the file system. If writing fails because generation fails, or because of
an entry at the path or at an ancestor of it, the file system is unchanged; a usable path has no
other way to fail. If it succeeds, the path holds the UTF-8 bytes of the text, its ancestors are
directories, and all else is unchanged. -/
theorem write_all_or_nothing (g : Generator) (engine : TemplateEngine) (programs : Runner)
    (path : String) (place : Place) (hPlace : place.wellFormed = true) (hPath : Path.Plain path)
    (hFormatter : ∀ line, g.config.formatCommand = some line → programs.Keeps place.top line) :
    (∀ e top, g.write engine programs path place = (.error e, top) →
      (g.Refusal engine programs path place e → top = place.top) ∧
      (g.Refusal engine programs path place e ∨
        ((e = .file .tooLong ∨ e = .file .zeroByte) ∧ ¬ Path.Usable (Path.parts path))) ∧
      place.top.DirsAdded top (place.target path)) ∧
    (∀ text top, g.write engine programs path place = (.ok text, top) →
      (g.generate engine programs place (Path.baseName path)).1 = .ok text ∧
      (∀ e, ¬ g.Refusal engine programs path place e) ∧
      place.top.Written top (place.target path) text.toUTF8) := by
  have hStart := place.kindAt_start hPlace path
  have hWay := place.outer_le_target path
  have hParent : Path.NoDots (Path.parent path).reverse := fun p hp =>
    hPath.noDots_parent p (List.mem_reverse.mp hp)
  have hDirs := Entry.makeDirs_made hStart (Path.parent path).reverse hParent
  rw [List.reverse_reverse] at hDirs
  rw [write_eq hFormatter]
  match hMade : (g.generate engine programs place (Path.baseName path)).1 with
  | .error e =>
      -- nothing was written yet
      refine ⟨?_, by rintro _ _ ⟨⟩⟩
      rintro _ _ ⟨⟩
      exact ⟨fun _ => rfl, Or.inl (.unmade hMade), .refl _ _⟩
  | .ok text =>
      dsimp only
      match hRun : place.top.makeDirs (place.start path) (Path.parent path).reverse with
      | (.error fault, mid) =>
          rw [hRun] at hDirs
          -- directories were made only on a free path, where there is no refusal
          obtain ⟨hAdded, hFree, hCause⟩ := hDirs
          refine ⟨?_, by rintro _ _ ⟨⟩⟩
          rintro _ _ ⟨⟩
          refine ⟨fun hRefusal => ?_, ?_, hAdded.mono hWay⟩
          · exact hFree.resolve_right fun hFree => not_refusal_of_free hMade hFree _ hRefusal
          · refine hCause.imp .blocked fun ⟨hFault, hUsable⟩ => ⟨by simpa using hFault, ?_⟩
            rw [Path.parts_eq]
            exact fun h => hUsable h.of_concat
      | (.ok (), mid) =>
          rw [hRun] at hDirs
          obtain ⟨hReached, hShort⟩ := hDirs
          dsimp only
          match hFile : mid.writeFile (place.start path) path text.toUTF8 with
          | .error fault =>
              -- as before, with all directories made
              refine ⟨?_, by rintro _ _ ⟨⟩⟩
              rintro _ _ ⟨⟩
              refine ⟨fun hRefusal => ?_, ?_, hReached.added.mono hWay⟩
              · exact hReached.unchanged_or_free.resolve_right fun hFree =>
                  not_refusal_of_free hMade hFree _ hRefusal
              · have hCause := hReached.not_written hStart hShort hPath.noDots hPath.ends hFile
                exact hCause.imp .taken fun ⟨hFault, hUsable⟩ => ⟨by simpa using hFault, hUsable⟩
          | .ok top =>
              refine ⟨by rintro _ _ ⟨⟩, ?_⟩
              rintro _ _ ⟨⟩
              obtain ⟨hWritten, hTarget⟩ := hReached.written hPath.noDots_parent hFile
              exact ⟨rfl, not_refusal hMade hTarget hReached.not_blocked, hWritten⟩

end Generator

namespace Workshop

/-- A working directory with a file and a template directory. -/
def place : Place :=
  ⟨.directory [("w", .directory [("n", .file "x".toUTF8),
    ("t", .directory [("codecs.ts.j2", .file "plain\n".toUTF8)])])], ["w"]⟩

def config : Config :=
  { templateDir := some "./t", header := some "// made", formatCommand := some "cat" }

/-- A generator with a custom template, a formatter and a header. -/
def generator : Generator := ⟨[⟨"Date", .scalar⟩], [], config, some "t"⟩

/-- A runner whose only program is `cat`. -/
def programs : Runner := fun top program _ input =>
  if program = "cat" then (.ok ⟨0, input, ByteArray.empty⟩, top) else (.error .notFound, top)

/-- The output of the template after the header. -/
def made : String := "// made\n\nplain\n"

theorem make_generator :
    Generator.make place generator.definitions generator.operations config = .ok generator := by cbv

theorem template_plain : generator.template? place = .ok (some "plain\n") := by
  have hPath : Template.path? Template.mainName = some ["codecs.ts.j2"] := by decide
  have hFollow : place.follow (Path.below "t" ["codecs.ts.j2"]) =
      .ok ["w", "t", "codecs.ts.j2"] := by decide
  have hFile : place.find? (Path.below "t" ["codecs.ts.j2"]) = some (.file "plain\n".toUTF8) := by
    rw [Place.find?, hFollow]
    rfl
  have hText : Text.decode "plain\n".toUTF8 = .ok "plain\n" := by cbv
  simp only [Generator.template?, Generator.load, generator, Template.load, hPath, Option.bind_some,
    hFile, hText, Except.mapError]

theorem render_plain : generator.render Board.engine place = .ok "plain\n" := by
  have hCompile : generator.compile = .ok (.ofCodecs [.scalar "Date"] []) :=
    Generator.compile_eq_ok.mpr ⟨⟨[.scalar "Date"]⟩, [], by cbv, rfl, rfl⟩
  refine Generator.render_eq_ok.mpr ⟨_, hCompile, ?_⟩
  rw [Generator.layOut, template_plain]
  rfl

theorem generate_text (file : String) :
    (generator.generate Board.engine programs place file).1 = .ok made := by
  have hHooks : generator.config.hooks = [.command "cat", .header "// made"] := rfl
  have hWords : splitWords "cat" = .ok ["cat"] := by cbv
  have hCopied : (Completed.mk 0 "plain\n".toUTF8 ByteArray.empty).formatted file =
      .ok "plain\n" := by cbv
  have hZero : ["cat"].any Path.hasZero = false := by decide
  have hFormat : format programs place.top "cat" file "plain\n" = (.ok "plain\n", place.top) := by
    simp only [format, hWords, hZero, Bool.false_eq_true, if_false, programs, if_true, hCopied]
  unfold Generator.generate
  simp only [render_plain, hHooks, Hook.runAll, Hook.run, hFormat]
  decide

/-- The module is generated for both paths, but the parent of one of them is a file. -/
theorem header_written_or_nothing :
    Generator.make place generator.definitions generator.operations config = .ok generator ∧
      place.wellFormed = true ∧ Path.Plain "a/b.ts" ∧ Path.Plain "n/b.ts" ∧
      (∀ line, generator.config.formatCommand = some line → programs.Keeps place.top line) ∧
      (∃ top, generator.write Board.engine programs "a/b.ts" place = (.ok made, top) ∧
        top.kindAt ["w", "a"] = some .directory ∧
        top.kindAt ["w", "a", "b.ts"] = some (.file made.toUTF8) ∧
        top.kindAt ["w", "n"] = some (.file "x".toUTF8)) ∧
      ∃ e, generator.write Board.engine programs "n/b.ts" place = (.error e, place.top) := by
  have hPlace : place.wellFormed = true := by decide
  have hFirst : Path.Plain "a/b.ts" := ⟨by decide, by decide⟩
  have hSecond : Path.Plain "n/b.ts" := ⟨by decide, by decide⟩
  have hKept : ∀ line,
      generator.config.formatCommand = some line → programs.Keeps place.top line := by
    intro line _ program args _ input
    unfold programs
    split_ifs <;> rfl
  refine ⟨make_generator, hPlace, hFirst, hSecond, hKept, ?_, ?_⟩
  · have hTarget : place.target "a/b.ts" = ["w", "a", "b.ts"] := by decide
    have hOuter : place.outer "a/b.ts" = ["w", "a"] := by decide
    have hUsable : Path.Usable (Path.parts "a/b.ts") := ⟨by decide, by decide, by decide⟩
    have hNew : place.top.kindAt ["w", "a"] = none := by decide
    have hClear : ¬ place.top.Blocked (place.outer "a/b.ts") := by
      rw [hOuter]
      rintro ⟨dir, hDir, hThere, hOther⟩
      rcases List.prefix_concat_iff.mp (show dir <+: ["w"] ++ ["a"] from hDir) with rfl | hDir
      · exact hThere hNew
      · exact hOther (Entry.kindAt_directory_before hDir (by decide))
    obtain ⟨hError, hOk⟩ := Generator.write_all_or_nothing generator Board.engine programs
      "a/b.ts" place hPlace hFirst hKept
    match hRun : generator.write Board.engine programs "a/b.ts" place with
    | (.error e, top) =>
        rcases (hError e top hRun).2.1 with hRefusal | ⟨-, hUnusable⟩
        · have hFree : place.top.Free (place.outer "a/b.ts") := ⟨hOuter ▸ hNew, hClear⟩
          exact absurd hRefusal (Generator.not_refusal_of_free (generate_text _) hFree e)
        · exact absurd hUsable hUnusable
    | (.ok text, top) =>
        obtain ⟨hText, -, hWritten⟩ := hOk text top hRun
        obtain rfl : made = text := by simpa [generate_text] using hText
        rw [hTarget] at hWritten
        refine ⟨top, rfl, hWritten.outer _ (by decide) (by decide), hWritten.holds (by decide), ?_⟩
        rcases hWritten.others ["w", "n"] (by decide) with hSame | ⟨-, hNone, -⟩
        · exact hSame
        · exact absurd hNone (by decide)
  · obtain ⟨hError, hOk⟩ := Generator.write_all_or_nothing generator Board.engine programs
      "n/b.ts" place hPlace hSecond hKept
    have hOuter : place.outer "n/b.ts" = ["w", "n"] := by decide
    have hBlocked : place.top.Blocked (place.outer "n/b.ts") :=
      ⟨["w", "n"], by rw [hOuter], by decide, by decide⟩
    match hRun : generator.write Board.engine programs "n/b.ts" place with
    | (.ok text, top) =>
        exact absurd (.blocked hBlocked) ((hOk text top hRun).2.1 (.file .notDirectory))
    | (.error e, top) =>
        obtain ⟨hSame, hCause, -⟩ := hError e top hRun
        have hRefusal : generator.Refusal Board.engine programs "n/b.ts" place e := by
          rcases hCause with hRefusal | ⟨rfl | rfl, -⟩
          · exact hRefusal
          · exact .blocked hBlocked
          · exact .blocked hBlocked
        exact ⟨e, by rw [hSame hRefusal]⟩

end Workshop

end GraphCodec
