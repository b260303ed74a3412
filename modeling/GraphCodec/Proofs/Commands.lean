import Mathlib.Data.List.DropRight
import GraphCodec.Hook
import GraphCodec.Proofs.Runs

/-!
# Formatter commands name a program

A formatter command is checked twice, by two notions of white space. The configuration rejects a
command of Unicode white space only. When the command is split into words, there are four separator
characters, and quotes and backslashes count as well. Every separator is white space
(`isBlank_of_isSeparator`), and every other character starts a word, be it the empty one between two
quotes (`splitWords_eq_nil_iff`). So a valid command has a first word, unless it has a quoting
error.
-/

set_option autoImplicit false

namespace GraphCodec

/-! ## Shell words -/

namespace Words

/-- **A started word is not lost**: from every state but `between`, the lexer fails or returns a
word. -/
theorem read_ne_nil (place : Place) (done cs : List Char) (hPlace : place ≠ .between) :
    read place done cs ≠ .ok [] := by
  fun_induction read place done cs with
  | case1 | case2 | case3 | case4 | case5 => exact absurd rfl hPlace
  | case6 => simp
  | case7 done c cs hc ih =>
      -- the word ends here, and further words can only come after it
      intro h
      obtain ⟨rest, -, hWords⟩ := bind_eq_ok.mp h
      cases hWords
  | _ => simp_all

/-- Between words, separators are skipped and every other character starts a word. -/
theorem read_between_eq_nil_iff (done cs : List Char) :
    read .between done cs = .ok [] ↔ ∀ c ∈ cs, isSeparator c = true := by
  induction cs generalizing done with
  | nil => simp [read]
  | cons c cs ih =>
      rw [read, List.forall_mem_cons]
      by_cases hSeparator : isSeparator c = true
      · rw [if_pos hSeparator, ih]
        simp [hSeparator]
      · rw [if_neg hSeparator]
        refine iff_of_false ?_ fun h => hSeparator h.1
        split_ifs
        · exact read_ne_nil _ _ _ (by simp)
        · exact read_ne_nil _ _ _ (by simp)
        · exact read_ne_nil _ _ _ (by simp)

end Words

/-- A command line has no words exactly if it has separators only. -/
theorem splitWords_eq_nil_iff (line : String) :
    splitWords line = .ok [] ↔ ∀ c ∈ line.toList, Words.isSeparator c = true :=
  Words.read_between_eq_nil_iff [] line.toList

/-! ## White space -/

/-- The separators of words are white space; the converse is false. -/
theorem isBlank_of_isSeparator {c : Char} (h : Words.isSeparator c = true) :
    Text.isBlank c = true := by
  simp only [Words.isSeparator, Bool.or_eq_true, beq_iff_eq] at h
  rcases h with ((rfl | rfl) | rfl) | rfl <;> decide

/-- Stripping leaves the empty string exactly of white space. -/
theorem Text.strip_eq_empty_iff (text : String) :
    Text.strip text = "" ↔ Text.allBlank text = true := by
  have hStrip : Text.strip text =
      String.ofList ((text.toList.dropWhile isBlank).rdropWhile isBlank) := rfl
  rw [hStrip, ← String.toList_eq_nil_iff, String.toList_ofList, List.rdropWhile_eq_nil_iff,
    Text.allBlank, List.all_eq_true]
  constructor
  · intro h c hc
    rw [← List.takeWhile_append_dropWhile (p := isBlank) (l := text.toList)] at hc
    rcases List.mem_append.mp hc with hFront | hBack
    · exact List.mem_takeWhile_imp hFront
    · exact h c hBack
  · intro h c hc
    exact h c ((List.dropWhile_sublist _).subset hc)

/-- A formatter command is valid exactly if stripping leaves something of it. -/
theorem Setting.nonBlankOption_eq_ok {line : String} {o : Option String} :
    (Setting.text line).nonBlankOption = .ok o ↔ o = some line ∧ Text.strip line ≠ "" := by
  rw [Ne, Text.strip_eq_empty_iff, Setting.nonBlankOption]
  split_ifs with hBlank
  · simp [hBlank]
  · simp [hBlank, eq_comm]

/-- **A command line that is not blank has a first word**, or a quoting error. -/
theorem splitWords_of_not_blank {line : String} (h : Text.strip line ≠ "") :
    (∃ fault, splitWords line = .error fault) ∨
      ∃ program args, splitWords line = .ok (program :: args) := by
  cases hWords : splitWords line with
  | error fault => exact Or.inl ⟨fault, rfl⟩
  | ok words =>
      cases words with
      | nil =>
          have hBlank : Text.allBlank line = true := by
            rw [Text.allBlank, List.all_eq_true]
            intro c hc
            exact isBlank_of_isSeparator ((splitWords_eq_nil_iff line).mp hWords c hc)
          exact absurd ((Text.strip_eq_empty_iff line).mpr hBlank) h
      | cons program args => exact Or.inr ⟨program, args, rfl⟩

/-! ## Hooks -/

theorem Completed.formatted_ne_noProgram (done : Completed) (file : String) :
    done.formatted file ≠ .error .noProgram := by
  have hDecode : ∀ bytes, (Text.decode bytes).mapError FormatError.notText ≠ .error .noProgram := by
    intro bytes
    cases Text.decode bytes <;> simp [Except.mapError]
  intro h
  rcases bind_eq_error.mp h with hOut | ⟨out, -, h⟩
  · exact hDecode _ hOut
  rcases bind_eq_error.mp h with hMessages | ⟨messages, -, h⟩
  · exact hDecode _ hMessages
  split_ifs at h <;> cases h

/-- The formatter reports a missing program exactly if its command line has no words. -/
theorem format_eq_noProgram_iff (programs : Runner) (top : Entry) (line file content : String) :
    (format programs top line file content).1 = .error .noProgram ↔ splitWords line = .ok [] := by
  unfold format
  cases hWords : splitWords line with
  | error fault => simp
  | ok words =>
      cases words with
      | nil => simp
      | cons program args =>
          refine iff_of_false ?_ (by simp)
          dsimp only
          split_ifs
          · simp
          split
          · simp
          · simp
          · exact Completed.formatted_ne_noProgram _ _

/-- The hooks report a missing program only if one of them does. -/
theorem Hook.exists_of_runAll_eq_noProgram {hooks : List Hook} {programs : Runner} {top : Entry}
    {file content : String}
    (h : (Hook.runAll programs top hooks file content).1 = .error .noProgram) :
    ∃ line, .command line ∈ hooks ∧ splitWords line = .ok [] := by
  induction hooks generalizing top content with
  | nil => cases h
  | cons hook hooks ih =>
      rw [Hook.runAll] at h
      split at h
      · obtain ⟨line, hLine, hWords⟩ := ih h
        exact ⟨line, List.mem_cons_of_mem _ hLine, hWords⟩
      · rename_i e after hRun
        cases h
        cases hook with
        | header text => cases hRun
        | transform change => cases hRun
        | command line =>
            have hFormat : (format programs top line file content).1 = .error .noProgram :=
              congrArg Prod.fst hRun
            exact ⟨line, List.mem_cons_self, (format_eq_noProgram_iff _ _ _ _ _).mp hFormat⟩

/-- The only formatter hook of a configuration is that of its formatter command. -/
theorem Config.mem_hooks_command {config : Config} {line : String}
    (h : .command line ∈ config.hooks) : config.formatCommand = some line := by
  unfold Config.hooks at h
  rcases List.mem_append.mp h with hCommand | hHeader
  · cases hGiven : config.formatCommand with
    | none => simp [hGiven] at hCommand
    | some s =>
        rw [hGiven] at hCommand
        dsimp only at hCommand
        split_ifs at hCommand
        · cases hCommand
        · cases List.mem_singleton.mp hCommand
          rfl
  · cases hGiven : config.header with
    | none => simp [hGiven] at hHeader
    | some s =>
        rw [hGiven] at hHeader
        dsimp only at hHeader
        split_ifs at hHeader
        · cases hHeader
        · cases List.mem_singleton.mp hHeader

/-- **Every valid formatter command names a program.** Stripping leaves something of it. It has a
quoting error or a first word; so whatever the rest of the configuration is, and whatever the
programs do, its hooks never report a missing program. -/
theorem Setting.accepted_command_names_program (line : String)
    (hAccepted : (Setting.text line).nonBlankOption = .ok (some line)) :
    Text.strip line ≠ "" ∧
      ((∃ fault, splitWords line = .error fault) ∨
        ∃ program args, splitWords line = .ok (program :: args)) ∧
      ∀ config : Config, config.formatCommand = some line → ∀ programs top file content,
        (Hook.runAll programs top config.hooks file content).1 ≠ .error .noProgram := by
  obtain ⟨-, hStrip⟩ := Setting.nonBlankOption_eq_ok.mp hAccepted
  have hWords := splitWords_of_not_blank hStrip
  refine ⟨hStrip, hWords, fun config hCommand programs top file content hRun => ?_⟩
  obtain ⟨other, hOther, hNone⟩ := Hook.exists_of_runAll_eq_noProgram hRun
  obtain rfl : line = other := by simpa [hCommand] using Config.mem_hooks_command hOther
  rcases hWords with ⟨fault, hFault⟩ | ⟨program, args, hSome⟩
  · rw [hNone] at hFault
    cases hFault
  · rw [hNone] at hSome
    cases hSome

/-- A pair of quotes is an empty word, which is the name of the program. -/
theorem Setting.empty_quotes_name_program :
    splitWords "\t''" = .ok [""] ∧ (Setting.text "\t''").nonBlankOption = .ok (some "\t''") ∧
      Text.strip "\t''" ≠ "" ∧
      ((∃ fault, splitWords "\t''" = .error fault) ∨
        ∃ program args, splitWords "\t''" = .ok (program :: args)) ∧
      ∀ config : Config, config.formatCommand = some "\t''" → ∀ programs top file content,
        (Hook.runAll programs top config.hooks file content).1 ≠ .error .noProgram := by
  have hAccepted : (Setting.text "\t''").nonBlankOption = .ok (some "\t''") := by cbv
  exact ⟨by cbv, hAccepted, Setting.accepted_command_names_program "\t''" hAccepted⟩

end GraphCodec
