import GraphCodec.Formatter.Programs
import GraphCodec.Formatter.Shell.Builtin
import GraphCodec.Formatter.Shell.Expand
import GraphCodec.Formatter.Shell.Reader

/-!
# Running shell scripts

The commands of a pipeline run one after the other, each with the complete output of the previous
one. A command without an end is stopped by its fuel, as by `SIGPIPE`.
-/

set_option autoImplicit false

namespace GraphCodec.Formatter.Shell

open Act

/-- The fuel of a loop. -/
def loopBound : Nat := 200000

/-- Catches a non-local exit. -/
def attempt {α : Type} (a : Act α) : Act (Except Leave α) :=
  try
    let x ← a
    pure (.ok x)
  catch leave => pure (.error leave)

/-! ## Redirections -/

/-- Opens the file of a redirection, or reports an error. -/
def openFile (way : Way) (name : Bytes) : Act (Option Handle) := do
  let d ← desk
  let refused (reason : String) : Act (Option Handle) := do
    let verb := if way == .read then "open" else "create"
    say (Bytes.words ["cannot ", verb, " "] ++ name ++ Bytes.words [": ", reason])
    pure none
  let absent := if way == .read then "No such file" else "Directory nonexistent"
  let opened (trail : Trail) : Act (Option Handle) := do
    if way == .write || way == .overwrite then modifyDesk fun d => d.putAt trail []
    let reads := way == .read || way == .readWrite
    pure (some (← newOpening ⟨trail, 0, reads, way != .read, way == .append⟩))
  match if way == .read then d.find name else d.findToMake name with
  | .null => pure (some .null)
  | .zeros => pure (some .zeros)
  | .full => pure (some .full)
  | .directory => if way == .read then pure (some .directory) else refused "Is a directory"
  | .channel n =>
    match ← handle? n with
    | some (.file id) =>
      match (← world).openings[id]? with
      | some o => opened o.trail
      | none => refused absent
    | some h => pure (some h)
    | none => refused absent
  | .content _ =>
    if way == .write && (← option 'C') then refused "File exists"
    else opened ((d.trail name).toOption.getD [])
  | .missing =>
    if way == .read || !d.hasRoom name then refused absent
    else
      let trail := (d.trail name).toOption.getD []
      modifyDesk fun d => d.putAt trail []
      opened trail
  | .notDirectory => refused absent
  | .tooLong => refused "File name too long"

def setHandle (number : Nat) (h : Option Handle) : Act Unit :=
  modifyEnv fun e =>
    let others := e.handles.filter (·.1 != number)
    { e with handles := match h with
      | some h => (number, h) :: others
      | none => others }

/-! ## Startup -/

/-- The variables that the shell sets at startup. -/
def ownSettings : List (Bytes × Parameter) :=
  [("IFS", " \t\n"), ("OPTIND", "1"), ("PPID", "1"), ("PS1", "# "), ("PS2", "> "),
    ("PS4", "+ ")].map fun (n, v) => (n.toList, ⟨some v.toList, false, false⟩)

/-- The initial shell execution environment. -/
def Env.start (name : Bytes) (settings : List (Bytes × Parameter)) (handles : List (Nat × Handle))
    (here : Trail) (mask : Nat) (limits : List (Char × Limit)) (process : Nat) : Env :=
  let path := ((settings.lookup "PWD".toList).bind (·.value)).getD (Desk.nameOf here)
  let pwd : Bytes × Parameter := ("PWD".toList, ⟨some path, true, false⟩)
  let own := pwd :: ownSettings
  { name
    arguments := []
    settings := own ++ settings.filter fun s => !own.any fun o => o.1 == s.1
    functions := []
    aliases := []
    options := []
    handles
    here
    path
    mask
    limits
    known := []
    status := 0
    outputStatus := none
    process
    job := none
    line := 0
    caller := none
    loops := 0
    calls := 0
    frames := []
    traps := []
    pending := []
    isCopy := false
    outerTraps := []
    documents := []
    nextDocument := 0
    atScriptEnd := false
    readingLine := 1
    optionPlace := ⟨1, none⟩ }

/-- The interpretation of a command name. -/
inductive Meaning where
  | keyword
  | unfolded (text : Bytes)
  | special
  | function (f : Routine)
  | builtin
  | other

def meaning (e : Env) (name : Bytes) : Meaning :=
  let text := String.ofList name
  if specialBuiltins.contains text then .special
  else
    match e.functions.lookup name with
    | some f => .function f
    | none => if Builtin.isBuiltin text then .builtin else .other

/-- The interpretation of a command name, reserved words and aliases included. -/
def fullMeaning (e : Env) (name : Bytes) : Meaning :=
  if keywords.contains (String.ofList name) then .keyword
  else
    match e.aliases.lookup name with
    | some text => .unfolded text
    | none => meaning e name

/-- The output of `command -v`, `command -V` and `type` for a name. -/
def describeOne (short : Bool) (name : Bytes) : Act (Nat × Bytes) := do
  let e ← env
  let stated (text : String) : Nat × Bytes :=
    (0, if short then name ++ ['\n'] else name ++ Bytes.words [" is ", text, "\n"])
  let standing (text : String) (file : Bytes) : Nat × Bytes :=
    (0, if short then file ++ ['\n'] else name ++ Bytes.words [" is ", text] ++ file ++ ['\n'])
  let unknown : Nat × Bytes := (127, if short then [] else name ++ Bytes.words [": not found\n"])
  match fullMeaning e name with
  | .keyword => pure (stated "a shell keyword")
  | .unfolded text =>
    pure (0, if short then Bytes.words ["alias "] ++ Builtin.shownAlias (name, text)
      else name ++ Bytes.words [" is an alias for "] ++ text ++ ['\n'])
  | .special => pure (stated "a special shell builtin")
  | .function _ => pure (stated "a shell function")
  | .builtin => pure (stated "a shell builtin")
  | .other =>
    if name.contains '/' then
      pure (if ((← desk).find name).isThere then standing "" name else unknown)
    else
      match ← lookUp name with
      | .program _ file =>
        pure (standing (if e.known.any (·.1 == name) then "a tracked alias for " else "") file)
      | .fault _ _ => pure unknown

/-- The builtin `type`, and `command -v` and `command -V`. -/
def describe (short : Bool) (names : List Bytes) : Act (Nat × Bytes) := do
  let all ← names.mapM (describeOne short)
  pure ((all.find? (·.1 != 0)).elim 0 (·.1), all.flatMap (·.2))

/-! ## External utilities -/

/-- The write errors of a file descriptor. -/
def drainOf (number : Nat) : Act Drain := do
  match ← handle? number with
  | some (.sink _) | some .null | some .zeros => pure .taken
  | some .full => pure .full
  | some (.file id) => pure (if (← world).openings[id]?.any (·.writes) then .taken else .closed)
  | _ => pure .closed

/-- The invocation of a utility with the file descriptors of the shell. -/
def callOf (name : Bytes) (args : List Bytes) : Act Call := do
  let e ← env
  let w ← world
  let first := e.handles.lookup 0
  let opening? (h : Option Handle) : Option Opening :=
    match h with
    | some (.file id) => w.openings[id]?
    | _ => none
  let noInput : Option NoInput := match first with
    | none | some (.sink _) => some .closed
    | some .directory => some .directory
    | some (.file _) => if (opening? first).any (·.reads) then none else some .closed
    | _ => none
  let inputFile ← match opening? first with
    | some o => do pure (some (← contentAt o.trail))
    | none => pure none
  let channels ← (e.handles.filter fun h => h.1 ≠ 0).mapM fun (n, h) => do
    match h, opening? (some h) with
    | _, some o => pure (n, Source.bytes (← contentAt o.trail) true)
    | .sink _, _ => pure (n, .none .missing)
    | .directory, _ => pure (n, .none .directory)
    | _, _ => pure (n, .bytes (← contentOf h) false)
  pure
    { name
      args
      desk := ← desk
      input := ← input 0
      noInput
      inputFile
      drain := ← drainOf 1
      outFile := (opening? (e.handles.lookup 1)).map (·.trail)
      channels
      settings := e.settings.filterMap fun (n, s) =>
        if s.exported then s.value.map (n, ·) else none }

/-- Runs a utility. -/
def runProgram (program : Program) (name : Bytes) (args : List Bytes) : Act Unit := do
  let outcome := program (← callOf name args)
  leaveInput 0 outcome.rest
  for (side, bytes) in outcome.written do
    let _ ← write (if side = .out then 1 else 2) bytes
  modifyDesk fun d => d.putAll outcome.files
  match outcome.ending with
  | .exited status => setStatus status
  | .killed signal => setStatus (128 + signal)

/-- The limit of the length of an argument. -/
def longestArgument : Nat := 131071

/-- Runs an action with the name of a builtin utility in its diagnostics. -/
def withCaller {α : Type} (name : Bytes) (a : Act α) : Act α := do
  let before := (← env).caller
  modifyEnv fun e => { e with caller := some name }
  let r ← attempt a
  modifyEnv fun e => { e with caller := before }
  match r with
  | .ok x => pure x
  | .error leave => throw leave

/-- The script of the `.` utility, and its path by a search of `PATH`. -/
def scriptIn (file : Bytes) : Act (Bytes × Bytes) := do
  if file.contains '/' then
    match ← contentNamed? file with
    | some script => pure (file, script)
    | none => refuse (Bytes.words ["cannot open "] ++ file ++ Bytes.words [": No such file"])
  else
    let d ← desk
    let found := (Lookup.candidates ((← programPath?).getD []) file).findSome? fun name =>
      match d.find name with
      | .content script => some (name, script)
      | _ => none
    match found with
    | some found => pure found
    | none => refuse (file ++ Bytes.words [": not found"])

/-- Hashes the utility of a command that is to run in a subshell. -/
def keepInMind (c : Command) : Act Unit := do
  match c with
  | .simple _ _ ([.plain name] :: _) _ =>
    if isName name then
      match meaning (← env) name with
      | .other =>
        let _ ← lookUp name
      | _ => pure ()
  | _ => pure ()

/-- Whether a loop continues after an iteration. -/
def afterRound (r : Except Leave Unit) : Act Bool :=
  match r with
  | .ok () => pure true
  | .error (.breakLoop n) => if n ≤ 1 then pure false else throw (.breakLoop (n - 1))
  | .error (.continueLoop n) => if n ≤ 1 then pure true else throw (.continueLoop (n - 1))
  | .error leave => throw leave

/-- Whether a text has command substitutions. -/
def holdsCommand : Bytes → Bool
  | '$' :: '(' :: '(' :: rest => holdsCommand rest
  | '$' :: '(' :: _ => true
  | _ :: rest => holdsCommand rest
  | [] => false

mutual

/-- Command substitution. -/
def outputOf : Nat → Bytes → Nat → Act Bytes
  | 0, _, _ => throw .exhausted
  | fuel + 1, script, line => do
    match readScript (Cursor.start script line (← env).nextDocument (← env).aliases) with
    | .error e =>
      modifyEnv fun env => { env with line := e.line }
      refuse (Bytes.words ["Syntax error: "] ++ e.text)
    | .ok (c, s) =>
      let id ← newChannel []
      let status ← isolated fuel (fun e =>
        { e with
          documents := s.documents ++ e.documents
          nextDocument := s.nextDocument
          handles := (1, .sink id) :: e.handles.filter (·.1 != 1) }) (evaluate fuel false c)
      modifyEnv fun e => { e with outputStatus := some status }
      collected id

/-- Runs an action in a subshell and returns its exit status. -/
def isolated : Nat → (Env → Env) → Act Unit → Act Nat
  | 0, _, _ => throw .exhausted
  | fuel + 1, change, body => do
    let before ← env
    modifyEnv fun e =>
      { change e with
        traps := e.traps.filter (·.2.isEmpty)
        pending := []
        isCopy := true
        readingLine := if e.options.contains 's' then e.readingLine else 1
        outerTraps := if e.isCopy then e.outerTraps else e.traps }
    let r ← attempt do
      body
    let r ← match r with
      | .error (.killed p s) => pure (.error (.killed p s))
      | .error .exhausted => pure (.error .exhausted)
      | _ => attempt (atEnd fuel)
    let status := (← env).status % 256
    modifyEnv fun _ => before
    match r with
    | .ok () => pure status
    | .error leave => throw leave

/-- The exit of the shell, with its `EXIT` trap. -/
def atEnd : Nat → Act Unit
  | 0 => throw .exhausted
  | fuel + 1 => do
    let e ← env
    match e.traps.lookup 0 with
    | some action =>
      modifyEnv fun e => { e with traps := e.traps.filter (·.1 != 0) }
      match ← attempt (runScript fuel false false action 1) with
      | .ok () => setStatus e.status
      | .error (.killed p s) => throw (.killed p s)
      | .error .exhausted => throw .exhausted
      | .error .fromShell => pure ()
      | .error _ => setStatus e.status
    | none => pure ()
    runJobs fuel

/-- Runs the pending background jobs. -/
def runJobs : Nat → Act Unit
  | 0 => throw .exhausted
  | fuel + 1 => do
    let jobs := (← world).jobs
    modifyWorld fun w => { w with jobs := [] }
    for job in jobs do
      let status ← isolated fuel (fun _ => job.env) (evaluate fuel false job.body)
      modifyWorld fun w => { w with finished := (job.number, status) :: w.finished }

/-- Runs the traps of pending signals. -/
def runPending : Nat → Act Unit
  | 0 => throw .exhausted
  | fuel + 1 => do
    let e ← env
    let isOwn (s : Nat × Nat) : Bool := !e.isCopy && s.1 = e.process
    let sent := (← world).sent.filter isOwn
    if !sent.isEmpty then
      modifyWorld fun w => { w with sent := w.sent.filter fun s => !isOwn s }
    let signals := e.pending ++ sent.map (·.2)
    if !signals.isEmpty then
      modifyEnv fun e => { e with pending := [] }
      for signal in signals do
        let status := (← env).status
        runScript fuel false false ((e.traps.lookup signal).getD []) 1
        setStatus status

/-- Runs a script, one complete command at a time; `shows` allows `set -v`. -/
def runScript : Nat → Bool → Bool → Bytes → Nat → Act Unit
  | 0, _, _, _, _ => throw .exhausted
  | fuel + 1, tested, shows, script, line => do
    let readingLine := (← env).readingLine
    let mut cursor := Cursor.start script line 0 []
    let bound := readingFuel script
    for _ in [0:script.length + 1] do
      let e ← env
      let before := cursor.rest
      let verbose := shows && e.options.contains 'v'
      match readLine bound { cursor with nextDocument := e.nextDocument, aliases := e.aliases } with
      | .error fault =>
        if verbose then
          let lines := before.splitOn '\n'
          let _ ← write 2 (Bytes.joinLines (lines.take (fault.line - cursor.line + 1)) true)
        modifyEnv fun env => { env with line := fault.line }
        refuse (Bytes.words ["Syntax error: "] ++ fault.text)
      | .ok (c, finished, next) =>
        if verbose then
          let _ ← write 2 (before.take (before.length - next.rest.length))
        modifyEnv fun e =>
          { e with
            documents := next.documents ++ e.documents
            nextDocument := next.nextDocument
            atScriptEnd := finished
            readingLine := next.line }
        cursor := { next with documents := [] }
        match c with
        | some c => evaluate fuel tested c
        | none => pure ()
        if finished then break
    modifyEnv fun e => { e with atScriptEnd := true, readingLine }

/-- The expanded operand of a redirection. A file descriptor has one digit. -/
def redirectText : Nat → Redirect → Act Bytes
  | 0, _ => throw .exhausted
  | fuel + 1, r => do
    match r.way with
    | .document _ => pure []
    | .same =>
      let text ← expandText (outputOf fuel) fuel r.target
      if text == ['-'] || (text.length = 1 && text.all Char.isDigit) then pure text
      else
        modifyEnv fun e => { e with line := e.readingLine }
        refuse (Bytes.words ["Syntax error: Bad fd number"])
    | _ => expandText (outputOf fuel) fuel r.target

/-- Performs redirections with expanded operands, or reports an error. With `saves`, the old file
descriptor is saved first, so that the error is lost if it is standard error. -/
def redirectTo : Nat → Bool → List (Redirect × Bytes) → Act Bool
  | 0, _, _ => throw .exhausted
  | fuel + 1, saves, redirects => do
    for (r, text) in redirects do
      match r.way with
      | .document number =>
        let word := ((← env).documents.lookup number).getD []
        match ← attempt (expandParts (outputOf fuel) fuel .one word) with
        | .ok pieces =>
          let id ← newChannel (Piece.text pieces)
          setHandle r.channel (some (.source id))
        | .error .refused => return false
        | .error leave => throw leave
      | .same =>
        match text with
        | ['-'] => setHandle r.channel none
        | _ =>
          let number := text.foldl (fun n c => 10 * n + (c.toNat - '0'.toNat)) 0
          if number ≠ r.channel then
            match ← handle? number with
            | some h => setHandle r.channel (some h)
            | none =>
              if !(saves && r.channel = 2) then
                say (text ++ Bytes.words [": Bad file descriptor"])
              return false
      | way =>
        match ← openFile way text with
        | some h => setHandle r.channel (some h)
        | none => return false
    return true

/-- Performs redirections. All operands are expanded before the first file is opened. -/
def redirect : Nat → List Redirect → Act Bool
  | 0, _ => throw .exhausted
  | fuel + 1, redirects => do
    let texts ← redirects.mapM (redirectText fuel)
    redirectTo fuel true (redirects.zip texts)

/-- Runs a command; `set -e` does not apply to a tested one. -/
def evaluate : Nat → Bool → Command → Act Unit
  | 0, _, _ => throw .exhausted
  | fuel + 1, tested, c => do
    if ← option 'n' then return
    let mut mayEnd := false
    match c with
    | .idle => setStatus 0
    | .sequence first second =>
      evaluate fuel tested first
      evaluate fuel tested second
    | .both first second =>
      evaluate fuel true first
      if (← env).status = 0 then evaluate fuel tested second
    | .either first second =>
      evaluate fuel true first
      if (← env).status ≠ 0 then evaluate fuel tested second
    | .negated body =>
      evaluate fuel true body
      setStatus (if (← env).status = 0 then 1 else 0)
    | .choice test body other =>
      evaluate fuel true test
      if (← env).status = 0 then evaluate fuel tested body else evaluate fuel tested other
    | .loop whileFails test body =>
      let loops := (← env).loops
      modifyEnv fun e => { e with loops := loops + 1 }
      let mut status := 0
      let mut ended := false
      for _ in [0:loopBound] do
        let round ← afterRound (← attempt (evaluate fuel true test))
        if !round then
          ended := true
          break
        if ((← env).status == 0) == whileFails then
          ended := true
          break
        let round ← afterRound (← attempt (evaluate fuel tested body))
        status := (← env).status
        if !round then
          ended := true
          break
      if !ended then throw .exhausted
      modifyEnv fun e => { e with loops, status }
    | .each line name words body =>
      modifyEnv fun e => { e with line }
      let fields ← expandFields (outputOf fuel) fuel words
      let loops := (← env).loops
      modifyEnv fun e => { e with loops := loops + 1 }
      let mut status := 0
      for field in fields do
        assign name field false
        let round ← afterRound (← attempt (evaluate fuel tested body))
        status := (← env).status
        if !round then break
      modifyEnv fun e => { e with loops, status }
    | .select line word arms =>
      modifyEnv fun e => { e with line }
      let text ← expandText (outputOf fuel) fuel word
      let mut chosen : Option Command := none
      for (patterns, body) in arms do
        if chosen.isNone then
          for pattern in patterns do
            if chosen.isNone && Glob.fits (← expandPattern (outputOf fuel) fuel pattern) text then
              chosen := some body
      match chosen with
      | some body => evaluate fuel tested body
      | none => setStatus 0
    | .define name line body =>
      modifyEnv fun e =>
        { e with
          functions := (name, ⟨line, body⟩) :: e.functions.filter (·.1 != name)
          status := 0 }
    | .background body =>
      let number := (← world).nextProcess
      let e ← env
      let handles := (0, .null) :: e.handles.filter (·.1 != 0)
      let job : Job := ⟨number, { e with handles }, body⟩
      modifyWorld fun w => { w with jobs := w.jobs ++ [job], nextProcess := number + 1 }
      modifyEnv fun e => { e with job := some number, status := 0 }
    | .pipeline parts =>
      mayEnd := true
      pipe fuel tested none parts
    | .subshell line body redirects =>
      mayEnd := true
      modifyEnv fun e => { e with line }
      let texts ← redirects.mapM (redirectText fuel)
      runJobs fuel
      let status ← isolated fuel id do
        if ← redirectTo fuel false (redirects.zip texts) then evaluate fuel tested body
        else setStatus 2
      setStatus status
    | .redirected line body redirects =>
      modifyEnv fun e => { e with line }
      let handles := (← env).handles
      if ← redirect fuel redirects then
        let r ← attempt (evaluate fuel tested body)
        modifyEnv fun e => { e with handles }
        match r with
        | .ok () => pure ()
        | .error leave => throw leave
      else modifyEnv fun e => { e with handles, status := 2 }
    | .simple line settings words redirects =>
      mayEnd := true
      simpleCommand fuel tested line settings words redirects
    runPending fuel
    if mayEnd && !tested && (← env).status ≠ 0 then
      if ← option 'e' then throw .fromShell

/-- Runs a pipeline, given the pipe of the previous command. -/
def pipe : Nat → Bool → Option Nat → List Command → Act Unit
  | 0, _, _, _ => throw .exhausted
  | _, _, _, [] => pure ()
  | fuel + 1, tested, before, c :: rest => do
    if before.isNone then runJobs fuel
    keepInMind c
    let reading (e : Env) : Env :=
      match before with
      | some id => { e with handles := (0, .source id) :: e.handles.filter (·.1 != 0) }
      | none => e
    if rest.isEmpty then
      setStatus (← isolated fuel reading (evaluate fuel tested c))
    else
      let id ← newChannel []
      let writing (e : Env) : Env :=
        { e with handles := (1, .sink id) :: e.handles.filter (·.1 != 1) }
      match ← attempt (isolated fuel (fun e => writing (reading e)) (evaluate fuel tested c)) with
      | .ok _ | .error .exhausted => pure ()
      | .error leave => throw leave
      let written ← collected id
      modifyWorld fun w => { w with channels := w.channels.set! id ⟨written, []⟩ }
      pipe fuel tested (some id) rest

/-- The expansion of `PS4` for `set -x`, during which tracing is off. -/
def traceMark : Nat → Act Bytes
  | 0 => throw .exhausted
  | fuel + 1 => do
    let text := (← value? "PS4".toList).getD []
    let atScriptEnd := (← env).atScriptEnd
    modifyEnv fun e => { e with atScriptEnd := false }
    match readText text with
    | some word =>
      if atScriptEnd && holdsCommand text then
        modifyEnv fun e => { e with line := 1 }
        say (Bytes.words ["Syntax error: end of file unexpected (expecting \")\")"])
        return text
      let options := (← env).options
      modifyEnv fun e => { e with options := e.options.filter (· != 'x') }
      let r ← attempt (expandParts (outputOf fuel) fuel .one word)
      modifyEnv fun e => { e with options }
      match r with
      | .ok pieces => pure (Piece.text pieces)
      | .error .refused => pure text
      | .error leave => throw leave
    | none => pure text

/-- Runs a simple command. Its assignments are local to it, unless it is a special builtin
utility. -/
def simpleCommand : Nat → Bool → Nat → List (Bytes × Word) → List Word → List Redirect → Act Unit
  | 0, _, _, _, _, _ => throw .exhausted
  | fuel + 1, tested, line, settings, words, redirects => do
    modifyEnv fun e => { e with line, outputStatus := none }
    let args ← expandArguments (outputOf fuel) fuel words
    let handles := (← env).handles
    let special := args.head?.any fun name => specialBuiltins.contains (String.ofList name)
    if !(← redirect fuel redirects) then
      modifyEnv fun e => { e with handles, status := 2 }
      if special then throw .refused
    else
      let lasting := args.isEmpty || special
      let exported := !lasting || args.head? == some "exec".toList
      let before ← (if lasting then [] else settings).mapM fun (name, _) => do
        pure (name, ← setting? name)
      let r ← attempt do
        let sets ← settings.mapM fun (name, word) => do
          let value ← expandValue (outputOf fuel) fuel word
          assign name value exported
          pure (name ++ '=' :: value)
        if ← option 'x' then
          let mark ← traceMark fuel
          let _ ← write 2 (mark ++ [' '].intercalate (sets ++ args) ++ ['\n'])
        invoke fuel tested args
      for (name, s) in before do
        putSetting name s
      let keep := args.head? == some "exec".toList && args.length = 1
      if !keep then modifyEnv fun e => { e with handles }
      match r with
      | .ok () => pure ()
      | .error leave => throw leave

/-- Runs a function, builtin or utility. -/
def invoke : Nat → Bool → List Bytes → Act Unit
  | 0, _, _ => throw .exhausted
  | fuel + 1, tested, args => do
    match args with
    | [] => modifyEnv fun e => { e with status := e.outputStatus.getD 0 }
    | name :: rest =>
      if name.contains '/' then external fuel name rest
      else
        match meaning (← env) name with
        | .special => builtin fuel tested true name rest
        | .function f => callFunction fuel tested f rest
        | .builtin => builtin fuel tested false name rest
        | _ => external fuel name rest

def callFunction : Nat → Bool → Routine → List Bytes → Act Unit
  | 0, _, _, _ => throw .exhausted
  | fuel + 1, tested, f, args => do
    let before ← env
    if 1000 ≤ before.calls then
      refuse (Bytes.words ["Maximum function recursion depth (1000) reached"])
    else
      modifyEnv fun e =>
        { e with
          arguments := args
          optionPlace := ⟨1, none⟩
          loops := 0
          calls := e.calls + 1
          frames := ⟨[], none⟩ :: e.frames }
      let r ← attempt (evaluate fuel tested f.body)
      let frame := (← env).frames.headD ⟨[], none⟩
      for (name, s) in frame.settings do
        putSetting name s
      modifyEnv fun e =>
        { e with
          arguments := before.arguments
          optionPlace := before.optionPlace
          options := frame.options.getD e.options
          loops := before.loops
          calls := before.calls
          frames := before.frames }
      match r with
      | .ok () | .error .fromFunction => pure ()
      | .error leave => throw leave

/-- Runs a builtin utility. An error of a special one exits the shell. -/
def builtin : Nat → Bool → Bool → Bytes → List Bytes → Act Unit
  | 0, _, _, _, _ => throw .exhausted
  | fuel + 1, tested, special, name, args => do
    let text := String.ofList name
    let body : Act (Nat × Bytes) := do
      match text with
      | "eval" =>
        let script := [' '].intercalate args
        setStatus 0
        runScript fuel tested false script 1
        pure ((← env).status, [])
      | "." =>
        match args with
        | [] => pure (0, [])
        | file :: _ =>
          let (path, script) ← scriptIn file
          modifyEnv fun e => { e with caller := some path }
          setStatus 0
          match ← attempt (runScript fuel tested true script 1) with
          | .ok () | .error .fromFunction => pure ((← env).status, [])
          | .error leave => throw leave
      | "exec" =>
        let (_, args) ← Builtin.takeOptions "" "" args
        match args with
        | [] => pure (0, [])
        | program :: rest =>
          match Lookup.run (← desk) (← programPath?) program with
          | .program _ _ => modifyEnv fun e => { e with traps := [] }
          | .fault _ _ => pure ()
          external fuel program rest
          throw .fromShell
      | "wait" =>
        runJobs fuel
        let w ← world
        match args.getLast? with
        | none => pure (0, [])
        | some target =>
          if target.head? == some '%' then refuse (Bytes.words ["No such job: "] ++ target)
          let n ← number target
          pure ((w.finished.lookup n).getD 127, [])
      | "type" => describe false args
      | _ =>
        match Builtin.table.lookup text with
        | some b => b args
        | none => pure (127, [])
    if text == "command" then
      match ← attempt (withCaller name (Builtin.takeOptions "pvV" "" args)) with
      | .error .refused => setStatus 2
      | .error leave => throw leave
      | .ok (given, rest) =>
        let shown := given.filter fun g => g.1 != 'p'
        if !shown.isEmpty then
          let (status, out) ← describe (shown.getLast?.any (·.1 == 'v')) (rest.take 1)
          let _ ← write 1 out
          setStatus status
        else
          match rest with
          | [] => setStatus 0
          | inner :: rest =>
            if Builtin.isBuiltin (String.ofList inner) ||
                specialBuiltins.contains (String.ofList inner) then
              builtin fuel tested false inner rest
            else external fuel inner rest
    else
      match ← attempt (withCaller name do
        let (status, out) ← body
        if ← write 1 out then pure status
        else do
          say (name ++ Bytes.words [": I/O error"])
          pure (if status % 2 = 0 then status + 1 else status)) with
      | .ok status => setStatus status
      | .error .refused => if special then throw .refused else setStatus 2
      | .error leave => throw leave

/-- Runs an external utility. -/
def external : Nat → Bytes → List Bytes → Act Unit
  | 0, _, _ => throw .exhausted
  | fuel + 1, name, args => do
    runJobs fuel
    let failed (reason : String) (status : Nat) : Act Unit := do
      say (name ++ Bytes.words [": ", reason])
      setStatus status
    match ← lookUp name with
    | .fault reason status => failed reason status
    | .program title _ =>
      if args.any fun a => longestArgument < a.length then failed "Argument list too long" 126
      else if title == "sh" || title == "dash" then
        let before ← env
        let process := (← world).nextProcess
        modifyWorld fun w => { w with nextProcess := process + 1 }
        modifyEnv fun e =>
          Env.start name (e.settings.filter (·.2.exported)) e.handles e.here e.mask e.limits process
        let r ← attempt (start fuel args)
        let status := (← env).status % 256
        modifyEnv fun _ => before
        match r with
        | .error (.killed p s) =>
          if p = process then
            if s != 2 && s != 13 then
              let _ ← write 2 (Bytes.words [Signal.report s, "\n"])
            setStatus (128 + s)
          else throw (.killed p s)
        | .error .exhausted => throw .exhausted
        | _ => setStatus status
      else
        match (programs (← world).shell).lookup title with
        | some program => runProgram program name args
        | none => failed "not found" 127

/-- Runs the shell from its arguments. -/
def start : Nat → List Bytes → Act Unit
  | 0, _ => throw .exhausted
  | fuel + 1, args => do
    let body : Act Unit := do
      let after ← Builtin.setOptions true (args.length + 1) args
      let _ ← write 1 after.out
      if ← option 'm' then
        say (Bytes.words ["can't access tty; job control turned off"])
        modifyEnv fun e => { e with options := e.options.filter (· != 'm') }
      let withName (rest : List Bytes) : Act Unit :=
        match rest with
        | name :: rest => modifyEnv fun e => { e with name, arguments := rest }
        | [] => pure ()
      if after.script then
        match after.args with
        | [] => refuse (Bytes.words ["-c requires an argument"])
        | script :: rest =>
          withName rest
          runScript fuel false false script 1
      else if after.args.isEmpty || (← option 's') then
        modifyEnv fun e =>
          { e with arguments := after.args, options := 's' :: e.options.filter (· != 's') }
        let script ← input 0
        leaveInput 0 []
        runScript fuel false true script 1
      else
        let file := after.args.headD []
        match ← contentNamed? file with
        | some script =>
          withName after.args
          runScript fuel false true script 1
        | none => refuse (Bytes.words ["cannot open "] ++ file ++ Bytes.words [": No such file"])
    match ← attempt body with
    | .error (.killed p s) => throw (.killed p s)
    | .error .exhausted => throw .exhausted
    | _ => atEnd fuel

end

/-- The fuel for the nesting of commands. -/
def depth : Nat := 20000

/-- The standard file descriptors. -/
def firstHandles (call : Call) : List (Nat × Handle) :=
  let input : Option Handle := match call.noInput with
    | none => some (.source 0)
    | some .closed => none
    | some .directory => some .directory
  let output : Option Handle := match call.drain with
    | .taken => some (.sink 1)
    | .closed => none
    | .full => some .full
  (input.map ((0, ·))).toList ++ (output.map ((1, ·))).toList ++ [(2, .sink 2)]

/-- The shell, where `inner` is the shell that its utilities invoke. -/
def shellWith (inner : Program) : Program := fun call =>
  let process := 4096
  let directories := call.desk.here :: call.desk.directories
  let world : World :=
    { channels := #[⟨call.input, []⟩, ⟨[], []⟩, ⟨[], []⟩]
      openings := #[]
      desk := { call.desk with directories }
      jobs := []
      finished := []
      nextProcess := process + 1
      sent := []
      shell := inner }
  let settings := call.settings.map fun (n, v) => (n, (⟨some v, true, false⟩ : Parameter))
  let first :=
    Env.start call.name settings (firstHandles call) call.desk.here 0o022 Limit.starting process
  let (r, s) := (start depth call.args).run.run ⟨first, world⟩
  let written (id : Nat) : Bytes :=
    ((s.world.channels[id]?).map fun c => c.added.reverse.flatten).getD []
  let left := ((s.world.channels[0]?).map (·.left)).getD []
  let changed := s.world.desk.files.filter fun (trail, bytes) =>
    call.desk.files.lookup trail != some bytes
  let ending : Ending := match r with
    | .error (.killed _ signal) => .killed signal
    | .error .exhausted => .killed 9
    | _ => .exited (s.env.status % 256)
  ⟨[(.out, written 1), (.err, written 2)], left,
    changed.map fun (trail, bytes) => (Desk.nameOf trail, bytes), ending⟩

/-- The shell with a bounded nesting of shells invoked by utilities. -/
def shellOfDepth : Nat → Program
  | 0 => fun call => ⟨[], call.input, [], .killed 9⟩
  | n + 1 => shellWith (shellOfDepth n)

/-- The utility `sh`. -/
def shell : Program := shellOfDepth 100

end GraphCodec.Formatter.Shell
