import GraphCodec.Formatter.Decimal
import GraphCodec.Formatter.Outcome
import GraphCodec.Formatter.Shell.Script

/-!
# The shell execution environment

The state of a shell, the state it shares with other processes, and the non-local exits.
-/

set_option autoImplicit false

namespace GraphCodec.Formatter.Shell

/-- An open file description. -/
inductive Handle where
  /-- The read end of a pipe. -/
  | source (channel : Nat)
  /-- The write end of a pipe. -/
  | sink (channel : Nat)
  /-- A regular file. -/
  | file (opening : Nat)
  /-- The device `/dev/null`. -/
  | null
  | zeros
  | full
  | directory
  deriving DecidableEq, Repr

/-- A variable with its attributes. -/
structure Parameter where
  value : Option Bytes
  exported : Bool
  readOnly : Bool
  deriving DecidableEq, Repr

structure Routine where
  line : Nat
  body : Command
  deriving Repr

/-- The local variables and options of a function call, to be restored at its return. -/
structure Frame where
  settings : List (Bytes × Option Parameter)
  options : Option (List Char)

/-- The state of `getopts`: `OPTIND`, and the offset inside a cluster of options. -/
structure OptionPlace where
  index : Nat
  offset : Option Nat
  deriving DecidableEq, Repr

/-- A soft and a hard resource limit. -/
structure Limit where
  now : Option Nat
  ceiling : Option Nat
  deriving DecidableEq, Repr

/-- The shell execution environment. A subshell starts with a copy. -/
structure Env where
  /-- The name of the shell in diagnostics. -/
  name : Bytes
  arguments : List Bytes
  settings : List (Bytes × Parameter)
  functions : List (Bytes × Routine)
  /-- The aliases. -/
  aliases : List (Bytes × Bytes)
  /-- The shell options that are set. -/
  options : List Char
  handles : List (Nat × Handle)
  /-- The physical working directory, and the logical one. -/
  here : Trail
  path : Bytes
  /-- The file mode creation mask. -/
  mask : Nat
  /-- The resource limits by option letter. -/
  limits : List (Char × Limit)
  /-- The hash table of utilities, and whether the working directory has changed since. -/
  known : List (Bytes × Bool)
  status : Nat
  /-- The exit status of the last command substitution of the current command. -/
  outputStatus : Option Nat
  /-- The process ID of the shell, and of the last background job. -/
  process : Nat
  job : Option Nat
  /-- The line number of the current command. -/
  line : Nat
  /-- The current builtin utility. -/
  caller : Option Bytes
  /-- The nesting depths of loops and functions. -/
  loops : Nat
  calls : Nat
  /-- The frames of the active function calls. -/
  frames : List Frame
  /-- The traps by signal number; zero is `EXIT`. -/
  traps : List (Nat × Bytes)
  /-- The pending signals. -/
  pending : List Nat
  /-- Whether the shell is a subshell with the process ID of its parent, and the traps of that. -/
  isCopy : Bool
  outerTraps : List (Nat × Bytes)
  /-- The here-documents. -/
  documents : List (Nat × Word)
  nextDocument : Nat
  /-- Whether the parser has reached the end of a script, which command substitutions in the next
  word see first. -/
  atScriptEnd : Bool
  /-- The line number of the parser. -/
  readingLine : Nat
  optionPlace : OptionPlace

/-- A pipe. -/
structure Channel where
  left : Bytes
  /-- The written pieces, reversed. -/
  added : List Bytes

/-- An open file: its path, its offset and its access mode. -/
structure Opening where
  trail : Trail
  position : Nat
  reads : Bool
  writes : Bool
  /-- The flag `O_APPEND`. -/
  appends : Bool

/-- A background job. -/
structure Job where
  number : Nat
  env : Env
  body : Command

/-- The state shared by all processes. -/
structure World where
  channels : Array Channel
  openings : Array Opening
  desk : Desk
  jobs : List Job
  /-- The finished jobs, with their exit statuses. -/
  finished : List (Nat × Nat)
  nextProcess : Nat
  /-- The signals sent by subshells: the process ID, and the signal. -/
  sent : List (Nat × Nat)
  /-- The shell that utilities invoke. -/
  shell : Program

structure Session where
  env : Env
  world : World

/-- The non-local exits of commands. -/
inductive Leave where
  | breakLoop (count : Nat)
  | continueLoop (count : Nat)
  | fromFunction
  /-- The builtin `exit`; the exit status is in the session. -/
  | fromShell
  /-- A shell error, after its diagnostic. -/
  | refused
  /-- Termination of a process by a signal. -/
  | killed (process signal : Nat)
  /-- Out of fuel. -/
  | exhausted
  deriving DecidableEq, Repr

/-- The monad of the shell. The session survives non-local exits. -/
abbrev Act := ExceptT Leave (StateM Session)

namespace Act

def env : Act Env := do pure (← get).env

def modifyEnv (f : Env → Env) : Act Unit := modify fun s => { s with env := f s.env }

def world : Act World := do pure (← get).world

def modifyWorld (f : World → World) : Act Unit := modify fun s => { s with world := f s.world }

def setStatus (status : Nat) : Act Unit := modifyEnv fun e => { e with status }

/-! ## Files -/

/-- The file system at the working directory. -/
def desk : Act Desk := do
  let s ← get
  pure { s.world.desk with here := s.env.here }

def modifyDesk (f : Desk → Desk) : Act Unit :=
  modify fun s =>
    { s with world := { s.world with desk := f { s.world.desk with here := s.env.here } } }

/-- The content of the file at an absolute path. -/
def contentAt (trail : Trail) : Act Bytes := do
  match (← desk).foundAt trail with
  | .content bytes => pure bytes
  | _ => pure []

/-- Adds an open file. -/
def newOpening (o : Opening) : Act Handle := do
  let w ← world
  modifyWorld fun w => { w with openings := w.openings.push o }
  pure (.file w.openings.size)

/-! ## File descriptors -/

/-- Opens a pipe with bytes to read. -/
def newChannel (left : Bytes) : Act Nat := do
  let w ← world
  modifyWorld fun w => { w with channels := w.channels.push ⟨left, []⟩ }
  pure w.channels.size

/-- The open file description of a file descriptor. -/
def handle? (number : Nat) : Act (Option Handle) := do
  pure ((← env).handles.lookup number)

/-- The bytes that can be read from an open file description. -/
def contentOf (h : Handle) : Act Bytes := do
  match h with
  | .source id => pure (((← world).channels[id]?.map (·.left)).getD [])
  | .file id =>
    match (← world).openings[id]? with
    | some o => if o.reads then pure ((← contentAt o.trail).drop o.position) else pure []
    | none => pure []
  | .zeros | .full => pure Formatter.zeros
  | _ => pure []

/-- The bytes that can be read from a file descriptor. -/
def input (number : Nat) : Act Bytes := do
  match ← handle? number with
  | some h => contentOf h
  | none => pure []

/-- Sets the bytes that remain to be read from a file descriptor. -/
def leaveInput (number : Nat) (left : Bytes) : Act Unit := do
  match ← handle? number with
  | some (.source id) =>
    modifyWorld fun w => { w with channels := w.channels.modify id fun c => { c with left } }
  | some (.file id) =>
    match (← world).openings[id]? with
    | some o =>
      let size := (← contentAt o.trail).length
      modifyWorld fun w =>
        { w with openings := w.openings.set! id { o with position := size - left.length } }
    | none => pure ()
  | _ => pure ()

/-- Writes bytes to an open file at its offset. -/
def writeFile (id : Nat) (o : Opening) (bytes : Bytes) : Act Unit := do
  let before ← contentAt o.trail
  let place := if o.appends then before.length else o.position
  let gap := List.replicate (place - before.length) (Char.ofNat 0)
  modifyDesk fun d =>
    d.putAt o.trail (before.take place ++ gap ++ bytes ++ before.drop (place + bytes.length))
  modifyWorld fun w =>
    { w with openings := w.openings.set! id { o with position := place + bytes.length } }

/-- Writes bytes to a file descriptor, and returns whether it succeeded. -/
def write (number : Nat) (bytes : Bytes) : Act Bool := do
  match ← handle? number with
  | some (.sink id) =>
    modifyWorld fun w =>
      { w with channels := w.channels.modify id fun c => { c with added := bytes :: c.added } }
    pure true
  | some (.file id) =>
    match (← world).openings[id]? with
    | some o =>
      if bytes.isEmpty then pure true
      else if o.writes then
        writeFile id o bytes
        pure true
      else pure false
    | none => pure false
  | some .null | some .zeros => pure true
  | _ => pure bytes.isEmpty

/-- The bytes written to a pipe. -/
def collected (id : Nat) : Act Bytes := do
  pure (((← world).channels[id]?.map fun c => c.added.reverse.flatten).getD [])

/-! ## Diagnostics -/

/-- Writes a diagnostic, with the line number and the builtin utility. -/
def say (text : Bytes) : Act Unit := do
  let e ← env
  let caller := match e.caller with
    | some name => name ++ [':', ' ']
    | none => []
  let _ ← write 2 (e.name ++ Bytes.words [": ", toString e.line, ": "] ++ caller ++ text ++ ['\n'])

/-- A shell error with its diagnostic. -/
def refuse {α : Type} (text : Bytes) : Act α := do
  say text
  setStatus 2
  throw .refused

/-! ## Parameters -/

def option (letter : Char) : Act Bool := do pure ((← env).options.contains letter)

/-- The shell options in the order of `set -o`, with their long names. -/
def optionNames : List (Char × String) :=
  [('e', "errexit"), ('f', "noglob"), ('I', "ignoreeof"), ('i', "interactive"), ('m', "monitor"),
    ('n', "noexec"), ('s', "stdin"), ('x', "xtrace"), ('v', "verbose"), ('V', "vi"),
    ('E', "emacs"), ('C', "noclobber"), ('a', "allexport"), ('b', "notify"), ('u', "nounset"),
    ('p', "privileged"), ('\x01', "nolog"), ('\x02', "debug")]

def setting? (name : Bytes) : Act (Option Parameter) := do
  pure ((← env).settings.lookup name)

/-- The value of a variable. -/
def value? (name : Bytes) : Act (Option Bytes) := do
  pure ((← setting? name).bind (·.value))

/-- Sets or unsets a variable. Setting `PATH` clears the hash table. -/
def putSetting (name : Bytes) (s : Option Parameter) : Act Unit :=
  modifyEnv fun e =>
    let others := e.settings.filter fun (n, _) => n != name
    { e with
      settings := match s with
        | some s => (name, s) :: others
        | none => others
      known := if name == "PATH".toList then [] else e.known }

/-- Parses a nonnegative number. -/
def number (text : Bytes) : Act Nat :=
  match (Digits.decimal? text).filter fun n => 0 ≤ n && n < 0x80000000 with
  | some n => pure n.toNat
  | none => refuse (Bytes.words ["Illegal number: "] ++ text)

/-- Assigns a variable, without side effects on the shell. -/
def store (name value : Bytes) (exported : Bool) : Act Unit := do
  let before ← setting? name
  if before.any (·.readOnly) then refuse (name ++ Bytes.words [": is read only"])
  else
    let exported := exported || before.any (·.exported) || (← option 'a')
    putSetting name (some ⟨some value, exported, false⟩)

/-- Assigns a variable. Setting `OPTIND` resets `getopts`. -/
def assign (name value : Bytes) (exported : Bool) : Act Unit := do
  if name == "OPTIND".toList && !(← setting? name).any (·.readOnly) then
    let n ← number value
    modifyEnv fun e => { e with optionPlace := ⟨if n = 0 then 1 else n, none⟩ }
  store name value exported

/-- The value of `IFS`. -/
def separators : Act Bytes := do
  pure ((← value? "IFS".toList).getD [' ', '\t', '\n'])

/-- The value of `"$*"`: the positional parameters joined by the first byte of `IFS`. -/
def joinedArguments : Act Bytes := do
  let between := match ← value? "IFS".toList with
    | some ifs => ifs.take 1
    | none => [' ']
  pure (between.intercalate (← env).arguments)

/-- The value of a variable, positional or special parameter. -/
def parameter? (name : Bytes) : Act (Option Bytes) := do
  let e ← env
  let number (n : Nat) : Bytes := (toString n).toList
  match name with
  | ['#'] => pure (some (number e.arguments.length))
  | ['?'] => pure (some (number e.status))
  | ['$'] => pure (some (number e.process))
  | ['!'] => pure (e.job.map number)
  | ['0'] => pure (some e.name)
  | ['-'] =>
    pure (some ((optionNames.reverse.map (·.1)).filter fun c => e.options.contains c && c.isAlpha))
  | ['*'] | ['@'] => pure (some (← joinedArguments))
  | _ =>
    if name.all Char.isDigit then
      let n := name.foldl (fun n c => 10 * n + (c.toNat - '0'.toNat)) 0
      pure (if n = 0 then some e.name else e.arguments[n - 1]?)
    else value? name

end Act

end GraphCodec.Formatter.Shell
