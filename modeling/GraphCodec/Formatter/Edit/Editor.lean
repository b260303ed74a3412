import GraphCodec.Formatter.Edit.Run
import GraphCodec.Formatter.Manual

/-!
# The utility `sed`

Parses the command line, and edits the files.
-/

set_option autoImplicit false

namespace GraphCodec.Formatter.Edit

/-! ## Options -/

/-- The home page in the help text of `sed`. -/
def homePage : List String :=
  ["GNU sed home page: <https:", "//www.gnu.org/software/sed/>.\n",
    "General help using GNU software: <https:", "//www.gnu.org/gethelp/>.\n"]

/-- The output of `sed --help`. -/
def usage (name : Bytes) : Bytes := Bytes.words ["Usage: "] ++ name ++ Bytes.words
  ([" [OPTION]... \x7bscript-only-if-no-other-script\x7d [input-file]...\n\n",
    "  -n, --quiet, --silent\n",
    "                 suppress automatic printing of pattern space\n",
    "      --debug\n",
    "                 annotate program execution\n",
    "  -e script, --expression=script\n",
    "                 add the script to the commands to be executed\n",
    "  -f script-file, --file=script-file\n",
    "                 add the contents of script-file to the commands to be executed\n",
    "  --follow-symlinks\n",
    "                 follow symlinks when processing in place\n",
    "  -i[SUFFIX], --in-place[=SUFFIX]\n",
    "                 edit files in place (makes backup if SUFFIX supplied)\n",
    "  -l N, --line-length=N\n",
    "                 specify the desired line-wrap length for the \x60l' command\n",
    "  --posix\n",
    "                 disable all GNU extensions.\n",
    "  -E, -r, --regexp-extended\n",
    "                 use extended regular expressions in the script\n",
    "                 (for portability use POSIX -E).\n",
    "  -s, --separate\n",
    "                 consider files as separate rather than as a single,\n",
    "                 continuous long stream.\n",
    "      --sandbox\n",
    "                 operate in sandbox mode (disable e/r/w commands).\n",
    "  -u, --unbuffered\n",
    "                 load minimal amounts of data from the input files and flush\n",
    "                 the output buffers more often\n",
    "  -z, --null-data\n",
    "                 separate lines by NUL characters\n",
    "      --help     display this help and exit\n",
    "      --version  output version information and exit\n\n",
    "If no -e, --expression, -f, or --file option is given, then the first\n",
    "non-option argument is taken as the sed script to interpret.  All\n",
    "remaining arguments are names of input files; if no input files are\n",
    "specified, then the standard input is read.\n\n"] ++ homePage)

/-- The address for bug reports in the help text. -/
def mailbox : List String := ["E-mail bug reports to: <bug-sed@gnu.org>.\n"]

/-- The output of `sed --version`. -/
def edition : Bytes := Bytes.words
  (["sed (GNU sed) 4.9\n", "Packaged by Debian\n"] ++ Manual.terms ++
    ["\nWritten by Jay Fenlason, Tom Lord, Ken Pizzini,\n",
      "Paolo Bonzini, Jim Meyering, and Assaf Gordon.\n\n",
      "This sed program was built with SELinux support.\n",
      "SELinux is disabled on this system.\n\n"] ++ homePage ++ mailbox)

def switches : List Switch :=
  [⟨'b', "binary", .never⟩, ⟨'E', "regexp-extended", .never⟩, ⟨'δ', "debug", .never⟩,
    ⟨'e', "expression", .always⟩, ⟨'f', "file", .always⟩, ⟨'i', "in-place", .perhaps⟩,
    ⟨'l', "line-length", .always⟩, ⟨'z', "null-data", .never⟩, ⟨'z', "zero-terminated", .never⟩,
    ⟨'n', "quiet", .never⟩, ⟨'π', "posix", .never⟩, ⟨'n', "silent", .never⟩,
    ⟨'σ', "sandbox", .never⟩, ⟨'s', "separate", .never⟩, ⟨'u', "unbuffered", .never⟩] ++
    questionSwitches.reverse ++
    [⟨'φ', "follow-symlinks", .never⟩, ⟨'r', "", .never⟩, ⟨'V', "", .always⟩]

/-! ## Scripts -/

/-- The state of option parsing: the script so far, the output files, the number of `-e` fragments,
the name in diagnostics, and the rest of standard input. -/
structure Setup where
  style : Style
  draft : Draft
  opened : List Bytes
  arguments : Nat
  title : Option Bytes
  input : Bytes

/-- A fatal error with its exit status. -/
structure Refusal where
  message : Bytes
  status : Nat
  setup : Setup

/-- The outcome of a fatal error. -/
def Refusal.outcome (r : Refusal) (call : Call) : Outcome :=
  ⟨[(.err, call.message r.message)], r.setup.input, r.setup.opened.map (·, []), .exited r.status⟩

namespace Setup

def start (style : Style) (rules : Rules) (input : Bytes) : Setup :=
  ⟨style, ⟨#[], [], [], none, false, rules⟩, [], 0, none, input⟩

/-- Parses a fragment of the script. In POSIX mode a command ends in its fragment. -/
def read (s : Setup) (title : Title) (text : Bytes) : Except Refusal Setup :=
  let refuse (opened : List Bytes) (message : Bytes) (status : Nat) : Except Refusal Setup :=
    .error ⟨message, status, { s with opened }⟩
  match readPart s.style title s.title.isNone s.draft s.opened text with
  | .ok (draft, cursor) =>
    let place := title.words cursor.place
    if draft.waiting.isSome && draft.rules == .strict then
      refuse cursor.opened (place ++ Bytes.words [": "] ++ Fault.incomplete.message) 1
    else
      .ok { s with
        draft
        opened := cursor.opened
        title := some (if title.isFile then place else title.name ++ Bytes.words [", char 0"]) }
  | .error (.doubt d, cursor) => refuse cursor.opened (Fault.message (.doubt d)) 4
  | .error (.cannotOpen name reason, cursor) =>
    refuse cursor.opened (Fault.message (.cannotOpen name reason)) 4
  | .error (fault, cursor) =>
    refuse cursor.opened (title.words cursor.place ++ Bytes.words [": "] ++ fault.message) 1

/-- Parses the argument of `-e`, or the script operand. -/
def readArgument (s : Setup) (text : Bytes) : Except Refusal Setup :=
  let s := { s with arguments := s.arguments + 1 }
  s.read ⟨Bytes.words ["-e expression #", toString s.arguments], false⟩ text

/-- Parses the script file of `-f`, which may be standard input. -/
def readFile (call : Call) (s : Setup) (name : Bytes) : Except Refusal Setup :=
  let closed (reason : String) : Except Refusal Setup :=
    .error ⟨Bytes.words ["couldn't open file "] ++ name ++ Bytes.words [": ", reason], 4, s⟩
  let title : Title := ⟨Bytes.words ["file "] ++ name, true⟩
  match call.operand name with
  | .bytes bytes _ => s.read title bytes
  | .input => { s with input := [] }.read title s.input
  | .noInput .directory | .none .directory => s.read title []
  | .noInput .closed => closed NoInput.closed.reason
  | .none found => closed found.reason

/-- Processes an option. Fragments are parsed under the options before them. -/
def take (call : Call) (s : Setup) : Char × Option Bytes → Except Refusal Setup
  | ('e', some text) => s.readArgument text
  | ('f', some name) => s.readFile call name
  | ('E', _) | ('r', _) => .ok { s with style := { s.style with extended := true } }
  | ('z', _) => .ok { s with style := { s.style with lines := false } }
  | ('π', _) => .ok { s with draft := { s.draft with rules := .strict } }
  | ('σ', _) => .ok { s with style := { s.style with sandboxed := true } }
  | _ => .ok s

end Setup

/-- The last branch to an undefined label. -/
def lostLabel? (d : Draft) : Option Bytes :=
  d.steps.toList.reverse.findSome? fun step =>
    match step.action with
    | .jump l | .jumpIfChanged l | .jumpUnlessChanged l =>
      if l.isEmpty || (d.labels.lookup l).isSome then none else some l
    | _ => none

/-- Finishes parsing the script. -/
def Setup.finish (s : Setup) : Except Refusal Setup :=
  match s.draft.blocks, lostLabel? s.draft with
  | (_, place) :: _, _ =>
    .error ⟨place ++ Bytes.words [": "] ++ Fault.openBlock.message, 1, s⟩
  | [], some l =>
    .error ⟨Bytes.words ["can't find label for jump to \x60"] ++ l ++ Bytes.words ["'"], 4, s⟩
  | [], none => .ok { s with draft := s.draft.finish }

/-! ## Runs -/

/-- The output files of a script. -/
def sinkNames (steps : Array Step) : List Bytes :=
  (steps.toList.filterMap fun step =>
    match step.action with
    | .writeFile name | .writeLine name => some name
    | .substitute sub => sub.file
    | _ => none).eraseDups

/-- The initial state. The output files are truncated. -/
def startState (g : Plan) (steps : Array Step) (input : Bytes) (names : List Bytes) : State :=
  let sinks := sinkNames steps
  { own := ⟨[], input⟩
    current := .closed
    name := ['-']
    later := names
    restarts := false
    failed := false
    number := 0
    space := ⟨[], true⟩
    kept := ⟨[], true⟩
    spareEnded := true
    steps := steps
    progress := startProgress steps
    queue := []
    written := []
    product := []
    unended := false
    sinks := sinks.map (·, ⟨[], false⟩)
    readers := []
    changed := false
    lastPattern := none
    renewed := []
    desk := g.call.desk.putAll ((sinks.filter fun n => (channel? g n).isNone).map (·, []))
    files := []
    replaced := []
    level := 0 }

/-- The final output: that of output files that are standard output, and the rest of the buffer. -/
def lastOutput (sinks : List (Bytes × Bytes)) (left : Bytes) : List (Side × Bytes) :=
  let on (name : String) : Bytes := ((sinks.lookup name.toList).getD [])
  [(.err, on "/dev/stderr"), (.out, on "/dev/stdout" ++ left)].filter fun w => !w.2.isEmpty

/-- The write error at exit. -/
def drainFault? (drain : Drain) (wrote : Bool) : Option Bytes :=
  match drain with
  | .taken => none
  | .closed => some (Bytes.words ["couldn't close stdout: Bad file descriptor"])
  | .full =>
    if wrote then some (Bytes.words ["couldn't flush stdout: No space left on device"]) else none

/-- The rest of standard input: the read-ahead is given back if it is seekable. -/
def State.inputLeft (s : State) (call : Call) : Bytes :=
  if call.inputFile.isSome then s.own.ahead ++ s.own.rest else s.own.rest

/-- Runs a script on operands. -/
def edit (g : Plan) (setup : Setup) (names : List Bytes) : Outcome :=
  let call := g.call
  let script : Script := ⟨setup.draft.steps, setup.draft.labels⟩
  let (finish, s) := run g stepLimit .line (startState g script.steps setup.input names)
  let s := match finish with
    | .status _ | .endless => ((closeCurrent g).run s).2
    | .fault _ | .broken _ => s
  let listing := if g.lists then [(Channel.told, script.shown g.alphabet)] else []
  let (message, ending) : Option Bytes × Ending := match finish with
    | .status n => (none, .exited (if s.failed then 2 else n % 256))
    | .fault f => (some (setup.title.getD [] ++ Bytes.words [": "] ++ f.message), .exited 1)
    | .broken text => (some text, .exited 4)
    | .endless => (none, .killed 9)
  let said := (message.map fun m => (Channel.err, call.message m)).toList
  let (written, left) := settle g.block [] (listing ++ s.written.reverse ++ said)
  let sinks := s.sinks.map fun (name, sink) => (name, sink.content.reverse.flatten)
  let own := sinks.filter fun f => (channel? g f.1).isNone
  let written := written ++ lastOutput own left
  let wrote := written.any fun (side, bytes) => side = .out && !bytes.isEmpty
  match drainFault? call.drain wrote with
  | some fault =>
    ⟨written ++ [(.err, call.message fault)], s.inputLeft call, s.files ++ own, .exited 4⟩
  | none => ⟨written, s.inputLeft call, s.files ++ own, ending⟩

/-- The line wrap of `l` by the environment variable `COLS`. -/
def settledWidth (call : Call) : Nat :=
  match call.settings.lookup "COLS".toList with
  | some text =>
    let n := Digits.leading text
    if n = 0 || n = 1 then 70 else (n - 1).toNat
  | none => 70

end GraphCodec.Formatter.Edit

namespace GraphCodec.Formatter

open Edit

/-- The stream editor `sed`; `shell` runs the commands of `e`. -/
def editor (shell : Program) : Program := fun call =>
  let isCareful := call.isStrict
  let given := readSwitches switches (!isCareful) none call.args
  let rules : Rules := if isCareful then .careful else .free
  let style : Style := ⟨false, true, rules, isCareful, false, call.alphabet, call.desk⟩
  let isKnown : Char × Option Bytes → Bool := fun o => o.1 != 'V'
  match (given.options.takeWhile isKnown).foldlM (Setup.take call)
      (Setup.start style rules call.input) with
  | .error r => r.outcome call
  | .ok setup =>
    let opened := setup.opened.map (·, ([] : Bytes))
    let misused (text : Bytes) : Outcome :=
      { Outcome.failure (text ++ usage call.name) 1 setup.input with files := opened }
    let operand? := if setup.title.isSome then none else given.operands.head?
    if !given.options.all isKnown then misused []
    else match given.fault, given.options.find? fun o => isQuestion o.1 with
    | some fault, _ => misused (call.message fault)
    | none, some (letter, _) =>
      { Outcome.success (if letter == helpLetter then usage call.name ++ Bytes.words mailbox
          else edition) setup.input with files := opened }
    | none, none =>
      if setup.title.isNone && operand?.isNone then misused []
      else
        let names := if setup.title.isNone then given.operands.tail else given.operands
        match ((operand?.map setup.readArgument).getD (.ok setup)).bind Setup.finish with
        | .error r => r.outcome call
        | .ok setup =>
          let suffix := (given.options.filter fun o => o.1 == 'i').getLast?.map fun o =>
            match o.2 with
            | some text => if text.contains '*' then text else '*' :: text
            | none => ['*']
          let width := given.options.foldl (fun w o =>
            match o with
            | ('l', some n) => (Digits.leading n).toNat
            | _ => w) (settledWidth call)
          let g : Plan :=
            { call := call
              shell := shell
              labels := setup.draft.labels
              quiet := given.has 'n' || setup.draft.quiet
              width := width
              separator := if given.has 'z' then Char.ofNat 0 else '\n'
              block := if given.has 'u' then 1 else 4096
              rules := setup.draft.rules
              extended := setup.style.extended
              alphabet := call.alphabet
              lists := given.has 'δ'
              separate := given.has 's' || suffix.isSome
              inPlace := suffix
              follows := given.has 'φ' }
          if suffix.isSome && names.isEmpty then
            Refusal.outcome ⟨Bytes.words ["no input files"], 4, setup⟩ call
          else edit g setup (if names.isEmpty then [['-']] else names)

end GraphCodec.Formatter
