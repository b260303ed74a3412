import GraphCodec.Formatter.Desk
import GraphCodec.Formatter.Letters

/-!
# The interface of a utility

From the arguments, standard input and file system to the output, exit status and changed files.
-/

set_option autoImplicit false

namespace GraphCodec.Formatter

/-- The termination of a process: an exit status or a signal. -/
inductive Ending where
  | exited (status : Nat)
  | killed (signal : Nat)
  deriving DecidableEq, Repr

/-- The return code; signals are negative. -/
def Ending.code : Ending → Int
  | exited status => status
  | killed signal => -signal

/-- The standard streams for output. -/
inductive Side where
  | out | err
  deriving DecidableEq, Repr

/-- The outcome of a process: its output in order, the rest of standard input, the files it wrote,
and its termination. -/
structure Outcome where
  written : List (Side × Bytes)
  rest : Bytes
  files : List (Bytes × Bytes)
  ending : Ending
  deriving DecidableEq, Repr

namespace Outcome

/-- The output on one stream. -/
def on (o : Outcome) (side : Side) : Bytes :=
  o.written.flatMap fun (s, bytes) => if s = side then bytes else []

/-- Successful exit. -/
def success (out rest : Bytes) : Outcome := ⟨[(.out, out)], rest, [], .exited 0⟩

/-- Exit with a diagnostic and no output. -/
def failure (message : Bytes) (status : Nat) (rest : Bytes) : Outcome :=
  ⟨[(.err, message)], rest, [], .exited status⟩

end Outcome

/-! ## Calls -/

/-- The errors of reading standard input. -/
inductive NoInput where
  | closed
  | directory
  deriving DecidableEq, Repr

def NoInput.reason : NoInput → String
  | .closed => "Bad file descriptor"
  | .directory => "Is a directory"

/-- The errors of writing standard output. -/
inductive Drain where
  | taken
  | closed
  /-- The device `/dev/full`. -/
  | full
  deriving DecidableEq, Repr

/-- The result of opening a file for reading. -/
inductive Source where
  /-- A file; `regular` for a regular one. -/
  | bytes (content : Bytes) (regular : Bool)
  /-- Standard input. -/
  | input
  /-- Standard input with an error. -/
  | noInput (why : NoInput)
  | none (found : Found)
  deriving DecidableEq, Repr

/-- The invocation of a program: its name, its arguments, the file system, its standard input, and
its environment. -/
structure Call where
  name : Bytes
  args : List Bytes
  desk : Desk
  input : Bytes
  noInput : Option NoInput := none
  /-- The content of the file that standard input is redirected from. -/
  inputFile : Option Bytes := none
  drain : Drain := .taken
  /-- The file that standard output is redirected to. -/
  outFile : Option Trail := none
  /-- The other open file descriptors. -/
  channels : List (Nat × Source) := []
  settings : List (Bytes × Bytes) := []

/-- A program as a function of its invocation. -/
abbrev Program := Call → Outcome

/-- The content of `/dev/zero`, bounded. -/
def zeros : Bytes := List.replicate 1000000 (Char.ofNat 0)

namespace Call

/-- Standard input as an open file. -/
def ownInput (call : Call) : Source :=
  match call.noInput with
  | some why => .noInput why
  | none => .input

/-- Opens a file for reading. The file that standard input is redirected from is opened anew. -/
def source (call : Call) (name : Bytes) : Source :=
  match call.desk.find name with
  | .content bytes => .bytes bytes true
  | .null => .bytes [] false
  | .zeros | .full => .bytes zeros false
  | .channel 0 =>
    match call.inputFile with
    | some bytes => .bytes bytes true
    | none => if call.noInput == some .closed then .none .missing else call.ownInput
  | .channel n => (call.channels.lookup n).getD (.none .missing)
  | found => .none found

/-- Opens an operand, where `-` is standard input. -/
def operand (call : Call) (name : Bytes) : Source :=
  if name == ['-'] then call.ownInput else call.source name

/-- The environment variables of the locale, in order of precedence. -/
def languageNames : List String := ["LC_ALL", "LC_CTYPE", "LANG"]

/-- The locale by the environment. -/
def alphabet (call : Call) : Alphabet :=
  let values := languageNames.filterMap fun n =>
    (call.settings.lookup n.toList).filter fun v => !v.isEmpty
  match values.head? with
  | some ('C' :: '.' :: coding) =>
    if (coding.filter Char.isAlphanum).map Char.toLower == "utf8".toList then .unicode else .bytes
  | _ => .bytes

/-- The same invocation in the `C` locale. -/
def withBytes (call : Call) : Call :=
  { call with settings := ("LC_ALL".toList, ['C']) :: call.settings }

/-- A diagnostic, prefixed with the name of the program. -/
def message (call : Call) (text : Bytes) : Bytes := call.name ++ ':' :: ' ' :: text ++ ['\n']

/-- Exits with a diagnostic, without reading standard input. -/
def fail (call : Call) (text : Bytes) (status : Nat) : Outcome :=
  .failure (call.message text) status call.input

end Call

end GraphCodec.Formatter
