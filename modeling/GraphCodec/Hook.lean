import GraphCodec.Config
import GraphCodec.Files.Entry
import GraphCodec.Log
import GraphCodec.Text.Decoding
import GraphCodec.Text.Lines
import GraphCodec.Text.Words

/-!
# Post-generation hooks

Hooks change the text of a generated module before it is written: a formatter command pipes it
through an external program, and a header is put in front of it.

External programs are no part of this library. Whatever runs a hook is given them as a parameter,
a `Runner`: how the operating system answers the request to run a program in a file system, and
what the program leaves there.
-/

set_option autoImplicit false

namespace GraphCodec

/-! ## External programs -/

/-- A program that has run to its end: its return code, negative if a signal ended it, and the
bytes it has written to its standard output and standard error. -/
structure Completed where
  returnCode : Int
  stdout : ByteArray
  stderr : ByteArray

/-- Why the operating system has not started a program. -/
inductive StartFault where
  | notFound
  | notAllowed
  | notDirectory
  | other (reason : String)
  deriving DecidableEq, Repr

def StartFault.message : StartFault → String
  | .notFound => "No such file or directory"
  | .notAllowed => "Permission denied"
  | .notDirectory => "Not a directory"
  | .other reason => reason

/-- How programs run: from the file system, the name of the program, its arguments and the bytes of
its standard input to how it has ended, if it was started at all, and the file system that it
leaves. -/
abbrev Runner :=
  Entry → String → List String → ByteArray → Except StartFault Completed × Entry

/-! ## Formatters -/

/-- Why a formatter command gives no text. -/
inductive FormatError where
  /-- The command line cannot be split into words. -/
  | unreadable (fault : WordError)
  /-- The command line has no words. -/
  | noProgram
  /-- A word holds the character U+0000, which no argument of a program may. -/
  | zeroByte
  | notFound (program : String)
  /-- The program was not started, for another reason than that there is none. -/
  | notStarted (fault : StartFault)
  /-- The output of the program is not UTF-8. -/
  | notText (fault : Text.DecodingFault)
  /-- The program has ended with another return code than zero. -/
  | failed (file : String) (status : Int) (messages : String)
  deriving DecidableEq, Repr

def FormatError.message : FormatError → String
  | .unreadable fault => fault.message
  | .noProgram => "list index out of range"
  | .zeroByte => "embedded null byte"
  | .notFound program => "Formatter not found: " ++ program
  | .notStarted fault => fault.message
  | .notText fault => fault.message
  | .failed file status messages =>
    "Formatter failed for " ++ file ++ " (exit " ++ toString status ++ "): " ++ messages

namespace Completed

/-- The text that a formatter has made for a file: its standard output, if it ended well. -/
def formatted (done : Completed) (file : String) : Except FormatError String := do
  let out ← (Text.decode done.stdout).mapError .notText
  let messages ← (Text.decode done.stderr).mapError .notText
  if done.returnCode = 0 then return out
  else throw (.failed file done.returnCode (Text.strip messages))

end Completed

/-- Pipes the text of a file through a formatter command. -/
def format (programs : Runner) (top : Entry) (line file content : String) :
    Except FormatError String × Entry :=
  match splitWords line with
  | .error fault => (.error (.unreadable fault), top)
  | .ok [] => (.error .noProgram, top)
  | .ok (program :: args) =>
    if (program :: args).any Path.hasZero then (.error .zeroByte, top)
    else
      match programs top program args content.toUTF8 with
      | (.error .notFound, after) => (.error (.notFound program), after)
      | (.error fault, after) => (.error (.notStarted fault), after)
      | (.ok done, after) => (done.formatted file, after)

/-! ## Hooks -/

inductive Hook where
  /-- Puts a header in front of the text, and an empty line between them. -/
  | header (text : String)
  /-- Pipes the text through a formatter command. -/
  | command (line : String)
  /-- A hook of the caller: any function of the file's name and the text. -/
  | transform (change : String → String → String)

namespace Hook

/-- What a hook makes of the text of a file. -/
def run (programs : Runner) (top : Entry) :
    Hook → String → String → Except FormatError String × Entry
  | header text, _, content =>
    (.ok (text ++ (if text.toList.getLast? == some '\n' then "\n" else "\n\n") ++ content), top)
  | command line, file, content => format programs top line file content
  | transform change, file, content => (.ok (change file content), top)

/-- Runs hooks in order, each on what the one before has made. The first that fails ends the
run. -/
def runAll (programs : Runner) (top : Entry) :
    List Hook → String → String → Except FormatError String × Entry
  | [], _, content => (.ok content, top)
  | hook :: rest, file, content =>
    match hook.run programs top file content with
    | (.ok text, after) => runAll programs after rest file text
    | (.error e, after) => (.error e, after)

/-- The log entry of a hook: a formatter command names its program. -/
def event? (file : String) : Hook → Option Event
  | command line =>
    match splitWords line with
    | .ok (program :: _) => some (.formatting file program)
    | _ => none
  | _ => none

/-- The log entries of a run of hooks, up to the first that fails. -/
def events (programs : Runner) (top : Entry) (file content : String) : List Hook → List Event
  | [] => []
  | hook :: rest =>
    (hook.event? file).toList ++
      match hook.run programs top file content with
      | (.ok text, after) => events programs after file text rest
      | (.error _, _) => []

end Hook

/-- The hooks that a configuration asks for: the formatter before the header. Options that are
empty ask for none. -/
def Config.hooks (config : Config) : List Hook :=
  let given (text : Option String) (hook : String → Hook) : List Hook :=
    match text with
    | some s => if s = "" then [] else [hook s]
    | none => []
  given config.formatCommand .command ++ given config.header .header

end GraphCodec
