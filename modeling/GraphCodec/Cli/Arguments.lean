import GraphCodec.Text.Quoted
import GraphCodec.Text.Similar

/-!
# Command-line arguments

Options by long name, with their option-argument after an equals sign or as the next argument, or
by short name; short names without an option-argument may be clustered. A double dash ends the
options, and what follows are operands.
-/

set_option autoImplicit false

namespace GraphCodec.Cli

/-- The command-line options. -/
inductive Flag where
  | schema | documents | output | header | formatCommand | templateDir | verbose | help | version
  deriving DecidableEq, Repr

/-- The declaration of an option: its long name, its short name, and whether it has an argument. -/
structure OptionForm where
  flag : Flag
  long : String
  short : Option Char
  takesValue : Bool

/-- The options of the `generate` command, in declaration order. -/
def generateForms : List OptionForm :=
  [⟨.schema, "--schema", some 's', true⟩, ⟨.documents, "--documents", some 'd', true⟩,
    ⟨.output, "--output", some 'o', true⟩, ⟨.header, "--header", none, true⟩,
    ⟨.formatCommand, "--format-command", none, true⟩,
    ⟨.templateDir, "--template-dir", none, true⟩, ⟨.verbose, "--verbose", some 'v', false⟩,
    ⟨.help, "--help", none, false⟩]

/-- The options of the command group. -/
def groupForms : List OptionForm :=
  [⟨.version, "--version", none, false⟩, ⟨.help, "--help", none, false⟩]

/-- The validation errors of a path argument. -/
inductive PathFault where
  | missing | isFile
  deriving DecidableEq, Repr

def PathFault.message (path : String) : PathFault → String
  | .missing => "Path " ++ Text.quote path ++ " does not exist."
  | .isFile => "Directory " ++ Text.quote path ++ " is a file."

/-- The usage errors. -/
inductive UsageError where
  /-- An undeclared option, with the close matches among the declared ones. -/
  | noSuchOption (shown : String) (similar : List String)
  | noArgument (shown : String)
  | unwantedValue (shown : String)
  | missingOption (flag : Flag)
  | invalidPath (flag : Flag) (path : String) (fault : PathFault)
  | extraArguments (args : List String)
  | noSuchCommand (name : String) (similar : List String)
  | missingCommand
  deriving DecidableEq, Repr

/-- The long and short names of an option, as usage errors print them. -/
def Flag.shown (flag : Flag) : String :=
  match (generateForms ++ groupForms).find? fun f => f.flag = flag with
  | none => ""
  | some f =>
    Text.quote f.long ++
      match f.short with
      | some c => " / " ++ Text.quote (String.ofList ['-', c])
      | none => ""

/-- The suffix of an error message that suggests close matches. -/
def suggestion : List String → String
  | [] => ""
  | [name] => " Did you mean " ++ Text.quote name ++ "?"
  | names => " (Did you mean one of: " ++ String.intercalate ", " (names.map Text.quote) ++ "?)"

namespace UsageError

def message : UsageError → String
  | noSuchOption shown similar =>
    "No such option " ++ Text.quote shown ++ "." ++ suggestion similar
  | noArgument shown => "Option " ++ Text.quote shown ++ " requires an argument."
  | unwantedValue shown => "Option " ++ Text.quote shown ++ " does not take a value."
  | missingOption flag => "Missing option " ++ flag.shown ++ "."
  | invalidPath flag path fault => "Invalid value for " ++ flag.shown ++ ": " ++ fault.message path
  | extraArguments [arg] => "Got unexpected extra argument (" ++ arg ++ ")"
  | extraArguments args =>
    "Got unexpected extra arguments (" ++ String.intercalate " " args ++ ")"
  | noSuchCommand name similar =>
    "No such command " ++ Text.quote name ++ "." ++ suggestion similar
  | missingCommand => "Missing command."

/-- Whether the usage line precedes the error message. -/
def showsUsage : UsageError → Bool
  | noArgument _ | unwantedValue _ => false
  | _ => true

end UsageError

/-- An option with its option-argument. -/
abbrev Given := Flag × Option String

/-- The options of one argument, and the one whose option-argument is the next argument. -/
structure Reading where
  given : List Given
  waiting : Option (Flag × String)

/-- Parses a cluster of short options. -/
def readLetters (forms : List OptionForm) : List Char → Except UsageError Reading
  | [] => .ok ⟨[], none⟩
  | c :: cs =>
    let shown := String.ofList ['-', c]
    match forms.find? fun f => f.short = some c with
    | none => .error (.noSuchOption shown [])
    | some f =>
      if f.takesValue then
        match cs with
        | [] => .ok ⟨[], some (f.flag, shown)⟩
        | _ => .ok ⟨[(f.flag, some (String.ofList cs))], none⟩
      else do
        let r ← readLetters forms cs
        return { r with given := (f.flag, none) :: r.given }

/-- Parses a long option or a cluster of short options. -/
def readOption (forms : List OptionForm) (arg : String) : Except UsageError Reading :=
  let cs := arg.toList
  let long := String.ofList (cs.takeWhile (· ≠ '='))
  let value := match cs.dropWhile (· ≠ '=') with
    | _ :: v => some (String.ofList v)
    | [] => none
  match forms.find? fun f => f.long = long with
  | some f =>
    match f.takesValue, value with
    | true, some v => .ok ⟨[(f.flag, some v)], none⟩
    | true, none => .ok ⟨[], some (f.flag, long)⟩
    | false, some _ => .error (.unwantedValue long)
    | false, none => .ok ⟨[(f.flag, none)], none⟩
  | none =>
    if "--".toList.isPrefixOf cs then
      .error (.noSuchOption long (Text.closeWords long (forms.map (·.long))))
    else readLetters forms cs.tail

/-- The parsed command line: options in order of appearance, and operands. -/
structure Arguments where
  given : List Given
  plain : List String

/-- Parses a command line; `waiting` is an option whose option-argument comes next. If `mixed`,
options and operands may be interspersed; otherwise the first operand ends the options. -/
def readArguments (forms : List OptionForm) (mixed : Bool) (waiting : Option (Flag × String)) :
    List String → Except UsageError Arguments
  | [] =>
    match waiting with
    | some (_, shown) => .error (.noArgument shown)
    | none => .ok ⟨[], []⟩
  | arg :: rest =>
    match waiting with
    | some (flag, _) => do
      let a ← readArguments forms mixed none rest
      return { a with given := (flag, some arg) :: a.given }
    | none =>
      if arg = "--" then .ok ⟨[], rest⟩
      else if arg.toList.head? == some '-' && arg ≠ "-" then do
        let r ← readOption forms arg
        let a ← readArguments forms mixed r.waiting rest
        return { a with given := r.given ++ a.given }
      else if mixed then do
        let a ← readArguments forms mixed none rest
        return { a with plain := arg :: a.plain }
      else .ok ⟨[], arg :: rest⟩

namespace Arguments

/-- The option-arguments of a repeatable option. -/
def values (a : Arguments) (flag : Flag) : List String :=
  a.given.filterMap fun (f, v) => if f = flag then v else none

/-- The option-argument of an option; the last occurrence wins. -/
def value? (a : Arguments) (flag : Flag) : Option String := (a.values flag).getLast?

def has (a : Arguments) (flag : Flag) : Bool := a.given.any fun (f, _) => f = flag

/-- The order of validation: the given options by first occurrence, then the others in declaration
order. -/
def checkOrder (a : Arguments) : List Flag :=
  (a.given.map (·.1) ++ generateForms.map (·.flag)).eraseDups

end Arguments

end GraphCodec.Cli
