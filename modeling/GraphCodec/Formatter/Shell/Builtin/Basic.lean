import GraphCodec.Formatter.Shell.Session

/-!
# Options and quoting of builtins
-/

set_option autoImplicit false

namespace GraphCodec.Formatter.Shell

/-- A builtin utility: from operands to an exit status and standard output. -/
abbrev Builtin := List Bytes → Act (Nat × Bytes)

namespace Builtin

open Act

/-- The names of the builtin utilities. -/
def names : List String :=
  [".", ":", "[", "alias", "bg", "break", "cd", "chdir", "command", "continue", "echo", "eval",
    "exec", "exit", "export", "false", "fg", "getopts", "hash", "jobs", "kill", "local", "printf",
    "pwd", "read", "readonly", "return", "set", "shift", "test", "times", "trap", "true", "type",
    "ulimit", "umask", "unalias", "unset", "wait"]

def isBuiltin (name : String) : Bool := names.contains name

def finished (status : Nat) : Act (Nat × Bytes) := pure (status, [])

/-- Parses short options; those of `valued` have an option-argument. -/
def options (letters valued : List Char) : Nat → List Bytes → Act (List (Char × Bytes) × List Bytes)
  | 0, args => pure ([], args)
  | bound + 1, args =>
    match args with
    | ['-', '-'] :: rest => pure ([], rest)
    | ('-' :: c :: more) :: rest =>
      if letters.contains c then do
        let left := if more.isEmpty then rest else ('-' :: more) :: rest
        let (given, others) ← options letters valued bound left
        pure ((c, []) :: given, others)
      else if valued.contains c then
        match more, rest with
        | [], [] => refuse (Bytes.words ["No arg for -"] ++ c :: Bytes.words [" option"])
        | [], value :: rest => do
          let (given, others) ← options letters valued bound rest
          pure ((c, value) :: given, others)
        | value, rest => do
          let (given, others) ← options letters valued bound rest
          pure ((c, value) :: given, others)
      else refuse (Bytes.words ["Illegal option -"] ++ [c])
    | _ => pure ([], args)

/-- Parses short options. -/
def takeOptions (letters valued : String) (args : List Bytes) :
    Act (List (Char × Bytes) × List Bytes) :=
  options letters.toList valued.toList (args.flatten.length + args.length + 1) args

/-- A value in single quotes, with single quotes in double quotes. The first argument is the
fuel. -/
def shownPieces : Nat → Bytes → Bytes
  | 0, _ => []
  | bound + 1, value =>
    let front := value.takeWhile (· != '\x27')
    let rest := value.drop front.length
    let quotes := rest.takeWhile (· == '\x27')
    let after := rest.drop quotes.length
    '\x27' :: front ++ ['\x27'] ++
      if quotes.isEmpty then []
      else '"' :: quotes ++ ['"'] ++ if after.isEmpty then [] else shownPieces bound after

/-- A value quoted for reuse by the shell. -/
def shown (value : Bytes) : Bytes := shownPieces (value.length + 1) value

end Builtin

end GraphCodec.Formatter.Shell
