import GraphCodec.Formatter.Bytes

/-!
# The syntax of shell scripts
-/

set_option autoImplicit false

namespace GraphCodec.Formatter.Shell

/-- The operators of parameter expansion; `empty` is the form with a colon, where null is unset. -/
inductive Change where
  | keep
  /-- String length, `${#name}`. -/
  | count
  /-- Use default values, `${name:-word}`. -/
  | orElse (empty : Bool)
  /-- Assign default values, `${name:=word}`. -/
  | orSet (empty : Bool)
  /-- Indicate error, `${name:?word}`. -/
  | orEnd (empty : Bool)
  /-- Use alternative value, `${name:+word}`. -/
  | ifSet (empty : Bool)
  /-- Remove prefix, `${name#pattern}`, or `${name##pattern}` if `longest`. -/
  | cutFront (longest : Bool)
  | cutBack (longest : Bool)
  /-- A bad substitution. -/
  | unknown
  deriving DecidableEq, Repr

/-- A part of a word. Quoted parts are not subject to field splitting. -/
inductive Part where
  /-- An unquoted literal. -/
  | plain (text : Bytes)
  /-- A quoted literal. -/
  | quoted (text : Bytes)
  | parameter (name : Bytes) (change : Change) (argument : List Part) (quoted : Bool)
  /-- A command substitution, with its line number. -/
  | output (script : Bytes) (line : Nat) (quoted : Bool)
  /-- An arithmetic expansion. -/
  | arithmetic (expression : List Part) (quoted : Bool)
  deriving Repr, Inhabited

abbrev Word := List Part

/-- The redirection operators. -/
inductive Way where
  | read
  | write
  /-- The operator `>|`. -/
  | overwrite
  | append
  | readWrite
  /-- The operators `<&` and `>&`. -/
  | same
  /-- A here-document, by number. -/
  | document (number : Nat)
  deriving DecidableEq, Repr

structure Redirect where
  channel : Nat
  way : Way
  target : Word
  deriving Repr

/-- The commands of the shell grammar, with line numbers for diagnostics. -/
inductive Command where
  | idle
  | simple (line : Nat) (settings : List (Bytes × Word)) (words : List Word)
      (redirects : List Redirect)
  | pipeline (parts : List Command)
  | negated (body : Command)
  | both (first second : Command)
  | either (first second : Command)
  | sequence (first second : Command)
  | background (body : Command)
  | subshell (line : Nat) (body : Command) (redirects : List Redirect)
  | redirected (line : Nat) (body : Command) (redirects : List Redirect)
  | choice (test body other : Command)
  /-- A `while` loop, or `until` if `whileFails`. -/
  | loop (whileFails : Bool) (test body : Command)
  | each (line : Nat) (name : Bytes) (words : List Word) (body : Command)
  | select (line : Nat) (word : Word) (arms : List (List Word × Command))
  | define (name : Bytes) (line : Nat) (body : Command)
  deriving Repr, Inhabited

/-! ## Names -/

/-- Whether a byte can start a variable name. -/
def isNameStart (c : Char) : Bool := c.isAlpha || c == '_'

def isNameByte (c : Char) : Bool := c.isAlphanum || c == '_'

def isName (name : Bytes) : Bool := name.head?.any isNameStart && name.all isNameByte

/-- Whether a byte is a positional or special parameter. -/
def isSpecial (c : Char) : Bool := c.isDigit || "@*#?-$!".toList.contains c

/-- The reserved words. -/
def keywords : List String :=
  ["!", "case", "do", "done", "elif", "else", "esac", "fi", "for", "if", "in", "then", "until",
    "while", "\x7b", "\x7d"]

/-- An assignment word. -/
def settingOf? : Word → Option (Bytes × Word)
  | .plain text :: rest =>
    let (name, value) := text.span (· != '=')
    match value with
    | _ :: value =>
      if isName name then some (name, if value.isEmpty then rest else .plain value :: rest)
      else none
    | [] => none
  | _ => none

end GraphCodec.Formatter.Shell
