import GraphCodec.Formatter.Pattern.Search

/-!
# The syntax of `sed` scripts

A script is a list of functions with their addresses. Blocks and branches are resolved to indices.
-/

set_option autoImplicit false

namespace GraphCodec.Formatter.Edit

/-- An address. An empty regular expression is the last one used. -/
inductive Address where
  | line (number : Nat)
  | every (first step : Nat)
  | last
  | found (pattern : Option Matcher)
  /-- The address `+n`. -/
  | further (lines : Nat)
  /-- The address `~n`. -/
  | multiple (divisor : Nat)

/-- Whether an address is of the form `+n`. -/
def Address.isFurther : Address → Bool
  | further _ => true
  | _ => false

/-- The lines that a command is selected for: all, those of one address, or a range of two; negated
by `!`. -/
structure Span where
  start : Option Address
  stop : Option Address
  outside : Bool

/-- The case conversions `\U`, `\L` and `\E`. -/
inductive LetterCase where
  | asIs | upper | lower
  deriving DecidableEq, Repr

/-- A piece of a replacement: a literal and an optional back-reference, with the case conversion of
its letters and of its first one. -/
structure Piece where
  literal : Bytes
  group : Option Nat
  letters : LetterCase
  first : LetterCase
  deriving DecidableEq, Repr

/-- The command `s`. -/
structure Substitution where
  pattern : Option Matcher
  pieces : List Piece
  /-- The number flag of `s`. -/
  number : Option Nat
  global : Bool
  /-- The flag `e` of `s`. -/
  runs : Bool
  print : Bool
  file : Option Bytes

/-- The greatest back-reference of a replacement. -/
def Substitution.groups (s : Substitution) : Nat :=
  s.pieces.foldl (fun n p => max n (p.group.getD 0)) 0

inductive Action where
  /-- A `{`, with the index of its `}`. -/
  | block (stop : Nat)
  | close
  | label (name : Bytes)
  | append (text : Bytes)
  | insert (text : Bytes)
  | change (text : Bytes)
  | jump (label : Bytes)
  | jumpIfChanged (label : Bytes)
  | jumpUnlessChanged (label : Bytes)
  | delete
  | deleteLine
  | fetch
  | fetchMore
  | keep
  | keepMore
  | exchange
  | list (width : Option Int)
  /-- The function `L`, which is not implemented. -/
  | fill (width : Option Int)
  | next
  | nextMore
  | print
  | printLine
  | quit (status : Option Int)
  | quitAtOnce (status : Option Int)
  | readFile (name : Bytes)
  /-- The function `0r`: outputs a file before the first line. -/
  | readFirst (name : Bytes)
  | readLine (name : Bytes)
  | writeFile (name : Bytes)
  | writeLine (name : Bytes)
  | substitute (s : Substitution)
  | exchangeLetters (table : List (Bytes × Bytes))
  | lineNumber
  | fileName
  | clear
  /-- The function `e`; without a command the pattern space is run. -/
  | run (command : Bytes)

structure Step where
  span : Span
  action : Action

/-- A script: its commands, and its labels with their indices. -/
structure Script where
  steps : Array Step
  labels : List (Bytes × Nat)

end GraphCodec.Formatter.Edit
