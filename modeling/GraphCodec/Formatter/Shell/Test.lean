import GraphCodec.Formatter.Decimal
import GraphCodec.Formatter.Outcome

/-!
# The builtin `test`

The role of an operand depends on the number of operands and on its neighbors.
-/

set_option autoImplicit false

namespace GraphCodec.Formatter.Shell.Test

inductive Kind where
  | unary | binary | negation | conjunction | disjunction | opening | closing
  deriving DecidableEq, Repr

/-- The primaries and operators of `test`. -/
def kind? (text : Bytes) : Option Kind :=
  let name := String.ofList text
  if ["-r", "-w", "-x", "-e", "-f", "-d", "-c", "-b", "-p", "-u", "-g", "-k", "-s", "-t", "-z", "-n",
    "-h", "-O", "-G", "-L", "-S"].contains name then some .unary
  else if ["=", "!=", "<", ">", "-eq", "-ne", "-ge", "-gt", "-le", "-lt", "-nt", "-ot",
    "-ef"].contains name then some .binary
  else
    match name with
    | "!" => some .negation
    | "-a" => some .conjunction
    | "-o" => some .disjunction
    | "(" => some .opening
    | ")" => some .closing
    | _ => none

/-- The operands of `test`, and the position of the parser. -/
structure State where
  words : List Bytes
  place : Nat

/-- The parser monad, with diagnostics as errors. -/
abbrev Testing := StateT State (Except Bytes)

/-- The role of an operand. -/
inductive Role where
  | absent
  | operand
  | operator (kind : Kind)
  deriving DecidableEq, Repr

/-- Whether an operand that looks like a unary primary is a string: it is the last one, or precedes
a binary primary. -/
def isOperand (words : List Bytes) (place : Nat) : Bool :=
  match words[place + 1]?, words[place + 2]? with
  | none, _ => true
  | some _, none => false
  | some next, some _ => kind? next == some .binary

/-- The role of the operand at a position. -/
def role (words : List Bytes) (place : Nat) : Role :=
  match words[place]? with
  | none => .absent
  | some text =>
    match kind? text with
    | none => .operand
    | some .unary => if isOperand words place then .operand else .operator .unary
    | some .opening => if words[place + 1]?.isNone then .operand else .operator .opening
    | some kind => .operator kind

def roleAt (ahead : Nat) : Testing Role := do
  let s ← get
  pure (role s.words (s.place + ahead))

def advance (count : Nat) : Testing Unit := modify fun s => { s with place := s.place + count }

def word? : Testing (Option Bytes) := do
  let s ← get
  pure s.words[s.place]?

/-- Parses an integer operand. -/
def number (text : Bytes) : Testing Int := do
  match Digits.decimal? text with
  | some n => pure n
  | none => throw (Bytes.words ["Illegal number: "] ++ text)

/-- The file types. -/
inductive FileKind where
  | absent
  | directory
  | regular (isEmpty isRunnable : Bool)
  | device
  | pipe
  deriving DecidableEq, Repr

/-- The file system as `test` sees it: the type, the identity and the link status of a path. -/
structure Look where
  kind : Bytes → FileKind
  place : Bytes → Option Trail
  isLink : Bytes → Bool

/-- A unary file primary. All permissions are granted. -/
def file (look : Look) (operator : String) (name : Bytes) : Bool :=
  let common := ["-e", "-r", "-w", "-O", "-G"].contains operator
  match operator with
  | "-h" | "-L" => look.isLink name
  | _ =>
    match look.kind name with
    | .absent => false
    | .directory => common || ["-d", "-x", "-s"].contains operator
    | .regular isEmpty isRunnable =>
      common || operator == "-f" || (operator == "-s" && !isEmpty) ||
        (operator == "-x" && isRunnable)
    | .device => common || operator == "-c"
    | .pipe => common || operator == "-p"

def one (look : Look) (operator : String) (operand : Bytes) : Testing Bool :=
  match operator with
  | "-z" => pure operand.isEmpty
  | "-n" => pure !operand.isEmpty
  | "-t" => do
    let _ ← number operand
    pure false
  | _ => pure (file look operator operand)

def two (look : Look) (operator : String) (a b : Bytes) : Testing Bool := do
  let compare (f : Int → Int → Bool) : Testing Bool := do
    let m ← number a
    let n ← number b
    pure (f m n)
  match operator with
  | "=" => pure (a == b)
  | "!=" => pure (a != b)
  | "<" => pure !(Bytes.isBefore b a)
  | ">" => pure !(Bytes.isBefore a b)
  | "-eq" => compare (· == ·)
  | "-ne" => compare (· != ·)
  | "-ge" => compare fun m n => n ≤ m
  | "-gt" => compare fun m n => n < m
  | "-le" => compare fun m n => m ≤ n
  | "-lt" => compare fun m n => m < n
  | "-nt" => pure (file look "-e" a && !file look "-e" b)
  | "-ot" => pure (!file look "-e" a && file look "-e" b)
  | _ => pure (file look "-e" a && file look "-e" b && look.place a == look.place b)

section

variable (look : Look)

mutual

/-- Parses and evaluates a disjunction, given the role of its first operand. -/
def anyOf : Nat → Role → Testing Bool
  | 0, _ => throw []
  | fuel + 1, r => do
    let a ← allOf fuel r
    if (← roleAt 1) == .operator .disjunction then
      advance 2
      let b ← anyOf fuel (← roleAt 0)
      pure (a || b)
    else pure a

def allOf : Nat → Role → Testing Bool
  | 0, _ => throw []
  | fuel + 1, r => do
    let a ← negated fuel r
    if (← roleAt 1) == .operator .conjunction then
      advance 2
      let b ← allOf fuel (← roleAt 0)
      pure (a && b)
    else pure a

def negated : Nat → Role → Testing Bool
  | 0, _ => throw []
  | fuel + 1, r => do
    if r == .operator .negation then
      let next ← roleAt 1
      if next != .absent then advance 1
      pure !(← negated fuel next)
    else primary fuel r

def primary : Nat → Role → Testing Bool
  | 0, _ => throw []
  | fuel + 1, r => do
    match r with
    | .absent => pure false
    | .operator .opening =>
      advance 1
      let next ← roleAt 0
      if next == .operator .closing then pure false
      else
        let a ← anyOf fuel next
        advance 1
        if (← roleAt 0) == .operator .closing then pure a
        else throw (Bytes.words ["closing paren expected"])
    | .operator .unary =>
      let operator := (← word?).getD []
      advance 1
      match ← word? with
      | none => throw (operator ++ Bytes.words [": argument expected"])
      | some operand => one look (String.ofList operator) operand
    | _ =>
      let a := (← word?).getD []
      if (← roleAt 1) == .operator .binary then
        advance 1
        let operator := (← word?).getD []
        advance 1
        match ← word? with
        | none => throw (operator ++ Bytes.words [": argument expected"])
        | some b => two look (String.ofList operator) a b
      else pure !a.isEmpty

end

/-- Evaluates an expression of all operands. -/
def whole (first : Option Role) (words : List Bytes) : Except Bytes Bool := do
  let (b, s) ← (anyOf look (4 * words.length + 8) (first.getD (role words 0))).run ⟨words, 0⟩
  match words[s.place]?, words[s.place + 1]? with
  | some a, some _ =>
    throw ((if a.isEmpty then a else a ++ [':', ' ']) ++ Bytes.words ["unexpected operator"])
  | _, _ => pure b

/-- Evaluates `test` by its number of operands: three with a binary primary in the middle; of three
or four, a leading `!` or parentheses. The first argument is the fuel. -/
def evaluate : Nat → List Bytes → Except Bytes Bool
  | 0, _ => pure false
  | bound + 1, words =>
    if words.isEmpty then pure false
    else if words.length = 3 && (words[1]?.bind kind?) == some .binary then
      whole look (some .operand) words
    else if words.length = 3 || words.length = 4 then
      if words.head? == some ['('] && words.getLast? == some [')'] then
        whole look none words.tail.dropLast
      else if words.head? == some ['!'] then do
        pure !(← evaluate bound words.tail)
      else whole look none words
    else whole look none words

end

end GraphCodec.Formatter.Shell.Test
