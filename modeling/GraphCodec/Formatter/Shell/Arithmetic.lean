import GraphCodec.Formatter.Decimal
import GraphCodec.Formatter.Shell.Script

/-!
# Arithmetic expansion

Expressions of 64-bit integers. Operands that are short-circuited are parsed and not evaluated.
-/

set_option autoImplicit false

namespace GraphCodec.Formatter.Shell.Arithmetic

inductive Token where
  | number (n : Int)
  | name (text : Bytes)
  | sign (text : String)
  /-- An invalid byte. -/
  | other
  deriving DecidableEq, Repr

/-- The operators, longest first. -/
def signs : List String :=
  ["<<=", ">>=", "<<", ">>", "<=", ">=", "==", "!=", "&&", "||", "+=", "-=", "*=", "/=", "%=",
    "&=", "^=", "|=", "<", ">", "=", "!", "&", "|", "+", "-", "*", "/", "%", "^", "~", "?", ":",
    "(", ")"]

/-- Saturates to 64 bits. -/
def clamp (n : Int) : Int :=
  if n < Digits.least then Digits.least else if Digits.most < n then Digits.most else n

/-- Wraps around to 64 bits. -/
def wrap (n : Int) : Int := Int.bmod n Digits.wordSize

/-- Tokenizes an expression; the number of bytes is the fuel. -/
def tokens : Nat → Bytes → List Token
  | 0, _ => []
  | _, [] => []
  | bound + 1, c :: cs =>
    if c == ' ' || c == '\t' || c == '\n' then tokens bound cs
    else if c.isDigit then
      let r := Digits.integer (c :: cs)
      .number (clamp r.value) :: tokens bound r.rest
    else if isNameStart c then
      .name (c :: cs.takeWhile isNameByte) :: tokens bound (cs.dropWhile isNameByte)
    else
      match signs.find? fun s => s.toList.isPrefixOf (c :: cs) with
      | some s => .sign s :: tokens bound ((c :: cs).drop s.length)
      | none => .other :: tokens bound cs

/-- The errors of arithmetic expansion. -/
inductive Fault where
  | expecting (what : String)
  | divisionByZero
  /-- A variable whose value is not a number. -/
  | illegalNumber (text : Bytes)
  deriving DecidableEq, Repr

/-- The diagnostic of an error. -/
def Fault.message (expression : Bytes) : Fault → Bytes
  | expecting what =>
    Bytes.words ["arithmetic expression: expecting ", what, ": \""] ++ expression ++ ['"']
  | divisionByZero =>
    Bytes.words ["arithmetic expression: division by zero: \""] ++ expression ++ ['"']
  | illegalNumber text => Bytes.words ["Illegal number: "] ++ text

/-- The remaining tokens, and the variables. -/
structure State where
  left : List Token
  value : Bytes → Option Bytes
  /-- The assigned variables, reversed. -/
  changed : List (Bytes × Int)

abbrev Evaluation := StateT State (Except Fault)

namespace Evaluation

def peek : Evaluation (Option Token) := do
  pure (← get).left.head?

def advance : Evaluation Unit := modify fun s => { s with left := s.left.tail }

/-- Consumes an operator if it is next. -/
def take? (text : String) : Evaluation Bool := do
  if (← peek) == some (.sign text) then
    advance
    pure true
  else pure false

def lookUp (name : Bytes) : Evaluation Int := do
  let s ← get
  match s.changed.lookup name with
  | some n => pure n
  | none =>
    match s.value name with
    | none => pure 0
    | some text =>
      let r := Digits.integer text
      if text.all Digits.isSpace then pure 0
      else if !r.any || !r.rest.all Digits.isSpace || clamp r.value != r.value then
        throw (.illegalNumber text)
      else pure r.value

end Evaluation

open Evaluation

/-- The precedence of a binary operator. -/
def level? : String → Option Nat
  | "*" | "/" | "%" => some 8
  | "+" | "-" => some 7
  | "<<" | ">>" => some 6
  | "<" | "<=" | ">" | ">=" => some 5
  | "==" | "!=" => some 4
  | "&" => some 3
  | "^" => some 2
  | "|" => some 1
  | _ => none

def ofBool (b : Bool) : Int := if b then 1 else 0

/-- A bitwise operation in two's complement. -/
def bitwise (f : Nat → Nat → Nat) (a b : Int) : Int :=
  wrap (f (a % Digits.wordSize).toNat (b % Digits.wordSize).toNat)

/-- Applies a binary operator. -/
def apply (operator : String) (a b : Int) : Evaluation Int :=
  match operator with
  | "*" => pure (wrap (a * b))
  | "/" => if b = 0 then throw .divisionByZero else pure (wrap (a.tdiv b))
  | "%" => if b = 0 then throw .divisionByZero else pure (a.tmod b)
  | "+" => pure (wrap (a + b))
  | "-" => pure (wrap (a - b))
  | "<<" => pure (wrap (a * Nat.pow 2 (b % 64).toNat))
  | ">>" => pure (a.fdiv (Nat.pow 2 (b % 64).toNat))
  | "<" => pure (ofBool (a < b))
  | "<=" => pure (ofBool (a ≤ b))
  | ">" => pure (ofBool (b < a))
  | ">=" => pure (ofBool (b ≤ a))
  | "==" => pure (ofBool (a = b))
  | "!=" => pure (ofBool (a ≠ b))
  | "&" => pure (bitwise (· &&& ·) a b)
  | "^" => pure (bitwise (· ^^^ ·) a b)
  | _ => pure (bitwise (· ||| ·) a b)

/-- The binary operator of a compound assignment; empty for `=`. -/
def assignment? (text : String) : Option String :=
  if text == "=" then some ""
  else if ["<<=", ">>=", "+=", "-=", "*=", "/=", "%=", "&=", "^=", "|="].contains text then
    some (text.dropEnd 1).toString
  else none

mutual

/-- An assignment expression. With `idle` it is parsed and not evaluated. The first argument is the
fuel. -/
def assignment : Nat → Bool → Evaluation Int
  | 0, _ => throw (.expecting "primary")
  | fuel + 1, idle => do
    match (← get).left with
    | .name name :: .sign text :: _ =>
      match assignment? text with
      | some operator =>
        advance
        advance
        let b ← assignment fuel idle
        if idle then pure b
        else
          let n ← if operator == "" then pure b else do apply operator (← lookUp name) b
          modify fun s => { s with changed := (name, n) :: s.changed }
          pure n
      | none => condition fuel idle
    | _ => condition fuel idle

def condition : Nat → Bool → Evaluation Int
  | 0, _ => throw (.expecting "primary")
  | fuel + 1, idle => do
    let a ← disjunction fuel idle
    if ← take? "?" then
      let b ← assignment fuel (idle || a = 0)
      if ← take? ":" then
        let c ← condition fuel (idle || a ≠ 0)
        pure (if a ≠ 0 then b else c)
      else throw (.expecting "':'")
    else pure a

def disjunction : Nat → Bool → Evaluation Int
  | 0, _ => throw (.expecting "primary")
  | fuel + 1, idle => do
    let a ← conjunction fuel idle
    if ← take? "||" then
      let b ← disjunction fuel (idle || a ≠ 0)
      pure (ofBool (a ≠ 0 || b ≠ 0))
    else pure a

def conjunction : Nat → Bool → Evaluation Int
  | 0, _ => throw (.expecting "primary")
  | fuel + 1, idle => do
    let a ← operation fuel idle 0 (← primary fuel idle)
    if ← take? "&&" then
      let b ← conjunction fuel (idle || a = 0)
      pure (ofBool (a ≠ 0 && b ≠ 0))
    else pure a

/-- Precedence climbing from an operand. -/
def operation : Nat → Bool → Nat → Int → Evaluation Int
  | 0, _, _, _ => throw (.expecting "primary")
  | fuel + 1, idle, least, a => do
    match ← peek with
    | some (.sign text) =>
      match level? text with
      | some level =>
        if level < least then pure a
        else
          advance
          let b ← operation fuel idle (level + 1) (← primary fuel idle)
          let c ← if idle then pure b else apply text a b
          operation fuel idle least c
      | none => pure a
    | _ => pure a

def primary : Nat → Bool → Evaluation Int
  | 0, _ => throw (.expecting "primary")
  | fuel + 1, idle => do
    match ← peek with
    | some (.number n) =>
      advance
      pure n
    | some (.name name) =>
      advance
      if idle then pure 0 else lookUp name
    | some (.sign "(") =>
      advance
      let n ← assignment fuel idle
      if ← take? ")" then pure n else throw (.expecting "')'")
    | some (.sign "+") =>
      advance
      primary fuel idle
    | some (.sign "-") =>
      advance
      pure (wrap (-(← primary fuel idle)))
    | some (.sign "!") =>
      advance
      pure (ofBool ((← primary fuel idle) = 0))
    | some (.sign "~") =>
      advance
      pure (-(← primary fuel idle) - 1)
    | _ => throw (.expecting "primary")

end

/-- The value of an expression, and its assignments, reversed. -/
def evaluate (value : Bytes → Option Bytes) (expression : Bytes) :
    Except Fault (Int × List (Bytes × Int)) := do
  let left := tokens (expression.length + 1) expression
  let (n, s) ← (assignment (8 * left.length + 8) false).run ⟨left, value, []⟩
  if s.left.isEmpty then pure (n, s.changed) else throw (.expecting "EOF")

end GraphCodec.Formatter.Shell.Arithmetic
