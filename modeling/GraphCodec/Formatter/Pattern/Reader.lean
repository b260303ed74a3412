import GraphCodec.Formatter.Pattern.Basic

/-!
# Parsing regular expressions

Basic and extended regular expressions differ in the characters that need a backslash to be
special.
-/

set_option autoImplicit false

namespace GraphCodec.Formatter

/-- The errors of `regcomp`. -/
inductive PatternError where
  | badPattern | badCollation | badClass | trailingBackslash | badReference | openBracket
  | openGroup | openCount | badCount | badRange | badRepetition | tooBig | strayClose
  deriving DecidableEq, Repr

def PatternError.message : PatternError → String
  | .badPattern => "Invalid regular expression"
  | .badCollation => "Invalid collation character"
  | .badClass => "Invalid character class name"
  | .trailingBackslash => "Trailing backslash"
  | .badReference => "Invalid back reference"
  | .openBracket => "Unmatched [, [^, [:, [., or [="
  | .openGroup => "Unmatched ( or \\("
  | .openCount => "Unmatched \\\x7b"
  | .badCount => "Invalid content of \\\x7b\\\x7d"
  | .badRange => "Invalid range end"
  | .badRepetition => "Invalid preceding regular expression"
  | .tooBig => "Regular expression too big"
  | .strayClose => "Unmatched ) or \\)"

/-- Questionable constructs that compile: `[:class:]` outside a bracket expression, or an interval
with backslashes. -/
inductive PatternDoubt where
  | looseClass | looseCount
  deriving DecidableEq, Repr

def PatternDoubt.message : PatternDoubt → String
  | .looseClass => "character class syntax is [[:space:]], not [:space:]"
  | .looseCount => "invalid content of \\\x7b\\\x7d"

/-- The conformance modes: with extensions, `POSIXLY_CORRECT`, or strict. -/
inductive Rules where
  | free | careful | strict
  deriving DecidableEq, Repr

/-- The syntax of a regular expression: basic or extended, with its flags. -/
structure PatternStyle where
  extended : Bool
  flags : PatternFlags
  alphabet : Alphabet
  rules : Rules

namespace PatternStyle

/-- Case folding. -/
def fold (style : PatternStyle) (c : Char) : Char :=
  if style.flags.anyCase then style.alphabet.cased Text.upper c else c

/-- The first character. -/
def front? (style : PatternStyle) (bytes : Bytes) : Option (Char × Nat) :=
  match style.alphabet with
  | .unicode => Bytes.character? bytes
  | .bytes => bytes.head?.map fun c => (c, 1)

/-- A bracket expression without the line separator, where anchors match at lines. -/
def withinLine (style : PatternStyle) (set : CharSet) : CharSet :=
  if set.negated && style.flags.manyLines then { set with items := .char '\n' :: set.items }
  else set

end PatternStyle

namespace PatternReader

/-! ## Tokens -/

inductive Sign where
  | char (c : Char)
  | byte (b : Char)
  | set (set : CharSet)
  | bracket
  | edge (kind : Edge)
  /-- One of two anchors. -/
  | edges (first second : Edge)
  | same (number : Nat)
  | openGroup | closeGroup | either | star | plus | maybe | openCount | closeCount
  | backslash
  | done
  deriving DecidableEq

/-- The token of an escaped character. -/
def escapedSign (style : PatternStyle) (c : Char) : Sign :=
  let free (sign : Sign) : Sign := if style.rules == .strict then .char c else sign
  match c with
  | '<' => free (.edge .wordStart)
  | '>' => free (.edge .wordEnd)
  | 'b' => free (.edges .wordStart .wordEnd)
  | 'B' => free (.edges .inWord .outOfWord)
  | 'w' => free (.set ⟨false, [.word]⟩)
  | 'W' => free (.set ⟨true, [.word]⟩)
  | 's' => free (.set ⟨false, [.named "space"]⟩)
  | 'S' => free (.set ⟨true, [.named "space"]⟩)
  | '\x60' => free (.edge .textStart)
  | '\x27' => free (.edge .textEnd)
  | _ =>
    if '1' ≤ c && c ≤ '9' then .same (c.toNat - '0'.toNat)
    else if style.extended then .char c
    else
      match c with
      | '|' => free .either
      | '(' => .openGroup
      | ')' => .closeGroup
      | '+' => free .plus
      | '?' => free .maybe
      | '\x7b' => .openCount
      | '\x7d' => .closeCount
      | _ => .char c

/-- Whether an alternative of a basic regular expression ends here. -/
def endsBranch (style : PatternStyle) : Bytes → Bool
  | [] => true
  | '\\' :: ')' :: _ => true
  | '\\' :: '|' :: _ => style.rules ≠ .strict
  | _ => false

/-- The token of an unescaped character. `atStart` says whether `^` is an anchor here in a basic
regular expression. -/
def plainSign (style : PatternStyle) (atStart : Bool) (c : Char) (rest : Bytes) : Sign :=
  match c with
  | '*' => .star
  | '[' => .bracket
  | '.' => .set (style.withinLine .any)
  | '^' => if style.extended || atStart then .edge .lineStart else .char c
  | '$' => if style.extended || endsBranch style rest then .edge .lineEnd else .char c
  | _ =>
    if style.extended then
      match c with
      | '|' => .either
      | '(' => .openGroup
      | ')' => .closeGroup
      | '+' => .plus
      | '?' => .maybe
      | '\x7b' => .openCount
      | '\x7d' => .closeCount
      | _ => .char (style.fold c)
    else .char (style.fold c)

/-- The first token, and the rest. -/
def sign (style : PatternStyle) (atStart : Bool) (s : Bytes) : Sign × Bytes :=
  let wide (s : Bytes) : Sign × Bytes :=
    match style.front? s with
    | some (d, size) => (.char (style.fold d), s.drop size)
    | none => (.byte (s.headD ' '), s.tail)
  match s with
  | [] => (.done, [])
  | ['\\'] => (.backslash, [])
  | '\\' :: c :: rest =>
    if c.toNat < 0x80 then (escapedSign style c, rest) else wide (c :: rest)
  | c :: rest => if c.toNat < 0x80 then (plainSign style atStart c rest, rest) else wide s

/-! ## Bracket expressions -/

/-- An element of a bracket expression, before ranges are formed. -/
inductive Part where
  | char (c : Char)
  /-- A multibyte character, which has no collation weight. -/
  | wide (c : Char)
  | equal (c : Char)
  /-- An invalid byte. -/
  | loose (b : Char)
  | named (name : String)
  deriving DecidableEq

/-- Parses up to a marker and a closing bracket. -/
def untilMark (mark : Char) : Bytes → Option (Bytes × Bytes)
  | c :: rest =>
    if c == mark && rest.head? == some ']' then some ([], rest.tail)
    else (untilMark mark rest).map fun (name, after) => (c :: name, after)
  | [] => none

/-- The byte of a string of length one. -/
def onlyByte? : Bytes → Option Char
  | [c] => some c
  | _ => none

/-- Parses an element of a bracket expression. `dashAllowed` says whether a literal dash may occur
here. -/
def part (style : PatternStyle) (dashAllowed : Bool) (s : Bytes) : Except PatternError (Part × Bytes) :=
  match s with
  | [] => .error .openBracket
  | '[' :: '.' :: rest =>
    match untilMark '.' rest with
    | none => .error .openBracket
    | some (name, after) =>
      match onlyByte? name with
      | some c => .ok (.char (style.fold c), after)
      | none => .error .badCollation
  | '[' :: '=' :: rest =>
    match untilMark '=' rest with
    | none => .error .openBracket
    | some (name, after) =>
      match onlyByte? name with
      | some c => .ok (.equal (style.fold c), after)
      | none => .error .badCollation
  | '[' :: ':' :: rest =>
    match untilMark ':' rest with
    | none => .error .openBracket
    | some (name, after) =>
      let name := String.ofList name
      let name := if style.flags.anyCase && (name == "upper" || name == "lower") then "alpha" else name
      if (Letters.class? name).isSome then .ok (.named name, after) else .error .badClass
  | '-' :: rest =>
    if dashAllowed || rest.head? == some ']' then .ok (.char '-', rest) else .error .badRange
  | c :: rest =>
    match style.front? s with
    | some (d, size) =>
      let d := style.fold d
      .ok (if size = 1 then .char d else .wide d, s.drop size)
    | none => .ok (.loose c, rest)

/-- Whether a dash is a range operator here. -/
def startsRange : Bytes → Bool
  | '-' :: ']' :: _ => false
  | '-' :: _ => true
  | _ => false

def Part.item : Part → SetItem
  | char c | equal c => .char c
  | wide c => .wide c
  | loose b => .loose b
  | named name => .named name

/-- A range expression. -/
def range : Part → Part → Except PatternError SetItem
  | .char a, .char b | .char a, .loose b | .loose a, .char b | .loose a, .loose b =>
    if b < a then .error .badRange else .ok (.range a b)
  | .wide _, .char _ | .char _, .wide _ | .wide _, .wide _ | .wide _, .loose _
  | .loose _, .wide _ => .error .badCollation
  | _, _ => .error .badRange

/-- Parses the elements of a bracket expression; the number of bytes is the fuel. -/
def parts (style : PatternStyle) : Nat → Bool → Bytes → Except PatternError (List SetItem × Bytes)
  | 0, _, _ => .error .openBracket
  | bound + 1, first, s => do
    let (start, rest) ← part style first s
    let single := match start with | .char _ | .wide _ | .loose _ => true | _ => false
    let (item, rest) ←
      if single && startsRange rest then do
        if rest.length < 2 then throw .openBracket
        let (stop, after) ← part style true rest.tail
        pure (← range start stop, after)
      else pure (start.item, rest)
    match rest with
    | [] => throw .openBracket
    | ']' :: after => return ([item], after)
    | _ =>
      let (items, after) ← parts style bound false rest
      return (item :: items, after)

/-- Whether a bracket expression looks like `[:class:]`. -/
def isLoose (items : List SetItem) : Bool :=
  items.head? == some (.char ':') && items.getLast? == some (.char ':') &&
    items.any (· != .char ':') && items.all fun i =>
      match i with
      | .char _ | .wide _ => true
      | _ => false

/-- Parses a bracket expression after its opening bracket, and whether it looks like `[:class:]`. -/
def brackets (style : PatternStyle) (s : Bytes) : Except PatternError (CharSet × Bool × Bytes) := do
  let (negated, rest) := match s with
    | '^' :: rest => (true, rest)
    | _ => (false, s)
  if rest.isEmpty then throw .badPattern
  let (items, after) ← match rest with
    | ']' :: [] => throw .openBracket
    | ']' :: more =>
      if startsRange more then parts style rest.length true rest
      else if more.head? == some ']' then pure ([.char ']'], more.tail)
      else do
        let (items, after) ← parts style rest.length false more
        pure (.char ']' :: items, after)
    | _ => parts style rest.length true rest
  return (style.withinLine ⟨negated, items⟩, isLoose items, after)

/-! ## Regular expressions -/

/-- The state of the parser: the lookahead token, the rest, the opened and closed groups, and the
questionable constructs so far. -/
structure State where
  sign : Sign
  rest : Bytes
  opened : Nat
  closed : List Nat
  doubts : List PatternDoubt

namespace State

/-- Advances to the next token. -/
def next (style : PatternStyle) (atStart : Bool) (s : State) : State :=
  let (sign, rest) := PatternReader.sign style atStart s.rest
  { s with sign, rest }

end State

/-- A bound of an interval expression: missing, a number, or invalid. -/
inductive Count where
  | none
  | number (n : Nat)
  | bad
  deriving DecidableEq

/-- The limit `RE_DUP_MAX` of interval expressions. -/
def countLimit : Nat := 32767

/-- Parses a bound of an interval expression; the number of tokens is the fuel. -/
def readCount (style : PatternStyle) : Nat → Count → State → Count × State
  | 0, _, s => (.bad, s)
  | bound + 1, n, s =>
    let s := s.next style false
    match s.sign with
    | .done => (.bad, s)
    | .closeCount => (n, s)
    | .char ',' => (n, s)
    | .char c =>
      let n := if !c.isDigit then .bad else
        match n with
        | .bad => .bad
        | .none => .number (c.toNat - '0'.toNat)
        | .number k => .number (min (countLimit + 1) (k * 10 + (c.toNat - '0'.toNat)))
      readCount style bound n s
    | _ => readCount style bound .bad s

/-- Parses the bounds of an interval expression. -/
def readCounts (style : PatternStyle) (start : State) :
    Except PatternError (Nat × Option Nat × State) := do
  let bound := start.rest.length + 1
  let (least, s) := readCount style bound .none start
  let comma := s.sign == .char ','
  let fault : PatternError := if s.sign == .done then .openCount else .badCount
  let least ← match least with
    | .none => if comma then pure 0 else throw .badCount
    | .number n => pure n
    | .bad => throw fault
  let (most, s) := if comma then readCount style bound .none s else (.number least, s)
  let fault : PatternError := if s.sign == .done then .openCount else .badCount
  let most ← match most with
    | .none => pure none
    | .number n => pure (some n)
    | .bad => throw fault
  if s.sign != .closeCount then throw .badCount
  if most.any (· < least) then throw .badCount
  if countLimit < most.getD least then throw .tooBig
  let written := start.rest.take (start.rest.length - s.rest.length)
  if (written.dropLast.dropLast).contains '\\' then
    return (least, most, { s with doubts := s.doubts ++ [.looseCount] })
  return (least, most, s)

/-- Repetition of an optional operand. -/
def repeated (body : Option Pattern) (least : Nat) (most : Option Nat) : Option Pattern :=
  if most == some 0 then none
  else if least = 1 && most == some 1 then body
  else body.map fun p => .rep p least most

/-- Parses postfix operators. -/
def repetitions (style : PatternStyle) :
    Nat → Option Pattern → State → Except PatternError (Option Pattern × State)
  | 0, p, s => .ok (p, s)
  | bound + 1, p, s => do
    let found ← match s.sign with
      | .star => pure (some (0, none, s))
      | .plus => pure (some (1, none, s))
      | .maybe => pure (some (0, some 1, s))
      | .openCount => do
        let r ← readCounts style s
        pure (some r)
      | _ => pure none
    match found with
    | none => return (p, s)
    | some (least, most, s) =>
      let s := s.next style false
      if !style.extended && (s.sign == .star || s.sign == .openCount) then throw .badRepetition
      repetitions style bound (repeated p least most) s

/-- Concatenation of optional operands. -/
def join : Option Pattern → Option Pattern → Option Pattern
  | some p, some q => some (.seq p q)
  | some p, none => some p
  | none, q => q

/-- Alternation of optional operands. -/
def addBranch (p q : Option Pattern) : Pattern := .alt (p.getD .empty) (q.getD .empty)

/-- Whether an alternative ends at a token. -/
def stops (inGroup : Bool) (s : Sign) : Bool :=
  s == .either || s == .done || (inGroup && s == .closeGroup)

mutual

/-- Parses an alternation. -/
def alternatives (style : PatternStyle) : Nat → Bool → State →
    Except PatternError (Option Pattern × State)
  | 0, _, _ => .error .tooBig
  | bound + 1, inGroup, s => do
    let (p, after) ← branch style bound inGroup s
    moreAlternatives style bound inGroup s.closed p after

/-- Parses further alternatives. Back-references are to groups closed before the alternation. -/
def moreAlternatives (style : PatternStyle) : Nat → Bool → List Nat → Option Pattern → State →
    Except PatternError (Option Pattern × State)
  | 0, _, _, _, _ => .error .tooBig
  | bound + 1, inGroup, before, p, s =>
    if s.sign != .either then .ok (p, s)
    else do
      let s := s.next style true
      let (q, s) ←
        if stops inGroup s.sign then pure (none, s)
        else do
          let (q, after) ← branch style bound inGroup { s with closed := before }
          pure (q, { after with closed := after.closed ++ s.closed })
      moreAlternatives style bound inGroup before (some (addBranch p q)) s

/-- Parses one alternative. -/
def branch (style : PatternStyle) : Nat → Bool → State → Except PatternError (Option Pattern × State)
  | 0, _, _ => .error .tooBig
  | bound + 1, inGroup, s => do
    let (p, s) ← expression style bound s
    if stops inGroup s.sign then return (p, s)
    let (q, s) ← branch style bound inGroup s
    return (join p q, s)

/-- Parses an atom with its postfix operators. -/
def expression (style : PatternStyle) : Nat → State → Except PatternError (Option Pattern × State)
  | 0, _ => .error .tooBig
  | bound + 1, s => do
    let after (p : Pattern) (s : State) : Except PatternError (Option Pattern × State) :=
      let s := s.next style false
      repetitions style (s.rest.length + 2) (some p) s
    let literal (c : Char) : Except PatternError (Option Pattern × State) :=
      after (.one (.single c)) s
    match s.sign with
    | .char c => literal c
    | .byte b => after (.byte b) s
    | .set set => after (.one set) s
    | .bracket =>
      let (set, loose, rest) ← brackets style s.rest
      after (.one set)
        { s with rest, doubts := if loose then s.doubts ++ [.looseClass] else s.doubts }
    | .same n => if s.closed.contains n then after (.same n) s else throw .badReference
    | .edge kind => return (some (.edge kind), s.next style false)
    | .edges a b => return (some (.alt (.edge a) (.edge b)), s.next style false)
    | .openGroup =>
      let number := s.opened + 1
      let s := { s with opened := number }.next style true
      let (body, s) ←
        if s.sign == .closeGroup then pure (none, s) else alternatives style bound true s
      if s.sign != .closeGroup then throw .openGroup
      after (.group number (body.getD .empty)) { s with closed := number :: s.closed }
    | .closeGroup => if style.rules == .free then throw .strayClose else literal ')'
    | .openCount => throw .badRepetition
    | .star => if style.extended then throw .badRepetition else literal '*'
    | .plus => if style.extended then throw .badRepetition else literal '+'
    | .maybe => if style.extended then throw .badRepetition else literal '?'
    | .closeCount => literal '\x7d'
    | .either | .done => return (none, s)
    | .backslash => throw .trailingBackslash

end

end PatternReader

namespace Pattern

open PatternReader

/-- Parses a regular expression, and returns its number of groups and its questionable
constructs. -/
def read (style : PatternStyle) (text : Bytes) :
    Except PatternError (Pattern × Nat × List PatternDoubt) := do
  let start : State := (State.mk .done text 0 [] []).next style true
  let (p, s) ← alternatives style (4 * text.length + 8) false start
  return (p.getD .empty, s.opened, s.doubts)

end Pattern

end GraphCodec.Formatter
