import GraphCodec.Formatter.Edit.Script

/-!
# The option `--debug` of `sed`

Prints a script in canonical form.
-/

set_option autoImplicit false

namespace GraphCodec.Formatter.Edit

/-! ## Bytes -/

/-- At least three octal digits. -/
def octal (n : Nat) : Bytes :=
  let digits := Nat.toDigits 8 n
  List.replicate (3 - digits.length) '0' ++ digits

/-- A byte in a printed regular expression or buffer. Bytes beyond ASCII are negative. -/
def shownByte (c : Char) : Bytes :=
  match c with
  | '\\' => ['\\', '\\']
  | '\x07' => ['\\', 'a']
  | '\x0c' => ['\\', 'f']
  | '\n' => ['\\', 'n']
  | '\r' => ['\\', 'r']
  | '\t' => ['\\', 't']
  | '\x0b' => ['\\', 'v']
  | _ =>
    if ' ' ≤ c && c ≤ '~' then [c]
    else '\\' :: 'o' :: octal (if c.toNat < 0x80 then c.toNat else 0xFFFFFF00 + c.toNat)

def shown (text : Bytes) : Bytes := text.flatMap shownByte

/-- A regular expression between slashes, with slashes escaped. -/
def shownSource (text : Bytes) : Bytes :=
  text.flatMap fun c => if c == '/' then ['\\', '/'] else shownByte c

/-! ## Addresses -/

def shownPattern : Option Matcher → Bytes
  | none => ['/', '/']
  | some m => '/' :: shownSource m.source ++ ['/']

/-- The flags of a regular expression. -/
def shownFlags (anyCase manyLines : Char) : Option Matcher → Bytes
  | none => []
  | some m => (if m.flags.anyCase then [anyCase] else []) ++
    if m.flags.manyLines then [manyLines] else []

/-- A printed address. -/
def Address.shown : Address → Bytes
  | line n => (toString n).toList
  | every first step => (toString first ++ "~" ++ toString step).toList
  | last => ['$']
  | found p => shownPattern p ++ shownFlags 'I' 'M' p
  | further 0 | multiple 0 => "[ADDR-NULL]".toList
  | further n => '+' :: (toString n).toList
  | multiple n => '~' :: (toString n).toList

def Span.shown (s : Span) : Bytes :=
  (s.start.map Address.shown).getD [] ++
    (match s.stop with
      | some a => ',' :: a.shown
      | none => []) ++
    (if s.outside then ['!'] else []) ++ if s.start.isSome then [' '] else []

/-! ## Functions -/

/-- The case conversion of a piece. -/
def Piece.shownCase (p : Piece) : Char :=
  match p.first, p.letters with
  | .upper, _ => 'u'
  | .lower, _ => 'l'
  | .asIs, .upper => 'U'
  | .asIs, .lower => 'L'
  | .asIs, .asIs => 'E'

/-- The printed pieces of a replacement. -/
def shownPieces : Char → List Piece → Bytes
  | _, [] => []
  | before, p :: ps =>
    let letter := p.shownCase
    (if letter == before then [] else ['\\', letter]) ++ p.literal ++
      (match p.group with
        | some 0 => ['&']
        | some n => '\\' :: (toString n).toList
        | none => []) ++ shownPieces letter ps

def Substitution.shown (s : Substitution) : Bytes :=
  's' :: shownPattern s.pattern ++ shownPieces 'E' s.pieces ++ '/' :: shownFlags 'i' 'm' s.pattern ++
    (if s.global then ['g'] else []) ++ (if s.runs then ['e'] else []) ++
    (if s.print then ['p'] else []) ++ ((s.number.map fun n => (toString n).toList).getD []) ++
    match s.file with
    | some name => 'w' :: name
    | none => []

/-- A command with an optional number. -/
def shownNumber (letter : Char) : Option Int → Bytes
  | none => [letter]
  | some n => letter :: ' ' :: (toString n).toList

/-- A command with an optional label. -/
def shownJump (letter : Char) (label : Bytes) : Bytes :=
  if label.isEmpty then [letter] else letter :: ' ' :: label

def Action.shown (alphabet : Alphabet) : Action → Bytes
  | block _ => ['\x7b']
  | close => ['\x7d']
  | label name => ':' :: name
  | append text => 'a' :: '\\' :: text
  | insert text => 'i' :: '\\' :: text
  | change text => 'c' :: '\\' :: text
  | jump l => shownJump 'b' l
  | jumpIfChanged l => shownJump 't' l
  | jumpUnlessChanged l => shownJump 'T' l
  | delete => ['d']
  | deleteLine => ['D']
  | fetch => ['g']
  | fetchMore => ['G']
  | keep => ['h']
  | keepMore => ['H']
  | exchange => ['x']
  | list width => shownNumber 'l' width
  | fill width => shownNumber 'L' width
  | next => ['n']
  | nextMore => ['N']
  | print => ['p']
  | printLine => ['P']
  | quit status => shownNumber 'q' status
  | quitAtOnce status => shownNumber 'Q' status
  | readFile name | readFirst name => 'r' :: ' ' :: name
  | readLine name => 'R' :: ' ' :: name
  | writeFile name => 'w' :: name
  | writeLine name => 'W' :: name
  | substitute s => s.shown
  | exchangeLetters table =>
    let pairs := if alphabet == .unicode then table else changedBytes table
    'y' :: '/' :: (pairs.flatMap (·.1)) ++ '/' :: (pairs.flatMap (·.2)) ++ ['/']
  | lineNumber => ['=']
  | fileName => ['F']
  | clear => ['z']
  | run command => 'e' :: ' ' :: command
where
  /-- The bytes that a `y` table changes, in order. -/
  changedBytes (table : List (Bytes × Bytes)) : List (Bytes × Bytes) :=
    (List.range 256).filterMap fun n =>
      let byte := [Char.ofNat n]
      (table.lookup byte).bind fun new => if new == byte then none else some (byte, new)

/-- The indentation of a command, and that of the next one. -/
def Action.indents (level : Int) : Action → Int × Int
  | block _ => (level, level + 1)
  | close => (level - 1, level - 1)
  | _ => (level, level)

/-- A printed command with its indentation, and the next indentation. -/
def Step.shown (alphabet : Alphabet) (level : Int) (s : Step) : Bytes × Int :=
  let (here, behind) := s.action.indents level
  (List.replicate (2 * here.toNat) ' ' ++ s.span.shown ++ s.action.shown alphabet ++ ['\n'], behind)

/-- The output of `--debug` for a script. -/
def Script.shown (alphabet : Alphabet) (script : Script) : Bytes :=
  let (text, _) := script.steps.foldl (fun ((text, level) : List Bytes × Int) step =>
    let (line, level) := step.shown alphabet level
    (line :: text, level)) ([], 1)
  Bytes.words ["SED PROGRAM:\n"] ++ text.reverse.flatten

end GraphCodec.Formatter.Edit
