import GraphCodec.Formatter.Bytes
import GraphCodec.Formatter.Letters

/-!
# Regular expressions

Their syntax, and the texts they are matched in.
-/

set_option autoImplicit false

namespace GraphCodec.Formatter

/-- An element of a bracket expression. -/
inductive SetItem where
  | char (c : Char)
  /-- A multibyte collating symbol. -/
  | wide (c : Char)
  | range (first last : Char)
  | named (name : String)
  | word
  /-- An invalid byte, which matches nothing. -/
  | loose (b : Char)
  deriving DecidableEq, Repr

/-- A bracket expression, negated or not. -/
structure CharSet where
  negated : Bool
  items : List SetItem
  deriving DecidableEq, Repr

namespace SetItem

def contains (a : Alphabet) : SetItem → Char → Bool
  | char d, c | wide d, c => c == d
  | range first last, c => first ≤ c && c ≤ last
  | named name, c => ((Letters.class? name).map fun p => a.has p c).getD false
  | word, c => a.has Letters.isWord c
  | loose _, _ => false

end SetItem

namespace CharSet

def any : CharSet := ⟨true, []⟩

def single (c : Char) : CharSet := ⟨false, [.char c]⟩

/-- Whether a bracket expression is `.`. -/
def isAny (manyLines : Bool) (set : CharSet) : Bool :=
  set.negated && (set.items.isEmpty || (manyLines && set.items == [.char '\n']))

def contains (a : Alphabet) (set : CharSet) (c : Char) : Bool :=
  (set.items.any fun i => i.contains a c) != set.negated

end CharSet

/-- The atomic assertions about the context of an offset. -/
inductive Need where
  | wordBefore | noWordBefore | lineBefore | textBefore
  | wordAfter | noWordAfter | lineAfter | textAfter
  deriving DecidableEq, Repr

namespace Need

/-- Whether the assertion is about the preceding context. -/
def looksBack : Need → Bool
  | wordBefore | noWordBefore | lineBefore | textBefore => true
  | _ => false

end Need

/-- The anchors and word-boundary operators. -/
inductive Edge where
  | lineStart | lineEnd | textStart | textEnd | wordStart | wordEnd | inWord | outOfWord
  deriving DecidableEq, Repr

namespace Edge

/-- The assertions of an anchor. -/
def needs : Edge → List Need
  | lineStart => [.lineBefore]
  | lineEnd => [.lineAfter]
  | textStart => [.textBefore]
  | textEnd => [.textAfter]
  | wordStart => [.noWordBefore, .wordAfter]
  | wordEnd => [.wordBefore, .noWordAfter]
  | inWord => [.wordBefore, .wordAfter]
  | outOfWord => [.noWordBefore, .noWordAfter]

end Edge

/-- A regular expression. `empty` is an empty alternative, group or expression. -/
inductive Pattern where
  | empty
  | one (set : CharSet)
  /-- A byte that is not a character by itself. -/
  | byte (b : Char)
  | seq (first second : Pattern)
  | alt (first second : Pattern)
  | rep (body : Pattern) (least : Nat) (most : Option Nat)
  | group (number : Nat) (body : Pattern)
  /-- A back-reference. -/
  | same (number : Nat)
  | edge (kind : Edge)
  deriving DecidableEq, Repr

/-- The flags of matching. -/
structure PatternFlags where
  anyCase : Bool
  /-- Whether anchors match at line boundaries. -/
  manyLines : Bool
  deriving DecidableEq, Repr

/-! ## Texts -/

/-- A subject string: its bytes, and at each offset the character that starts there, with its size.
Without regard to case, letters are folded to upper case. -/
structure Subject where
  alphabet : Alphabet
  bytes : Array Char
  chars : Array (Option (Char × Nat))
  /-- The line separator. -/
  lineEnd : Char
  /-- The last byte, if case folding makes the last character shorter. A word ends before it. -/
  leftOver : Option Nat

namespace Subject

/-- Decodes the characters at each offset. -/
def starts (a : Alphabet) (fold : Char → Char) : Bytes → List (Option (Char × Nat))
  | [] => []
  | c :: cs =>
    (match a with
      | .unicode => (Bytes.character? (c :: cs)).map fun (d, size) => (fold d, size)
      | .bytes => some (fold c, 1)) :: starts a fold cs

/-- Whether case folding makes the last character shorter. -/
def endsShorter (a : Alphabet) (fold : Char → Char) (text : Bytes) : Bool :=
  a == .unicode && [2, 3, 4].any fun n =>
    match Bytes.character? (text.drop (text.length - n)) with
    | some (c, size) => size == n && n ≤ text.length && (fold c).utf8Size < c.utf8Size
    | none => false

/-- A subject string under a case folding. -/
def ofBytes (a : Alphabet) (fold : Char → Char) (text : Bytes) : Subject :=
  ⟨a, text.toArray, (starts a fold text).toArray, '\n',
    if endsShorter a fold text then some (text.length - 1) else none⟩

/-- A substring as a subject. -/
def part (s : Subject) (start stop : Nat) : Subject :=
  { s with
    bytes := s.bytes.extract start stop
    chars := s.chars.extract start stop
    leftOver := (s.leftOver.filter fun n => n < stop).map (· - start) }

def size (s : Subject) : Nat := s.bytes.size

/-- The character at an offset. -/
def char? (s : Subject) (place : Nat) : Option (Char × Nat) := s.chars.getD place none

/-- The bytes between two offsets. -/
def slice (s : Subject) (start stop : Nat) : Bytes := (s.bytes.extract start stop).toList

/-- The character or byte at an offset, for comparing substrings. -/
def sign (s : Subject) (place : Nat) : Option Char :=
  match s.char? place with
  | some (c, _) => some c
  | none => s.bytes[place]?

/-- Whether the substrings of a length at two offsets are equal. -/
def isSame (s : Subject) (a b length : Nat) : Bool :=
  b + length ≤ s.size && (List.range length).all fun k => s.sign (a + k) == s.sign (b + k)

/-- Whether a word constituent starts at an offset. -/
def wordAt (s : Subject) (place : Nat) : Bool :=
  match s.char? place with
  | some (c, _) => SetItem.word.contains s.alphabet c
  | none => false

/-- Whether a word constituent ends at an offset. -/
def wordBefore (s : Subject) (place : Nat) : Bool :=
  s.leftOver == some place || [1, 2, 3, 4].any fun n => n ≤ place &&
    match s.char? (place - n) with
    | some (c, size) => size == n && SetItem.word.contains s.alphabet c
    | none => false

/-- Whether an offset is inside a multibyte character. -/
def isInside (s : Subject) (place : Nat) : Bool :=
  s.leftOver != some place && [1, 2, 3].any fun n => n ≤ place &&
    match s.char? (place - n) with
    | some (_, size) => n < size
    | none => false

/-- Whether an assertion holds at an offset. -/
def meets (s : Subject) (manyLines : Bool) (place : Nat) : Need → Bool
  | .wordBefore => s.wordBefore place
  | .noWordBefore => !s.wordBefore place
  | .lineBefore => place == 0 || (manyLines && s.bytes[place - 1]? == some s.lineEnd)
  | .textBefore => place == 0
  | .wordAfter => s.wordAt place
  | .noWordAfter => !s.wordAt place
  | .lineAfter => place == s.size || (manyLines && s.bytes[place]? == some s.lineEnd)
  | .textAfter => place == s.size

end Subject

/-- A match: its offsets and those of its capture groups. -/
structure Match where
  start : Nat
  stop : Nat
  groups : List (Nat × Nat × Nat)
  deriving DecidableEq, Repr

end GraphCodec.Formatter
