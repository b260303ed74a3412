import GraphCodec.Text.Lowercase
import GraphCodec.Text.Signs

/-!
# Character classes

The POSIX character classes, and case conversion. In a single-byte locale only ASCII has classes.
-/

set_option autoImplicit false

namespace GraphCodec.Formatter

/-- The locale: UTF-8, or the single-byte `C` locale. -/
inductive Alphabet where
  | unicode
  | bytes
  deriving DecidableEq, Repr

namespace Letters

/-- The class `space` beyond ASCII. No-break spaces are not part of it. -/
def wideSpaces : List (Nat × Nat) :=
  [(0x1680, 0x1680), (0x2000, 0x2006), (0x2008, 0x200A), (0x205F, 0x205F), (0x3000, 0x3000)]

/-- The line and paragraph separators. -/
def isSeparator (c : Char) : Bool := c.toNat = 0x2028 || c.toNat = 0x2029

def isBlank (c : Char) : Bool := c == ' ' || c == '\t' || Text.isWithin wideSpaces c

def isSpace (c : Char) : Bool := isBlank c || ('\t' ≤ c && c ≤ '\r') || isSeparator c

def isControl (c : Char) : Bool := c < ' ' || ('\x7f' ≤ c && c.toNat < 0xA0) || isSeparator c

def isGraphic (c : Char) : Bool := Text.isMeaningful c && !isSpace c

def isLetter (c : Char) : Bool :=
  if c.toNat < 0x80 then c.isAlpha else isGraphic c && !Text.isSign c

/-- Whether a character is a word constituent. -/
def isWord (c : Char) : Bool := isLetter c || c.isDigit || c == '_'

def isHexDigit (c : Char) : Bool :=
  c.isDigit || ('a' ≤ c && c ≤ 'f') || ('A' ≤ c && c ≤ 'F')

/-- The character class of a name. -/
def class? : String → Option (Char → Bool)
  | "alnum" => some fun c => isLetter c || c.isDigit
  | "alpha" => some isLetter
  | "blank" => some isBlank
  | "cntrl" => some isControl
  | "digit" => some Char.isDigit
  | "graph" => some isGraphic
  | "lower" => some Text.isLower
  | "print" => some Text.isMeaningful
  | "punct" => some Text.isSign
  | "space" => some isSpace
  | "upper" => some Text.isUpper
  | "xdigit" => some isHexDigit
  | _ => none

end Letters

namespace Alphabet

/-- Membership in a class by locale: only ASCII has classes in the `C` locale. -/
def has (alphabet : Alphabet) (property : Char → Bool) (c : Char) : Bool :=
  (alphabet == .unicode || c.toNat < 0x80) && property c

/-- Case conversion by locale. -/
def cased (alphabet : Alphabet) (change : Char → Char) (c : Char) : Char :=
  if alphabet == .unicode || c.toNat < 0x80 then change c else c

end Alphabet

end GraphCodec.Formatter
