/-!
# Bytes

A byte is the character with its code, so that ASCII bytes are written as character literals. A
character beyond ASCII is encoded in UTF-8.
-/

set_option autoImplicit false

namespace GraphCodec.Formatter

/-- A byte string; each byte is the character of its value. -/
abbrev Bytes := List Char

namespace Bytes

def ofByteArray (bytes : ByteArray) : Bytes := bytes.toList.map fun b => Char.ofNat b.toNat

def toByteArray (bytes : Bytes) : ByteArray := ⟨(bytes.map fun c => c.toNat.toUInt8).toArray⟩

/-- The UTF-8 encoding of a string. -/
def ofText (text : String) : Bytes := ofByteArray text.toUTF8

/-- UTF-8 decoding. -/
def toText? (bytes : Bytes) : Option String := String.fromUTF8? bytes.toByteArray

/-! ## UTF-8 -/

/-- The length of the sequence of a lead byte, and its payload bits. -/
def announced (b : Nat) : Option (Nat × Nat) :=
  if b < 0x80 then some (1, b)
  else if 0xC2 ≤ b && b < 0xE0 then some (2, b - 0xC0)
  else if 0xE0 ≤ b && b < 0xF0 then some (3, b - 0xE0)
  else if 0xF0 ≤ b && b < 0xF5 then some (4, b - 0xF0)
  else none

/-- Appends the payload bits of continuation bytes. -/
def further (bits : Nat) : Nat → Bytes → Option Nat
  | 0, _ => some bits
  | n + 1, c :: rest =>
    if 0x80 ≤ c.toNat && c.toNat < 0xC0 then further (bits * 64 + (c.toNat - 0x80)) n rest
    else none
  | _ + 1, [] => none

/-- Whether a code point of a sequence of `size` bytes is valid: not overlong, and no surrogate. -/
def isCharacter (code size : Nat) : Bool :=
  (size < 3 || (size == 3 && 0x800 ≤ code) || (size == 4 && 0x10000 ≤ code)) &&
    code.isValidChar

/-- Decodes the first character, and returns its number of bytes. -/
def character? (bytes : Bytes) : Option (Char × Nat) :=
  match bytes with
  | [] => none
  | b :: rest => do
    let (size, bits) ← announced b.toNat
    let code ← further bits (size - 1) rest
    if isCharacter code size then some (Char.ofNat code, size) else none

/-! ## Lines -/

/-- Joins lines; only the last one may be unterminated. -/
def joinLines (lines : List Bytes) (ended : Bool) : Bytes :=
  if lines.isEmpty then []
  else ['\n'].intercalate lines ++ if ended then ['\n'] else []

/-- The lexicographic order of bytes. -/
def isBefore : Bytes → Bytes → Bool
  | [], _ => true
  | _ :: _, [] => false
  | a :: as, b :: bs => a.toNat < b.toNat || (a == b && isBefore as bs)

/-- An ASCII string as bytes. -/
def words (parts : List String) : Bytes := parts.flatMap String.toList

end Bytes

end GraphCodec.Formatter
