import GraphCodec.Text.Lines

/-!
# UTF-8

Decoding, and where and why it fails. A code point takes one to four bytes: the lead byte says how
many, and each continuation byte holds six bits. Overlong forms and surrogates are refused.
-/

set_option autoImplicit false

namespace GraphCodec.Text

/-- Why bytes are not UTF-8. -/
inductive DecodingReason where
  | badStart | badContinuation | cutOff
  deriving DecidableEq, Repr

def DecodingReason.words : DecodingReason → String
  | .badStart => "invalid start byte"
  | .badContinuation => "invalid continuation byte"
  | .cutOff => "unexpected end of data"

/-- The first ill-formed sequence of some bytes: its offset, its length, its first byte, and what is
wrong with it. -/
structure DecodingFault where
  place : Nat
  size : Nat
  first : Nat
  reason : DecodingReason
  deriving DecidableEq, Repr

/-- A byte in two hexadecimal digits. -/
def hexByte (n : Nat) : String :=
  let digits := Nat.toDigits 16 n
  String.ofList (List.replicate (2 - digits.length) '0' ++ digits)

def DecodingFault.message (f : DecodingFault) : String :=
  let what :=
    if f.size = 1 then "byte 0x" ++ hexByte f.first ++ " in position " ++ toString f.place
    else "bytes in position " ++ toString f.place ++ "-" ++ toString (f.place + f.size - 1)
  "'utf-8' codec can't decode " ++ what ++ ": " ++ f.reason.words

/-- The length of the sequence that a lead byte opens, and the range of its second byte: it is
narrower where overlong forms, surrogates and code points above U+10FFFF have to be kept out. -/
def announcedBytes (b : Nat) : Option (Nat × Nat × Nat) :=
  if b < 0x80 then some (1, 0, 0)
  else if b < 0xC2 then none
  else if b < 0xE0 then some (2, 0x80, 0xBF)
  else if b < 0xF0 then
    some (3, if b = 0xE0 then 0xA0 else 0x80, if b = 0xED then 0x9F else 0xBF)
  else if b < 0xF5 then
    some (4, if b = 0xF0 then 0x90 else 0x80, if b = 0xF4 then 0x8F else 0xBF)
  else none

/-- How many of the expected continuation bytes are there, and why the next one is not. The range
is that of the first of them. -/
def continuation (low high : Nat) : Nat → List Nat → Nat × Option DecodingReason
  | 0, _ => (0, none)
  | _ + 1, [] => (0, some .cutOff)
  | n + 1, b :: rest =>
    if b < low || high < b then (0, some .badContinuation)
    else
      let (count, reason) := continuation 0x80 0xBF n rest
      (count + 1, reason)

/-- The first ill-formed sequence of the bytes from an offset on, among so many code points. -/
def decodingFaultFrom (place : Nat) : Nat → List Nat → Option DecodingFault
  | 0, _ => none
  | _, [] => none
  | bound + 1, b :: rest =>
    match announcedBytes b with
    | none => some ⟨place, 1, b, .badStart⟩
    | some (size, low, high) =>
      match continuation low high (size - 1) rest with
      | (_, none) => decodingFaultFrom (place + size) bound (rest.drop (size - 1))
      | (count, some reason) => some ⟨place, count + 1, b, reason⟩

/-- The first ill-formed sequence of some bytes. -/
def decodingFault? (bytes : List Nat) : Option DecodingFault :=
  decodingFaultFrom 0 bytes.length bytes

/-- The text that UTF-8 bytes encode, with every line end as a single line feed. -/
def decode (bytes : ByteArray) : Except DecodingFault String :=
  match decodingFault? (bytes.toList.map UInt8.toNat) with
  | some fault => .error fault
  | none => .ok (String.ofList (unifyLineEnds ((String.fromUTF8? bytes).getD "").toList))

end GraphCodec.Text
