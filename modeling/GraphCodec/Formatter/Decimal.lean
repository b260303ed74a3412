import GraphCodec.Formatter.Bytes

/-!
# Numbers of `printf`

Parses integers and floating-point constants, and prints them with a width and a precision.
Floating-point numbers are rationals, rounded to the precision of an extended or a double.
-/

set_option autoImplicit false

namespace GraphCodec.Formatter

/-- The result of `strtol` and the like: the value, the rest, and whether there was a digit. -/
structure NumberReading (α : Type) where
  value : α
  rest : Bytes
  any : Bool

namespace Digits

/-- The value of a digit in base 36. -/
def value? (c : Char) : Option Nat :=
  if c.isDigit then some (c.toNat - '0'.toNat)
  else if c.isAlpha then some (c.toLower.toNat - 'a'.toNat + 10)
  else none

def isIn (base : Nat) (c : Char) : Bool := (value? c).any (· < base)

def number (base : Nat) (digits : Bytes) : Nat :=
  digits.foldl (fun n c => n * base + (value? c).getD 0) 0

def isSpace (c : Char) : Bool := c == ' ' || ('\t' ≤ c && c ≤ '\r')

/-- Parses an optional sign. -/
def sign : Bytes → Bool × Bytes
  | '-' :: cs => (true, cs)
  | '+' :: cs => (false, cs)
  | cs => (false, cs)

/-- The base of an integer constant by its prefix, and its digits. -/
def base : Bytes → Nat × Bytes
  | '0' :: x :: cs =>
    if (x == 'x' || x == 'X') && cs.head?.any (isIn 16) then (16, cs) else (8, '0' :: x :: cs)
  | ['0'] => (8, ['0'])
  | cs => (10, cs)

/-- Parses an integer constant after white space. -/
def integer (text : Bytes) : NumberReading Int :=
  let (negative, cs) := sign (text.dropWhile isSpace)
  let (b, digits) := base cs
  let used := digits.takeWhile (isIn b)
  if used.isEmpty then ⟨0, text, false⟩
  else
    let n : Int := number b used
    ⟨if negative then -n else n, digits.drop used.length, true⟩

/-- The number of 64-bit words. -/
def wordSize : Nat := 0x10000000000000000

/-- The least 64-bit integer. -/
def least : Int := -0x8000000000000000

/-- The greatest 64-bit integer. -/
def most : Int := 0x7fffffffffffffff

/-- Parses a 64-bit decimal integer between optional white space. -/
def decimal? (text : Bytes) : Option Int :=
  let (negative, digits) := sign (text.dropWhile isSpace)
  let used := digits.takeWhile Char.isDigit
  let n : Int := number 10 used
  let n := if negative then -n else n
  if used.isEmpty || !(digits.drop used.length).all isSpace || n < least || most < n then none
  else some n

/-- `atoi`: the leading decimal integer, saturated to 64 bits and truncated to 32. Zero if there is
none. -/
def leading (text : Bytes) : Int :=
  let (negative, digits) := sign (text.dropWhile isSpace)
  let n : Int := number 10 (digits.takeWhile Char.isDigit)
  Int.bmod (max least (min most (if negative then -n else n))) 0x100000000

/-- The digits of a number in a base up to sixteen. -/
def write (base : Nat) (n : Nat) : Bytes := Nat.toDigits base n

end Digits

/-- A floating-point value: a sign and a rational magnitude, an infinity, or not a number. -/
inductive Real where
  | finite (negative : Bool) (num den : Nat)
  | infinite (negative : Bool)
  | undefined (negative : Bool)
  deriving DecidableEq

/-- A binary floating-point format: its precision, its exponent range, and the bits of the leading
hexadecimal digit. -/
structure RealFormat where
  bits : Nat
  /-- Values are less than two to this power. -/
  top : Nat
  /-- Normal numbers are at least two to minus this power. -/
  bottom : Nat
  leading : Nat

/-- Double precision. -/
def RealFormat.double : RealFormat := ⟨53, 1024, 1022, 1⟩

/-- Extended precision. -/
def RealFormat.extended : RealFormat := ⟨64, 16384, 16382, 4⟩

namespace Real

/-- Division rounded to nearest, ties to even. -/
def roundDiv (num den : Nat) : Nat :=
  let q := num / den
  let r := num % den
  if 2 * r < den then q else if den < 2 * r then q + 1 else if q % 2 = 0 then q else q + 1

/-- A rational times a power of two. -/
def scaled (num den : Nat) (k : Int) : Nat × Nat :=
  if 0 ≤ k then (num * Nat.pow 2 k.toNat, den) else (num, den * Nat.pow 2 (-k).toNat)

/-- The binary exponent of a nonzero rational. -/
def binaryMagnitude (num den : Nat) : Int :=
  let guess : Int := (Nat.log2 num : Int) - Nat.log2 den
  let (n, d) := scaled num den (-guess)
  if n < d then guess - 1 else guess

/-- Rounds a rational to a floating-point value, and says whether it is out of range. -/
def ofQuotient (format : RealFormat) (negative : Bool) (num den : Nat) : Real × Bool :=
  if num = 0 || den = 0 then (.finite negative 0 1, false)
  else
    let e := binaryMagnitude num den
    let tiny := e < -(format.bottom : Int)
    -- The exponent of the last bit.
    let unit : Int := (if tiny then -(format.bottom : Int) else e) - (format.bits - 1)
    let (n, d) := scaled num den (-unit)
    let m := roundDiv n d
    let (n', d') := scaled m 1 unit
    if Nat.pow 2 format.top * d' ≤ n' then (.infinite negative, true)
    else (.finite negative n' d', tiny && n % d ≠ 0)

/-- Case-insensitive prefix test. -/
def startsWith (word : String) (text : Bytes) : Bool :=
  (text.take word.length).map Char.toLower == word.toList

/-- Parses an exponent after its marker. -/
def exponent (mark : Char) (text : Bytes) : Int × Bytes :=
  match text with
  | e :: cs =>
    if e.toLower == mark then
      let (negative, ds) := Digits.sign cs
      let used := ds.takeWhile Char.isDigit
      if used.isEmpty then (0, text)
      else
        let n : Int := min (Digits.number 10 used) 20000
        (if negative then -n else n, ds.drop used.length)
    else (0, text)
  | [] => (0, [])

/-- The digits before and after the radix point, and the rest. Without any digit there is no
point. -/
def pointedDigits (base : Nat) (cs : Bytes) : Bytes × Bytes × Bytes :=
  let whole := cs.takeWhile (Digits.isIn base)
  match cs.drop whole.length with
  | '.' :: more =>
    let part := more.takeWhile (Digits.isIn base)
    if whole.isEmpty && part.isEmpty then ([], [], cs) else (whole, part, more.drop part.length)
  | after => (whole, [], after)

/-- Drops the optional parenthesised payload of `nan`. -/
def afterUndefined (cs : Bytes) : Bytes :=
  match cs with
  | '(' :: more =>
    match more.dropWhile fun c => c.isAlphanum || c == '_' with
    | ')' :: rest => rest
    | _ => cs
  | _ => cs

/-- The result of `strtod`, and whether it is out of range. -/
structure Reading where
  value : Real
  rest : Bytes
  any : Bool
  outOfRange : Bool

/-- Parses a floating-point constant, as `strtod`. -/
def read (format : RealFormat) (text : Bytes) : Reading :=
  let (negative, cs) := Digits.sign (text.dropWhile Digits.isSpace)
  if startsWith "infinity" cs then ⟨.infinite negative, cs.drop 8, true, false⟩
  else if startsWith "inf" cs then ⟨.infinite negative, cs.drop 3, true, false⟩
  else if startsWith "nan" cs then ⟨.undefined negative, afterUndefined (cs.drop 3), true, false⟩
  else
    let hex := match cs with
      | '0' :: x :: more =>
        let (whole, part, after) := pointedDigits 16 more
        if x.toLower == 'x' && !(whole.isEmpty && part.isEmpty) then some (whole, part, after)
        else none
      | _ => none
    match hex with
    | some (whole, part, after) =>
      let (e, after) := exponent 'p' after
      let (n, d) := scaled (Digits.number 16 (whole ++ part)) 1 (e - 4 * part.length)
      let (r, outOfRange) := ofQuotient format negative n d
      ⟨r, after, true, outOfRange⟩
    | none =>
      let (whole, part, after) := pointedDigits 10 cs
      if whole.isEmpty && part.isEmpty then ⟨.finite false 0 1, text, false, false⟩
      else
        let (e, after) := exponent 'e' after
        let digits := Digits.number 10 (whole ++ part)
        let power : Int := e - part.length
        let (r, outOfRange) :=
          if 0 ≤ power then ofQuotient format negative (digits * Nat.pow 10 power.toNat) 1
          else ofQuotient format negative digits (Nat.pow 10 (-power).toNat)
        ⟨r, after, true, outOfRange⟩

/-- Inserts the radix point before the last `places` digits. -/
def pointed (digits : Bytes) (places : Nat) (keepPoint : Bool) : Bytes :=
  let padded := List.replicate (places + 1 - digits.length) '0' ++ digits
  let whole := padded.take (padded.length - places)
  if places = 0 then whole ++ (if keepPoint then ['.'] else [])
  else whole ++ '.' :: padded.drop (padded.length - places)

/-- The conversion `%f`. -/
def fixed (places : Nat) (keepPoint : Bool) (num den : Nat) : Bytes :=
  pointed (Digits.write 10 (roundDiv (num * Nat.pow 10 places) den)) places keepPoint

/-- The decimal exponent of a nonzero rational. -/
def magnitude (num den : Nat) : Int :=
  if den ≤ num then ((Digits.write 10 (num / den)).length : Int) - 1
  else
    -- The reciprocal has `k` digits, so the leading digit is at `-k` or `1 - k`.
    let k := (Digits.write 10 (den / num)).length
    if den ≤ num * Nat.pow 10 (k - 1) then 1 - (k : Int) else -(k : Int)

/-- The significand digits, one and `places` more, and the decimal exponent. -/
def scientificDigits (places num den : Nat) : Bytes × Int :=
  if num = 0 then (List.replicate (places + 1) '0', 0)
  else
    let e := magnitude num den
    let scale : Int := (places : Int) - e
    let m := if 0 ≤ scale then roundDiv (num * Nat.pow 10 scale.toNat) den
      else roundDiv num (den * Nat.pow 10 (-scale).toNat)
    let digits := Digits.write 10 m
    if digits.length = places + 2 then (digits.take (places + 1), e + 1) else (digits, e)

/-- An exponent with at least two digits. -/
def writeExponent (e : Int) : Bytes :=
  let digits := Digits.write 10 e.natAbs
  'e' :: (if e < 0 then '-' else '+') :: (List.replicate (2 - digits.length) '0' ++ digits)

def scientific (places : Nat) (keepPoint : Bool) (num den : Nat) : Bytes :=
  let (digits, e) := scientificDigits places num den
  pointed digits places keepPoint ++ writeExponent e

/-- Drops trailing zeros of a fraction, and the radix point if nothing is left. -/
def dropZeros (text : Bytes) : Bytes :=
  if text.contains '.' then
    let cut := text.reverse.dropWhile (· == '0')
    (if cut.head? == some '.' then cut.tail else cut).reverse
  else text

/-- The conversion `%g`. -/
def general (precision : Nat) (keepZeros : Bool) (num den : Nat) : Bytes :=
  let p := max precision 1
  let (digits, e) := scientificDigits (p - 1) num den
  let trim (t : Bytes) : Bytes := if keepZeros then t else dropZeros t
  if -4 ≤ e && e < p then trim (fixed ((p : Int) - 1 - e).toNat keepZeros num den)
  else trim (pointed digits (p - 1) keepZeros) ++ writeExponent e

/-- The conversion `%a`. Without a precision, as many digits as the value needs. -/
def hexadecimal (format : RealFormat) (places : Option Nat) (keepPoint : Bool) (num den : Nat) :
    Bytes :=
  -- The number of digits of a full fraction.
  let most := (format.bits - format.leading + 3) / 4
  let e := if num = 0 then (format.leading : Int) - 1
    else max (binaryMagnitude num den) (-(format.bottom : Int))
  let power := e - (format.leading - 1)
  let kept := min (places.getD most) most
  let (n, d) := scaled num den (4 * (kept : Int) - power)
  let m := roundDiv n d
  -- Rounding can carry into the integer part.
  let (m, power) := if Nat.pow 16 (kept + 1) ≤ m then (m / 16, power + 4) else (m, power)
  let digits := Digits.write 16 m
  let digits := List.replicate (kept + 1 - digits.length) '0' ++ digits
  let part := digits.drop (digits.length - kept)
  let part := match places with
    | some p => part ++ List.replicate (p - kept) '0'
    | none => (part.reverse.dropWhile (· == '0')).reverse
  let point := if part.isEmpty && !keepPoint then [] else ['.']
  '0' :: 'x' :: digits.take (digits.length - kept) ++ point ++ part ++
    'p' :: (if power < 0 then '-' else '+') :: Digits.write 10 power.natAbs

end Real

end GraphCodec.Formatter
