import GraphCodec.Text.Printable

/-!
# String literals

Strings in quotes, as messages print names. Single quotes are used unless the string holds single
quotes and no double ones. Characters that are not printable are escaped.
-/

set_option autoImplicit false

namespace GraphCodec.Text

def hexText (width n : Nat) : String :=
  let digits := Nat.toDigits 16 n
  String.ofList (List.replicate (width - digits.length) '0' ++ digits)

/-- The hexadecimal escape of a code point: `\xhh`, `\uhhhh` or `\Uhhhhhhhh`. -/
def codeEscape (n : Nat) : String :=
  if n < 0x100 then "\\x" ++ hexText 2 n
  else if n < 0x10000 then "\\u" ++ hexText 4 n
  else "\\U" ++ hexText 8 n

/-- A character of a string literal that is delimited by `mark`. -/
def quotedChar (mark c : Char) : String :=
  if c == mark || c == '\\' then String.ofList ['\\', c]
  else if c == '\n' then "\\n"
  else if c == '\r' then "\\r"
  else if c == '\t' then "\\t"
  else if isPrintable c then c.toString
  else codeEscape c.toNat

def quote (text : String) : String :=
  let cs := text.toList
  let mark := if cs.contains '\x27' && !cs.contains '"' then '"' else '\x27'
  mark.toString ++ String.join (cs.map (quotedChar mark)) ++ mark.toString

end GraphCodec.Text
