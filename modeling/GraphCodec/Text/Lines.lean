/-!
# Lines

Universal newlines, and the number of lines of a text.
-/

set_option autoImplicit false

namespace GraphCodec.Text

/-- Replaces every line end, `\r\n` or `\r`, by `\n`. -/
def unifyLineEnds : List Char → List Char
  | [] => []
  | '\r' :: '\n' :: cs => '\n' :: unifyLineEnds cs
  | '\r' :: cs => '\n' :: unifyLineEnds cs
  | c :: cs => c :: unifyLineEnds cs

/-- The code points of the Unicode line boundaries. -/
def lineBreaks : List Nat :=
  [0x0A, 0x0B, 0x0C, 0x0D, 0x1C, 0x1D, 0x1E, 0x85, 0x2028, 0x2029]

def isLineBreak (c : Char) : Bool := lineBreaks.contains c.toNat

/-- The number of lines of a text. A line break ends a line; what follows the last one is a
line of its own unless it is empty. -/
def lineCount (text : String) : Nat :=
  let cs := unifyLineEnds text.toList
  cs.countP isLineBreak + if cs.getLast?.any (fun c => !isLineBreak c) then 1 else 0

end GraphCodec.Text
