/-!
# White space

The white space that is stripped from the ends of a string: the Unicode property `White_Space` and
the four information separators.
-/

set_option autoImplicit false

namespace GraphCodec.Text

/-- The code points of white space, as closed ranges. -/
def blankRanges : List (Nat × Nat) :=
  [(0x09, 0x0D), (0x1C, 0x20), (0x85, 0x85), (0xA0, 0xA0), (0x1680, 0x1680), (0x2000, 0x200A),
    (0x2028, 0x2029), (0x202F, 0x202F), (0x205F, 0x205F), (0x3000, 0x3000)]

def isBlank (c : Char) : Bool :=
  blankRanges.any fun (first, last) => first ≤ c.toNat && c.toNat ≤ last

/-- Whether a string is empty or all white space. -/
def allBlank (text : String) : Bool := text.toList.all isBlank

/-- Removes leading and trailing white space. -/
def strip (text : String) : String :=
  let front := text.toList.dropWhile isBlank
  String.ofList (front.reverse.dropWhile isBlank).reverse

end GraphCodec.Text
