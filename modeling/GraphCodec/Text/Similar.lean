/-!
# Close matches

The similarity of two strings by their matching blocks, and the close matches of a string among
several. The matching blocks are the longest common substring, the first of that length, and the
matching blocks before and after it.
-/

set_option autoImplicit false

namespace GraphCodec.Text

def commonLength : List Char → List Char → Nat
  | a :: as, b :: bs => if a = b then commonLength as bs + 1 else 0
  | _, _ => 0

/-- A matching block: a common substring of `size` characters and its offsets in both strings. -/
structure Block where
  first : Nat
  second : Nat
  size : Nat

/-- The longer of two blocks, and the earlier of two equally long ones. -/
def Block.longer (a b : Block) : Block := if a.size < b.size then b else a

/-- The longest prefix of `as` that occurs in the string. -/
def longestAt (as : List Char) (first second : Nat) : List Char → Block
  | [] => ⟨first, second, 0⟩
  | b :: bs => Block.longer ⟨first, second, commonLength as (b :: bs)⟩
      (longestAt as first (second + 1) bs)

/-- The longest common substring of two strings, the first of several. -/
def longestBlock (first : Nat) : List Char → List Char → Block
  | [], _ => ⟨first, 0, 0⟩
  | a :: as, bs => Block.longer (longestAt (a :: as) first 0 bs) (longestBlock (first + 1) as bs)

/-- The total size of the matching blocks: the longest one, and recursively those on both sides of
it. The fuel is the length of the first string, for every block takes a character of it. -/
def agreement : Nat → List Char → List Char → Nat
  | 0, _, _ => 0
  | bound + 1, as, bs =>
    let block := longestBlock 0 as bs
    if block.size = 0 then 0
    else
      agreement bound (as.take block.first) (bs.take block.second) + block.size +
        agreement bound (as.drop (block.first + block.size)) (bs.drop (block.second + block.size))

/-- A string with its matched characters and the total length of the pair. The similarity ratio is
`2 * agreed / total`. -/
structure Likeness where
  word : String
  agreed : Nat
  total : Nat

def likeness (word other : String) : Likeness :=
  let as := other.toList
  let bs := word.toList
  ⟨other, agreement as.length as bs, as.length + bs.length⟩

/-- Whether the similarity ratio is at least the cutoff 0.6. -/
def Likeness.isClose (l : Likeness) : Bool := 3 * l.total ≤ 10 * l.agreed

/-- The order by similarity ratio, greatest first; ties go to the greater string. -/
def Likeness.precedes (a b : Likeness) : Bool :=
  b.agreed * a.total < a.agreed * b.total ||
    (b.agreed * a.total == a.agreed * b.total && b.word ≤ a.word)

/-- The close matches of a string, at most three, sorted by name. -/
def closeWords (word : String) (others : List String) : List String :=
  let close := (others.map (likeness word)).filter Likeness.isClose
  (((close.mergeSort Likeness.precedes).take 3).map (·.word)).mergeSort (· ≤ ·)

end GraphCodec.Text
