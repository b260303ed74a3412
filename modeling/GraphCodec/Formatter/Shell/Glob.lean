import GraphCodec.Formatter.Bytes
import GraphCodec.Formatter.Letters

/-!
# Shell patterns

The patterns `*`, `?` and bracket expressions. Quoted bytes are literal.
-/

set_option autoImplicit false

namespace GraphCodec.Formatter.Shell

/-- Bytes with quote marks. -/
abbrev Marked := List (Char × Bool)

namespace Glob

inductive Item where
  | byte (c : Char)
  | any
  | many
  | set (except : Bool) (members : List (Char × Char)) (classes : List String)
  deriving DecidableEq, Repr

/-- Parses a class name after `[:`. -/
def className? (cs : Marked) : Option (String × Marked) :=
  let name := cs.takeWhile fun c => c.1.isAlpha
  match cs.drop name.length with
  | (':', false) :: (']', false) :: rest =>
    let name := String.ofList (name.map (·.1))
    if (Letters.class? name).isSome then some (name, rest) else none
  | _ => none

/-- Parses a bracket expression up to its closing bracket, which is literal if it comes first. The
first argument is the fuel. -/
def members : Nat → Bool → Marked → Option (List (Char × Char) × List String × Marked)
  | 0, _, _ => none
  | _, _, [] => none
  | bound + 1, first, (c, quoted) :: rest =>
    if c == ']' && !quoted && !first then some ([], [], rest)
    else
      let named := match rest with
        | (':', false) :: more => if c == '[' && !quoted then className? more else none
        | _ => none
      match named with
      | some (name, rest) => do
        let (ranges, classes, after) ← members bound false rest
        some (ranges, name :: classes, after)
      | none =>
        match rest with
        | ('-', false) :: (last, lastQuoted) :: more =>
          if last == ']' && !lastQuoted then do
            let (ranges, classes, after) ← members bound false rest
            some ((c, c) :: ranges, classes, after)
          else do
            let (ranges, classes, after) ← members bound false more
            some ((c, last) :: ranges, classes, after)
        | _ => do
          let (ranges, classes, after) ← members bound false rest
          some ((c, c) :: ranges, classes, after)

/-- Parses a shell pattern, with fuel. -/
def items : Nat → Marked → List Item
  | 0, _ => []
  | _, [] => []
  | bound + 1, (c, quoted) :: rest =>
    if quoted then .byte c :: items bound rest
    else
      match c with
      | '*' => .many :: items bound rest
      | '?' => .any :: items bound rest
      | '[' =>
        let (except, inside) := match rest with
          | ('!', false) :: more => (true, more)
          | _ => (false, rest)
        match members (inside.length + 1) true inside with
        | some (ranges, classes, after) => .set except ranges classes :: items bound after
        | none => .byte c :: items bound rest
      | '\\' =>
        match rest with
        | (d, _) :: more => .byte d :: items bound more
        | [] => [.byte c]
      | _ => .byte c :: items bound rest

/-- Parses a shell pattern. -/
def read (pattern : Marked) : List Item := items (pattern.length + 1) pattern

/-- Whether a byte matches an item. -/
def Item.fits : Item → Char → Bool
  | byte d, c => c == d
  | any, _ => true
  | many, _ => false
  | set except ranges classes, c =>
    except != (ranges.any (fun (low, high) => low ≤ c && c ≤ high) ||
      classes.any fun name => (Letters.class? name).any fun p => c.toNat < 0x80 && p c)

/-- Whether a test holds of some suffix. -/
def someEnd (test : Bytes → Bool) : Bytes → Bool
  | [] => test []
  | c :: cs => test (c :: cs) || someEnd test cs

/-- Whether bytes match a pattern. -/
def fits : List Item → Bytes → Bool
  | [], bytes => bytes.isEmpty
  | .many :: rest, bytes => someEnd (fits rest) bytes
  | item :: rest, c :: cs => item.fits c && fits rest cs
  | _ :: _, [] => false

/-- A separator of the fields of `$@` in prefix and suffix removal; not a byte. -/
def border : Char := Char.ofNat 0x100

/-- The bytes before the first separator. -/
def first (bytes : Bytes) : Bytes := bytes.takeWhile (· ≠ border)

/-- The candidate offsets of prefix or suffix removal, in order. -/
def places (fromFront : Bool) (bytes : Bytes) : List Nat :=
  if fromFront then List.range ((first bytes).length + 1)
  else (List.range (bytes.length + 1)).reverse

/-- The offset between the matched suffix and the removed one. In quotes only the first of several
fields is matched if it has pattern characters. -/
def lag (quoted : Bool) (bytes : Bytes) : Nat :=
  if quoted && (first bytes).any "!*?[]=~:/-\\".toList.contains then
    bytes.length - (first bytes).length
  else 0

/-- Prefix removal, `${name#pattern}` and `${name##pattern}`. Bytes after a separator are not
matched. -/
def cutFront (items : List Item) (longest quoted : Bool) (bytes : Bytes) : Bytes :=
  let lag := if longest then lag quoted bytes else 0
  let fitsAt (n : Nat) : Bool := lag ≤ n && fits items (first (bytes.take (n - lag)))
  match (places (!longest) bytes).find? fitsAt with
  | some n => bytes.drop n
  | none => bytes

/-- Suffix removal, `${name%pattern}` and `${name%%pattern}`. Bytes after a separator are not
matched. -/
def cutBack (items : List Item) (longest quoted : Bool) (bytes : Bytes) : Bytes :=
  let lag := if longest then 0 else lag quoted bytes
  let fitsAt (n : Nat) : Bool := lag ≤ n && fits items (first (bytes.drop (n - lag)))
  match (places longest bytes).find? fitsAt with
  | some n => bytes.take n
  | none => bytes

/-- Whether a word has pattern characters. -/
def isPattern (pattern : Marked) : Bool :=
  (read pattern).any fun item =>
    match item with
    | .byte _ => false
    | _ => true

end Glob

end GraphCodec.Formatter.Shell
