/-!
# Lexical analysis

The lexical tokens of a source text. Ignored tokens (white space, commas and comments) are dropped;
numbers and strings are checked for their syntax and their values are not kept.

Every scanner below returns the rest of the source text, and a lemma beside it says that the rest
is shorter than what it was given, which is why `Token.scan` terminates.
-/

set_option autoImplicit false

namespace GraphCodec

/-- A lexical token of GraphQL. Numbers and strings have no value here. -/
inductive Token where
  | punct (c : Char)
  | spread
  | name (text : String)
  | number
  | string
  deriving DecidableEq, Repr

namespace Token

/-! ## Character classes -/

def isNameStart (c : Char) : Bool := c.isAlpha || c == '_'

def isNameRest (c : Char) : Bool := c.isAlphanum || c == '_'

/-- White space, line terminators, commas and the byte order mark. -/
def isIgnored (c : Char) : Bool :=
  c == ' ' || c == '\t' || c == '\n' || c == '\r' || c == ',' || c == '\ufeff'

def isLineEnd (c : Char) : Bool := c == '\n' || c == '\r'

def isPunctuator (c : Char) : Bool := "!$&():=@[]\x7b|\x7d".toList.contains c

/-- The value of a hexadecimal digit. -/
def hexDigit? (c : Char) : Option Nat :=
  if c.isDigit then some (c.toNat - '0'.toNat)
  else if 'a' ≤ c && c ≤ 'f' then some (c.toNat - 'a'.toNat + 10)
  else if 'A' ≤ c && c ≤ 'F' then some (c.toNat - 'A'.toNat + 10)
  else none

/-- The number of a hexadecimal numeral. -/
def hexValue? (ds : List Char) : Option Nat :=
  ds.foldlM (fun n d => (hexDigit? d).map (n * 16 + ·)) 0

/-- Whether a code point is a Unicode scalar value. -/
def isScalar (n : Nat) : Bool := n < 0xD800 || (0xE000 ≤ n && n < 0x110000)

/-! ## Numbers -/

/-- Drops a nonempty run of digits. -/
def digits : List Char → Option (List Char)
  | [] => none
  | c :: cs => if c.isDigit then some (cs.dropWhile Char.isDigit) else none

/-- Drops an `IntegerPart`: digits without a leading zero, or a single zero. -/
def integer : List Char → Option (List Char)
  | '0' :: cs => if (cs.head?.any Char.isDigit) then none else some cs
  | cs => digits cs

/-- Drops an optional `FractionalPart`. -/
def fraction : List Char → Option (List Char)
  | '.' :: cs => digits cs
  | cs => some cs

/-- Drops an optional `ExponentPart`. -/
def exponent : List Char → Option (List Char)
  | c :: cs =>
    if c == 'e' || c == 'E' then
      match cs with
      | '+' :: ds | '-' :: ds => digits ds
      | ds => digits ds
    else some (c :: cs)
  | [] => some []

/-- Drops an `IntValue` or `FloatValue`, which may not be followed by a `.` or a `NameStart`. -/
def numeral (cs : List Char) : Option (List Char) := do
  let unsigned := match cs with
    | '-' :: ds => ds
    | ds => ds
  let rest ← (integer unsigned).bind fraction |>.bind exponent
  if rest.head?.any (fun c => c == '.' || isNameStart c) then none else some rest

/-! ## Strings -/

/-- Drops an escape sequence after its backslash. `EscapedUnicode` is one to eight hexadecimal
digits in braces or exactly four; a leading surrogate must be followed by an escaped trailing
one. -/
def escape : List Char → Option (List Char)
  | 'u' :: '\x7b' :: cs =>
    let ds := cs.takeWhile fun c => (hexDigit? c).isSome
    match cs.drop ds.length with
    | '\x7d' :: rest =>
      if 1 ≤ ds.length && ds.length ≤ 8 && (hexValue? ds).any isScalar then some rest else none
    | _ => none
  | 'u' :: a :: b :: c :: d :: cs =>
    match hexValue? [a, b, c, d] with
    | none => none
    | some n =>
      if isScalar n then some cs
      else if n < 0xDC00 then
        match cs with
        | '\\' :: 'u' :: e :: f :: g :: h :: rest =>
          if (hexValue? [e, f, g, h]).any (fun m => 0xDC00 ≤ m && m < 0xE000) then some rest
          else none
        | _ => none
      else none
  | c :: cs => if "\"\\/bfnrt".toList.contains c then some cs else none
  | [] => none

theorem length_escape {cs rest : List Char} (h : escape cs = some rest) :
    rest.length < cs.length := by
  unfold escape at h
  split at h
  · rename_i ds
    have hdrop := List.length_drop (l := ds)
      (i := (ds.takeWhile fun c => (hexDigit? c).isSome).length)
    dsimp only at h
    split at h
    · rename_i hr
      split at h
      · injection h with h
        subst h
        rw [hr] at hdrop
        simp only [List.length_cons] at hdrop ⊢
        omega
      · simp at h
    · simp at h
  · split at h
    · simp at h
    · split at h
      · injection h with h
        subst h
        simp only [List.length_cons]
        omega
      · split at h
        · split at h
          · split at h
            · injection h with h
              subst h
              simp only [List.length_cons]
              omega
            · simp at h
          · simp at h
        · simp at h
  · split at h
    · injection h with h
      subst h
      simp
    · simp at h
  · simp at h

/-- Drops a `StringValue` after its opening quote. It may not hold a line terminator. -/
def quoted : List Char → Option (List Char)
  | [] => none
  | c :: cs =>
    if c == '"' then some cs
    else if c == '\\' then
      match _h : escape cs with
      | some rest => quoted rest
      | none => none
    else if isLineEnd c then none
    else quoted cs
termination_by cs => cs.length
decreasing_by
  · have := length_escape _h
    simp only [List.length_cons]
    omega
  · simp

/-- Drops a block string after its opening quotes. -/
def block : List Char → Option (List Char)
  | [] => none
  | '"' :: '"' :: '"' :: cs => some cs
  | '\\' :: '"' :: '"' :: '"' :: cs => block cs
  | _ :: cs => block cs

/-! ## Tokens -/

/-- The token that starts with `c` and the rest of the source text, where `cs` follows `c`. -/
def next (c : Char) (cs : List Char) : Option (Token × List Char) :=
  if isPunctuator c then some (.punct c, cs)
  else if isNameStart c then
    some (.name (String.ofList (c :: cs.takeWhile isNameRest)), cs.dropWhile isNameRest)
  else if c.isDigit || c == '-' then (numeral (c :: cs)).map (.number, ·)
  else if c == '"' then
    match cs with
    | '"' :: '"' :: rest => (block rest).map (.string, ·)
    | _ => (quoted cs).map (.string, ·)
  else if c == '.' then
    match cs with
    | '.' :: '.' :: rest => some (.spread, rest)
    | _ => none
  else none

theorem length_digits {cs rest : List Char} (h : digits cs = some rest) :
    rest.length < cs.length := by
  cases cs with
  | nil => simp [digits] at h
  | cons c cs =>
    simp only [digits] at h
    split at h
    · injection h with h
      subst h
      have := (List.dropWhile_sublist Char.isDigit (l := cs)).length_le
      simp only [List.length_cons]
      omega
    · simp at h

theorem length_integer {cs rest : List Char} (h : integer cs = some rest) :
    rest.length < cs.length := by
  unfold integer at h
  split at h
  · split at h
    · simp at h
    · injection h with h
      subst h
      simp
  · exact length_digits h

theorem length_fraction {cs rest : List Char} (h : fraction cs = some rest) :
    rest.length ≤ cs.length := by
  unfold fraction at h
  split at h
  · have := length_digits h
    simp only [List.length_cons]
    omega
  · injection h with h
    exact Nat.le_of_eq (by rw [h])

theorem length_exponent {cs rest : List Char} (h : exponent cs = some rest) :
    rest.length ≤ cs.length := by
  cases cs with
  | nil => simp_all [exponent]
  | cons c cs =>
    simp only [exponent] at h
    split at h
    · split at h
      all_goals
        have := length_digits h
        simp only [List.length_cons] at this ⊢
        omega
    · injection h with h
      exact Nat.le_of_eq (by rw [h])

theorem length_numeral {cs rest : List Char} (h : numeral cs = some rest) :
    rest.length < cs.length := by
  have key : ∀ ds : List Char, ds.length ≤ cs.length →
      ((integer ds).bind fraction |>.bind exponent) = some rest → rest.length < cs.length := by
    intro ds hds hb
    obtain ⟨u, hu, he⟩ := Option.bind_eq_some_iff.mp hb
    obtain ⟨v, hv, hf⟩ := Option.bind_eq_some_iff.mp hu
    have h1 := length_integer hv
    have h2 := length_fraction hf
    have h3 := length_exponent he
    omega
  unfold numeral at h
  obtain ⟨r, hr, hc⟩ := Option.bind_eq_some_iff.mp h
  split at hc
  · simp at hc
  · injection hc with hc
    subst hc
    refine key _ ?_ hr
    split
    · simp
    · exact Nat.le_refl _

theorem length_quoted {cs rest : List Char} (h : quoted cs = some rest) :
    rest.length < cs.length := by
  fun_induction quoted cs with
  | case1 => simp at h
  | case2 c cs => injection h with h; subst h; simp
  | case3 c cs _ _ r hr ih =>
    have h1 := length_escape hr
    have h2 := ih h
    simp only [List.length_cons]
    omega
  | case4 => simp at h
  | case5 => simp at h
  | case6 c cs _ _ _ ih =>
    have := ih h
    simp only [List.length_cons]
    omega

theorem length_block {cs rest : List Char} (h : block cs = some rest) :
    rest.length < cs.length := by
  fun_induction block cs with
  | case1 => simp at h
  | case2 cs => injection h with h; subst h; simp only [List.length_cons]; omega
  | case3 cs ih => have := ih h; simp only [List.length_cons]; omega
  | case4 c cs _ _ ih => have := ih h; simp only [List.length_cons]; omega

theorem length_next {c : Char} {cs rest : List Char} {t : Token}
    (h : next c cs = some (t, rest)) : rest.length ≤ cs.length := by
  unfold next at h
  split at h
  · simp only [Option.some.injEq, Prod.mk.injEq] at h
    exact Nat.le_of_eq (by rw [h.2])
  split at h
  · simp only [Option.some.injEq, Prod.mk.injEq] at h
    rw [← h.2]
    exact (List.dropWhile_sublist isNameRest).length_le
  split at h
  · obtain ⟨r, hr, he⟩ := Option.map_eq_some_iff.mp h
    have := length_numeral hr
    simp only [Prod.mk.injEq] at he
    simp only [List.length_cons] at this
    rw [← he.2]
    omega
  split at h
  · split at h
    · obtain ⟨r, hr, he⟩ := Option.map_eq_some_iff.mp h
      have := length_block hr
      simp only [Prod.mk.injEq] at he
      rw [← he.2]
      simp only [List.length_cons]
      omega
    · obtain ⟨r, hr, he⟩ := Option.map_eq_some_iff.mp h
      have := length_quoted hr
      simp only [Prod.mk.injEq] at he
      rw [← he.2]
      omega
  split at h
  · split at h
    · simp only [Option.some.injEq, Prod.mk.injEq] at h
      rw [← h.2]
      simp only [List.length_cons]
      omega
    · simp at h
  · simp at h

/-- The token sequence of a source text, or `none` on a lexical error. -/
def scan : List Char → Option (List Token)
  | [] => some []
  | c :: cs =>
    if isIgnored c then scan cs
    else if c == '#' then scan (cs.dropWhile (fun d => !isLineEnd d))
    else
      match _h : next c cs with
      | some (t, rest) => (scan rest).map (t :: ·)
      | none => none
termination_by cs => cs.length
decreasing_by
  · simp
  · have := (List.dropWhile_sublist (fun d => !isLineEnd d) (l := cs)).length_le
    simp only [List.length_cons]
    omega
  · have := length_next _h
    simp only [List.length_cons]
    omega

end Token

end GraphCodec
