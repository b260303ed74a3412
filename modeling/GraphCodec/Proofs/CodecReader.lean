import Mathlib.Control.Lawful
import Mathlib.Data.List.Forall2
import Mathlib.Data.List.TakeDrop
import GraphCodec.Document.Token
import GraphCodec.Proofs.Pieces

/-!
# Parsing codecs

A parser of `io-ts` expressions. It chooses a rule by the leading tokens. Only after `t.union([` and
`t.type(\x7b ` is there a choice: members of a union are separated by `, ` and the values of an
enum by `,`, a nullable input type starts with `t.null`, which is no codec, and an object type goes
on with a line feed.

The lemmas say what the parser does on an expression in front of any other input. An identifier is
parsed as far as possible, so the rest of the input must not continue it (`ends`). A separated list
is parsed back if its items are (`run_listed`).
-/

set_option autoImplicit false

namespace GraphCodec

/-- Whether a string is a GraphQL `Name`. -/
def Token.isName (text : String) : Bool :=
  text.toList.head?.any isNameStart && text.toList.all isNameRest

/-- The members of a nested intersection; any other codec is a single member. -/
def Codec.spread : Codec → List Codec
  | .intersection ts => ts
  | c => [c]

/-! ## The parser -/

/-- A parser of `io-ts` expressions. -/
abbrev CodecReader := StateT (List Char) Option

namespace CodecReader

variable {α : Type}

/-- Parses a fixed string. -/
def expect (t : String) : CodecReader Unit := fun s => (s.dropPrefix? t.toList).map ((), ·)

/-- Parses the longest identifier. -/
def name : CodecReader String := fun s =>
  match s.span Token.isNameRest with
  | ([], _) => none
  | (w, rest) => some (String.ofList w, rest)

def quoted : CodecReader String := do
  expect "'"
  let n ← name
  expect "'"
  return n

def literal : CodecReader String := do
  expect "t.literal('"
  let v ← name
  expect "')"
  return v

/-- Parses items, each after a separator, up to a closing string, with fuel for the repetition. -/
def rounds (sep closing : String) (item : CodecReader α) : Nat → CodecReader (List α)
  | 0 => failure
  | bound + 1 =>
    (do
      expect sep
      let a ← item
      let as ← rounds sep closing item bound
      return a :: as) <|>
    (do
      expect closing
      return [])

/-- Parses items, each after a separator, up to a closing string. -/
def further (sep closing : String) (item : CodecReader α) : CodecReader (List α) :=
  fun s => rounds sep closing item s.length s

/-- Parses a separated list of items up to a closing string. -/
def listed (sep closing : String) (item : CodecReader α) : CodecReader (List α) :=
  (do
    let a ← item
    let as ← further sep closing item
    return a :: as) <|>
  (do
    expect closing
    return [])

/-- Parses the identifier of a named codec. -/
def reference : CodecReader Codec := do
  let n ← name
  let rest ← get
  if rest.head? = some '.' ∨ rest.head? = some '(' then failure else return .scalar n

/-- The leading tokens of an expression, by which the parser chooses a rule. -/
inductive Head where
  | string | number | boolean | any | literal | array | option | union | intersection | type | pick

namespace Head

def text : Head → String
  | string => "t.string"
  | number => "t.number"
  | boolean => "t.boolean"
  | any => "t.any"
  | literal => "t.literal('"
  | array => "t.array("
  | option => "optionFromNullable("
  | union => "t.union(["
  | intersection => "t.intersection(["
  | type => "t.type(\x7b "
  | pick => "Pick("

def all : List Head :=
  [string, number, boolean, any, literal, array, option, union, intersection, type, pick]

end Head

/-- Parses the leading tokens of an expression. -/
def head : CodecReader Head := fun s =>
  Head.all.findSome? fun h => (s.dropPrefix? h.text.toList).map (h, ·)

def property (read : CodecReader Codec) : CodecReader (String × Codec) := do
  let k ← name
  expect ": "
  let c ← read
  return (k, c)

/-- Parses the rest of an expression after its leading tokens. -/
def body (read : CodecReader Codec) : Head → CodecReader Codec
  | .string => return .primitive .string
  | .number => return .primitive .int
  | .boolean => return .primitive .boolean
  | .any => return .scalar ""
  | .literal => do
    let v ← name
    expect "')"
    return .literal v
  | .array => do
    let c ← read
    expect ")"
    return .array c
  | .option => do
    let c ← read
    expect ")"
    return .option c
  | .union =>
    (do
      let cs ← listed ", " "])" read
      return .union cs) <|>
    (do
      expect "t.null, "
      let c ← read
      expect "])"
      return .option c) <|>
    (do
      let cases ← listed "," "])" literal
      return .enum "" cases)
  | .intersection => do
    let cs ← listed ", " "])" read
    return .intersection (cs.flatMap Codec.spread)
  | .type =>
    (do
      let ps ← listed ",\n" "\x7d)" (property read)
      return .object ps) <|>
    (do
      expect "\n"
      expect "__typename: "
      let n ← literal
      let ps ← further ",\n" "\n\x7d)" (property read)
      return .named n (.object ps))
  | .pick => do
    let t ← name
    expect ".props, "
    let fs ← listed "," ")" quoted
    return .pick t fs

/-- Parses an expression, with fuel for the nesting depth. -/
def read : Nat → CodecReader Codec
  | 0 => failure
  | depth + 1 => reference <|> (head >>= body (read depth))

/-! ## Single steps -/

section

variable {β : Type} {x y : CodecReader α} {f : α → CodecReader β} {a : α} {s rest : List Char}

theorem run_bind_some (h : x.run s = some (a, rest)) : (x >>= f).run s = (f a).run rest := by
  rw [StateT.run_bind, h]
  rfl

theorem run_bind_none (h : x.run s = none) : (x >>= f).run s = none := by
  rw [StateT.run_bind, h]
  rfl

theorem run_orElse_some (h : x.run s = some (a, rest)) : (x <|> y).run s = some (a, rest) := by
  rw [StateT.run_orElse, h]
  rfl

theorem run_orElse_none (h : x.run s = none) : (x <|> y).run s = y.run s := by
  rw [StateT.run_orElse, h]
  rfl

theorem run_expect (t : String) (s : List Char) :
    (expect t).run (t.toList ++ s) = some ((), s) := by
  have hDrop : (t.toList ++ s).dropPrefix? t.toList = some s :=
    List.dropPrefix?_eq_some_iff.mpr ⟨t.toList, rfl, by simp⟩
  simp [expect, StateT.run, hDrop]

/-- An identifier is parsed up to the first character that cannot continue it. -/
theorem run_name {n : String} (hn : Token.isName n = true)
    (hs : s.head?.all fun c => !Token.isNameRest c) : name.run (n.toList ++ s) = some (n, s) := by
  obtain ⟨hStart, hAll⟩ : n.toList.head?.any Token.isNameStart = true ∧
      ∀ c ∈ n.toList, Token.isNameRest c = true := by
    simpa [Token.isName] using hn
  have hTake : s.takeWhile Token.isNameRest = [] := by
    cases s with
    | nil => rfl
    | cons c s => exact List.takeWhile_cons_of_neg (by simpa using hs)
  have hDrop : s.dropWhile Token.isNameRest = s := by
    cases s with
    | nil => rfl
    | cons c s => exact List.dropWhile_cons_of_neg (by simpa using hs)
  have hSpan : (n.toList ++ s).span Token.isNameRest = (n.toList, s) := by
    rw [List.span_eq_takeWhile_dropWhile, List.takeWhile_append_of_pos hAll,
      List.dropWhile_append_of_pos hAll, hTake, hDrop, List.append_nil]
  have hNonempty : n.toList ≠ [] := by
    intro hNil
    rw [hNil] at hStart
    cases hStart
  simp only [name, StateT.run, hSpan]
  rw [String.ofList_toList]

theorem run_quoted {n : String} (hn : Token.isName n = true) (s : List Char) :
    quoted.run (("'" ++ n ++ "'").toList ++ s) = some (n, s) := by
  simp only [String.toList_append, List.append_assoc]
  rw [quoted, run_bind_some (run_expect _ _), run_bind_some (run_name hn rfl),
    run_bind_some (run_expect _ _)]
  rfl

theorem toList_literalText (v : String) (s : List Char) :
    (Codec.literalText v).toList ++ s
      = "t.literal('".toList ++ (v.toList ++ ("')".toList ++ s)) := by
  simp only [Codec.literalText, String.toList_append, List.append_assoc]

theorem run_literal {n : String} (hn : Token.isName n = true) (s : List Char) :
    literal.run ((Codec.literalText n).toList ++ s) = some (n, s) := by
  rw [toList_literalText, literal, run_bind_some (run_expect _ _), run_bind_some (run_name hn rfl),
    run_bind_some (run_expect _ _)]
  rfl

end

/-! ## Separated lists -/

/-- Whether the rest of the input cannot continue an expression. -/
def ends (s : List Char) : Bool :=
  s.head?.all fun c => !(Token.isNameRest c || c == '.' || c == '(')

/-- `r` parses `t` as `a`, in front of any input that cannot continue an expression. -/
def Takes (r : CodecReader α) (t : String) (a : α) : Prop :=
  ∀ s, ends s = true → r.run (t.toList ++ s) = some (a, s)

/-- A separator and a closing string that a separated list can be parsed by. -/
structure Punctuation (sep closing : String) : Prop where
  ends_sep : ∀ s, ends (sep.toList ++ s) = true
  ends_closing : ∀ s, ends (closing.toList ++ s) = true
  apart : ∀ s, (expect sep).run (closing.toList ++ s) = none
  sep_pos : 0 < sep.toList.length
  closing_pos : 0 < closing.toList.length

theorem punctuation_members : Punctuation ", " "])" :=
  ⟨fun _ => rfl, fun _ => rfl, fun _ => rfl, by decide, by decide⟩

theorem punctuation_cases : Punctuation "," "])" :=
  ⟨fun _ => rfl, fun _ => rfl, fun _ => rfl, by decide, by decide⟩

theorem punctuation_fields : Punctuation ",\n" "\x7d)" :=
  ⟨fun _ => rfl, fun _ => rfl, fun _ => rfl, by decide, by decide⟩

theorem punctuation_lines : Punctuation ",\n" "\n\x7d)" :=
  ⟨fun _ => rfl, fun _ => rfl, fun _ => rfl, by decide, by decide⟩

theorem punctuation_picked : Punctuation "," ")" :=
  ⟨fun _ => rfl, fun _ => rfl, fun _ => rfl, by decide, by decide⟩

/-- Strings, each after a separator. -/
def behind (sep : String) (ts : List String) : List Char :=
  ts.flatMap fun t => sep.toList ++ t.toList

theorem behind_nil (sep : String) (s : List Char) : behind sep [] ++ s = s := rfl

theorem behind_cons (sep t : String) (ts : List String) (s : List Char) :
    behind sep (t :: ts) ++ s = sep.toList ++ (t.toList ++ (behind sep ts ++ s)) := by
  simp [behind]

theorem toList_intercalate_cons (sep t : String) (ts : List String) :
    (String.intercalate sep (t :: ts)).toList = t.toList ++ behind sep ts := by
  induction ts generalizing t with
  | nil => simp [behind]
  | cons u ts ih =>
      rw [String.intercalate_cons_cons, String.toList_append, String.toList_append, ih]
      simp [behind]

section

variable {sep closing : String} {item : CodecReader α} {ts : List String} {as : List α}

theorem Punctuation.ends_behind (h : Punctuation sep closing) (ts : List String) (s : List Char) :
    ends (behind sep ts ++ (closing.toList ++ s)) = true := by
  cases ts with
  | nil => exact h.ends_closing s
  | cons t ts =>
      rw [behind_cons]
      exact h.ends_sep _

theorem Punctuation.length_lt (h : Punctuation sep closing) (ts : List String) (s : List Char) :
    ts.length < (behind sep ts ++ (closing.toList ++ s)).length := by
  have hSep := h.sep_pos
  have hClosing := h.closing_pos
  induction ts with
  | nil =>
      simp only [behind, List.flatMap_nil, List.nil_append, List.length_append, List.length_nil]
      omega
  | cons t ts ih =>
      rw [behind_cons]
      simp only [List.length_append, List.length_cons] at ih ⊢
      omega

/-- Items after separators are parsed up to the closing string. The induction is on the items, each
of which takes a unit of fuel. -/
theorem run_rounds (hp : Punctuation sep closing) (h : List.Forall₂ (Takes item) ts as)
    {bound : Nat} (hBound : ts.length < bound) (s : List Char) :
    (rounds sep closing item bound).run (behind sep ts ++ (closing.toList ++ s))
      = some (as, s) := by
  induction h generalizing bound with
  | nil =>
      obtain ⟨bound, rfl⟩ : ∃ n, bound = n + 1 := ⟨bound - 1, by omega⟩
      rw [behind_nil, rounds, run_orElse_none (run_bind_none (hp.apart s)),
        run_bind_some (run_expect _ _)]
      rfl
  | @cons t a ts as hItem hItems ih =>
      obtain ⟨bound, rfl⟩ : ∃ n, bound = n + 1 := ⟨bound - 1, by omega⟩
      have hRest := ih (Nat.lt_of_succ_lt_succ hBound)
      rw [rounds, behind_cons]
      refine run_orElse_some ?_
      rw [run_bind_some (run_expect _ _), run_bind_some (hItem _ (hp.ends_behind ts s)),
        run_bind_some hRest]
      rfl

theorem run_further (hp : Punctuation sep closing) (h : List.Forall₂ (Takes item) ts as)
    (s : List Char) :
    (further sep closing item).run (behind sep ts ++ (closing.toList ++ s)) = some (as, s) :=
  run_rounds hp h (hp.length_lt ts s) s

/-- **A separated list is parsed back** if its items are, and if the closing string starts no
item. -/
theorem run_listed (hp : Punctuation sep closing) (h : List.Forall₂ (Takes item) ts as)
    (hStop : ∀ s, item.run (closing.toList ++ s) = none) (s : List Char) :
    (listed sep closing item).run ((String.intercalate sep ts).toList ++ (closing.toList ++ s))
      = some (as, s) := by
  cases h with
  | nil =>
      rw [String.intercalate_nil, String.toList_empty, List.nil_append, listed,
        run_orElse_none (run_bind_none (hStop s)), run_bind_some (run_expect _ _)]
      rfl
  | @cons t a ts as hItem hItems =>
      rw [toList_intercalate_cons, List.append_assoc, listed]
      refine run_orElse_some ?_
      rw [run_bind_some (hItem _ (hp.ends_behind ts s)), run_bind_some (run_further hp hItems s)]
      rfl

end

/-! ## Leading tokens -/

theorem run_head (h : Head) (s : List Char) : head.run (h.text.toList ++ s) = some (h, s) := by
  simp only [head, Head.all, List.findSome?_cons, StateT.run]
  cases h <;> simp [Head.text, List.dropPrefix?]

theorem run_reference_head (h : Head) (s : List Char) :
    reference.run (h.text.toList ++ s) = none := by
  cases h <;> rfl

theorem run_reference {n : String} (hn : Token.isName n = true) {s : List Char}
    (hs : ends s = true) : reference.run (n.toList ++ s) = some (.scalar n, s) := by
  have hEnd : ∀ c ∈ s.head?, (Token.isNameRest c = false ∧ c ≠ '.') ∧ c ≠ '(' := by
    intro c hc
    simpa [ends, Option.mem_def.mp hc] using hs
  have hName : s.head?.all fun c => !Token.isNameRest c := by
    rw [Option.all_eq_true]
    intro c hc
    simp [(hEnd c hc).1.1]
  have hOn : ¬(s.head? = some '.' ∨ s.head? = some '(') := by
    rintro (h | h)
    · exact (hEnd _ h).1.2 rfl
    · exact (hEnd _ h).2 rfl
  rw [reference, run_bind_some (run_name hn hName), StateT.run_bind, StateT.run_get]
  simp only [Option.bind_eq_bind, Option.pure_def, Option.bind_some, if_neg hOn]
  rfl

theorem run_read_closing (depth : Nat) (s : List Char) :
    (read depth).run ("])".toList ++ s) = none := by
  cases depth <;> rfl

theorem run_read_null (depth : Nat) (s : List Char) :
    (read depth).run ("t.null, ".toList ++ s) = none := by
  cases depth <;> rfl

end CodecReader

end GraphCodec
