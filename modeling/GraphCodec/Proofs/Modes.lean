import GraphCodec.Proofs.Arity

/-!
# The two modes differ in nullable types

Only a nullable type is printed in two ways: `optionFromNullable(…)` in output mode is one character
longer than `t.union([t.null, …])` in input mode. So the output expression is longer by the number
of printed nullable types (`longer_text`), whatever is around them, and no two differences cancel
out. The expressions are equal exactly if no nullable type is printed; those below an identifier do
not count.
-/

set_option autoImplicit false

namespace GraphCodec

/-! ## Lengths

The two texts of a codec are put together from pairs of texts, of which the first is longer by a
known number of characters. Where it is longer by none, the two are the same. -/

/-- `s` is `n` characters longer than `s'`, and equal to it if `n` is zero. -/
structure Longer (n : Nat) (s s' : String) : Prop where
  length : s.length = s'.length + n
  same : n = 0 → s = s'

/-- Lists of strings, each longer than its counterpart, by `n` characters in total. -/
inductive AllLonger : Nat → List String → List String → Prop
  | nil : AllLonger 0 [] []
  | cons {m n : Nat} {s s' : String} {ts ts' : List String} (h : Longer m s s')
      (hs : AllLonger n ts ts') : AllLonger (m + n) (s :: ts) (s' :: ts')

namespace Longer

variable {m n : Nat} {s s' t t' : String}

theorem refl (s : String) : Longer 0 s s := ⟨rfl, fun _ => rfl⟩

theorem append (h : Longer m s s') (h' : Longer n t t') : Longer (m + n) (s ++ t) (s' ++ t') := by
  refine ⟨?_, fun hNone => ?_⟩
  · rw [String.length_append, String.length_append, h.length, h'.length]
    omega
  · rw [h.same (by omega), h'.same (by omega)]

/-- Enclosing both strings in the same brackets keeps the difference. -/
theorem enclosed (opening closing : String) (h : Longer n s s') :
    Longer n (opening ++ s ++ closing) (opening ++ s' ++ closing) := by
  simpa using ((refl opening).append h).append (refl closing)

theorem ne_iff (h : Longer n s s') : s ≠ s' ↔ n ≠ 0 := by
  constructor
  · intro hne hNone
    exact hne (h.same hNone)
  · rintro hSome rfl
    have hLength := h.length
    omega

end Longer

namespace AllLonger

variable {n : Nat} {ts ts' : List String}

theorem length_eq (h : AllLonger n ts ts') : ts.length = ts'.length := by
  induction h with
  | nil => rfl
  | cons h hs ih => rw [List.length_cons, List.length_cons, ih]

theorem intercalate (sep : String) (h : AllLonger n ts ts') :
    Longer n (String.intercalate sep ts) (String.intercalate sep ts') := by
  induction h with
  | nil => exact .refl _
  | @cons m n s s' ts ts' h hs ih =>
      cases hs with
      | nil => simpa using h
      | cons h' hs' =>
          rw [String.intercalate_cons_cons, String.intercalate_cons_cons]
          simpa using (h.append (.refl sep)).append ih

/-- Splitting both lists at one index splits the difference. -/
theorem exists_split (k : Nat) (h : AllLonger n ts ts') :
    ∃ a b, AllLonger a (ts.take k) (ts'.take k) ∧ AllLonger b (ts.drop k) (ts'.drop k) ∧
      a + b = n := by
  induction h generalizing k with
  | nil => exact ⟨0, 0, by simpa using .nil, by simpa using .nil, rfl⟩
  | @cons m n s s' ts ts' h hs ih =>
      cases k with
      | zero => exact ⟨0, m + n, .nil, .cons h hs, by omega⟩
      | succ k =>
          obtain ⟨a, b, hTake, hDrop, hSum⟩ := ih k
          exact ⟨m + a, b, .cons h hTake, hDrop, by omega⟩

theorem intersectionText (h : AllLonger n ts ts') :
    Longer n (Codec.intersectionText ts) (Codec.intersectionText ts') :=
  (h.intercalate ", ").enclosed "t.intersection([" "])"

/-- Grouping both lists keeps the total difference. -/
theorem chunks {size : Nat} (hSize : 0 < size) (h : AllLonger n ts ts') :
    AllLonger n ((chunks size ts).map Codec.intersectionText)
      ((chunks size ts').map Codec.intersectionText) := by
  fun_induction GraphCodec.chunks size ts generalizing n ts' with
  | case1 ts hSome ih =>
      have hSome' : ts' ≠ [] := by
        rw [← List.length_pos_iff, ← h.length_eq, List.length_pos_iff]
        exact hSome.2
      obtain ⟨a, b, hTake, hDrop, rfl⟩ := h.exists_split size
      rw [GraphCodec.chunks.eq_def size ts', if_pos ⟨hSize, hSome'⟩]
      exact .cons hTake.intersectionText (ih hDrop)
  | case2 ts hNone =>
      obtain rfl : ts = [] := by
        by_contra hSome
        exact hNone ⟨hSize, hSome⟩
      cases h
      rw [GraphCodec.chunks, if_neg (by simp)]
      exact .nil

theorem intersectionGroups (h : AllLonger n ts ts') :
    AllLonger n ((intersectionGroups ts).map Codec.intersectionText)
      ((intersectionGroups ts').map Codec.intersectionText) := by
  unfold GraphCodec.intersectionGroups
  rw [h.length_eq]
  split_ifs
  · simpa using AllLonger.cons h.intersectionText .nil
  · exact h.chunks (by decide)
  · exact h.chunks (by decide)

theorem groupedText (h : AllLonger n ts ts') :
    Longer n (Codec.groupedText ts) (Codec.groupedText ts') := by
  rw [Codec.groupedText_eq, Codec.groupedText_eq]
  rcases Nat.lt_or_ge maxIntersection ts.length with hMany | hFew
  · rw [Layout.ofMembers_of_lt hMany, Layout.ofMembers_of_lt (h.length_eq ▸ hMany)]
    exact h.intersectionGroups.intersectionText
  · rw [Layout.ofMembers_of_le hFew, Layout.ofMembers_of_le (h.length_eq ▸ hFew)]
    exact h.intersectionText

end AllLonger

/-! ## Printed nodes -/

namespace Codec

/-- The printed nodes of an operand: none for a named codec, which is printed as its identifier. -/
def exposed (c : Codec) (nodes : List Codec) : List Codec := if c.name = "" then nodes else []

mutual

/-- **The nodes of a codec that are part of its expression**, itself first. Named codecs below it
are not, but the body of an object or union type is. -/
def shown : Codec → List Codec
  | object ps => object ps :: shownProps ps
  | input n ps => input n ps :: shownProps ps
  | query n ps => query n ps :: shownProps ps
  | mutation n ps => mutation n ps :: shownProps ps
  | union ts => union ts :: shownAll ts
  | intersection ts => intersection ts :: shownAll ts
  | named n body => named n body :: shown body
  | array c => array c :: exposed c (shown c)
  | option c => option c :: exposed c (shown c)
  | c => [c]

def shownAll : List Codec → List Codec
  | [] => []
  | c :: cs => exposed c (shown c) ++ shownAll cs

def shownProps : List (String × Codec) → List Codec
  | [] => []
  | (_, c) :: ps => exposed c (shown c) ++ shownProps ps

end

def isOption : Codec → Bool
  | option _ => true
  | _ => false

/-- The number of nullable types among nodes. -/
def optionCount (nodes : List Codec) : Nat := nodes.countP isOption

theorem optionCount_cons (c : Codec) (nodes : List Codec) :
    optionCount (c :: nodes) = optionCount nodes + if c.isOption then 1 else 0 :=
  List.countP_cons

theorem optionCount_append (as bs : List Codec) :
    optionCount (as ++ bs) = optionCount as + optionCount bs :=
  List.countP_append

theorem optionCount_ne_zero_iff {nodes : List Codec} :
    optionCount nodes ≠ 0 ↔ ∃ item, .option item ∈ nodes := by
  rw [optionCount, ← Nat.pos_iff_ne_zero, List.countP_pos_iff]
  constructor
  · rintro ⟨c, hc, hOption⟩
    cases c with
    | option item => exact ⟨item, hc⟩
    | _ => cases hOption
  · rintro ⟨item, hItem⟩
    exact ⟨_, hItem, rfl⟩

/-! ## The two expressions of a codec -/

/-- `optionFromNullable` is one character longer than the `t.union` with `t.null`. -/
theorem longer_optionText {n : Nat} {s s' : String} (h : Longer n s s') :
    Longer (n + 1) (optionText .output s) (optionText .input s') := by
  refine ⟨?_, fun hNone => absurd hNone (by omega)⟩
  change ("optionFromNullable(" ++ s ++ ")").length = ("t.union([t.null, " ++ s' ++ "])").length + _
  have hOutput : "optionFromNullable(".length = 19 := by decide
  have hInput : "t.union([t.null, ".length = 17 := by decide
  have hClosing : ")".length = 1 := by decide
  have hClosing' : "])".length = 2 := by decide
  simp only [String.length_append, h.length, hOutput, hInput, hClosing, hClosing']
  omega

theorem longer_reference (c : Codec) {nodes : List Codec} {s s' : String}
    (h : Longer (optionCount nodes) s s') :
    Longer (optionCount (exposed c nodes)) (reference c s) (reference c s') := by
  unfold exposed reference
  split_ifs with hName
  · exact h
  · exact .refl _

theorem longer_objectText {n : Nat} {ts ts' : List String} (h : AllLonger n ts ts') :
    Longer n (objectText ts) (objectText ts') :=
  (h.intercalate ",\n").enclosed "t.type(\x7b " "\x7d)"

mutual

/-- **The output expression is longer than the input expression by the number of printed nullable
types.** -/
theorem longer_text (c : Codec) :
    Longer (optionCount c.shown) (c.text .output) (c.text .input) := by
  cases c with
  | object ps => exact longer_objectText (longer_propTexts ps)
  | input n ps => exact longer_objectText (longer_propTexts ps)
  | query n ps => exact longer_objectText (longer_propTexts ps)
  | mutation n ps => exact longer_objectText (longer_propTexts ps)
  | union ts => exact ((longer_texts ts).intercalate ", ").enclosed "t.union([" "])"
  | intersection ts => exact (longer_texts ts).groupedText
  | array c => exact (longer_reference c (longer_text c)).enclosed "t.array(" ")"
  | option c =>
      rw [shown, optionCount_cons, text, text]
      exact longer_optionText (longer_reference c (longer_text c))
  | named n body =>
      have hBody := longer_text body
      have hOptions : optionCount (named n body).shown = optionCount body.shown :=
        optionCount_cons _ _
      rw [hOptions]
      cases body with
      | object ps =>
          have hLines := AllLonger.cons (.refl ("__typename: " ++ literalText n))
            (longer_propTexts ps)
          rw [Nat.zero_add] at hLines
          exact (hLines.intercalate ",\n").enclosed "t.type(\x7b \n" "\n\x7d)"
      | _ => simpa only [text] using hBody
  | _ => exact .refl _

theorem longer_texts (cs : List Codec) :
    AllLonger (optionCount (shownAll cs)) (texts .output cs) (texts .input cs) := by
  cases cs with
  | nil => exact .nil
  | cons c cs =>
      rw [shownAll, optionCount_append]
      exact .cons (longer_reference c (longer_text c)) (longer_texts cs)

theorem longer_propTexts (ps : List (String × Codec)) :
    AllLonger (optionCount (shownProps ps)) (propTexts .output ps) (propTexts .input ps) := by
  cases ps with
  | nil => exact .nil
  | cons p ps =>
      have hKey := (Longer.refl (p.1 ++ ": ")).append (longer_reference p.2 (longer_text p.2))
      rw [Nat.zero_add] at hKey
      rw [shownProps, optionCount_append]
      exact .cons hKey (longer_propTexts ps)

end

theorem written_ne_iff {write write' : Codec → String} (c : Codec) :
    c.written write ≠ c.written write' ↔ c.printable = true ∧ write c ≠ write' c := by
  unfold written
  split_ifs with hPrintable
  · simp [hPrintable]
  · simp [hPrintable]

/-- **The two modes differ exactly if a nullable type is printed.** So do the outcomes of printing,
unless the codec is not printable. The output expression is longer, by one character for each
printed nullable type. -/
theorem text_modes_ne_iff (c : Codec) :
    (c.text .output ≠ c.text .input ↔ ∃ item, .option item ∈ c.shown) ∧
      (c.written (text .output) ≠ c.written (text .input) ↔
        c.printable = true ∧ ∃ item, .option item ∈ c.shown) ∧
      (c.text .output).length = (c.text .input).length + optionCount c.shown := by
  have hLonger := longer_text c
  have hTexts : c.text .output ≠ c.text .input ↔ ∃ item, .option item ∈ c.shown := by
    rw [hLonger.ne_iff, optionCount_ne_zero_iff]
  exact ⟨hTexts, by rw [written_ne_iff, hTexts], hLonger.length⟩

end Codec

end GraphCodec
