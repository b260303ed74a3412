import GraphCodec.Formatter.Pattern.Reference

/-!
# Prefilters

A prefilter is a coarser regular expression, without groups and back-references, that rejects most
texts without a match. It has single letters in both cases, and `.*` for character classes and
most ranges. Its anchors are those of lines.
-/

set_option autoImplicit false

namespace GraphCodec.Formatter

/-- A match before its groups are computed: its start, the pruned state sets, its end, the accepting
state, and its drift. -/
structure Hit where
  matching : Matching
  log : Log
  last : Nat
  halt : Nat
  drift : Nat

/-- The first match from one of `bound` offsets on; `keeps` restricts it to character boundaries. -/
def Automaton.search (a : Automaton) (manyLines keeps : Bool) (subject : Subject) :
    Nat → Nat → Option Hit
  | 0, _ => none
  | bound + 1, start =>
    if keeps && subject.isInside start then a.search manyLines keeps subject bound (start + 1)
    else
      let m : Matching := ⟨a, subject, manyLines, start⟩
      let found :=
        if a.refersBack then m.referring?
        else
          match m.allTracks with
          | (log, some last) => some (log, last, 0)
          | (_, none) => none
      match found with
      | some (log, last, halt) =>
        let drift := if last = 0 && a.hasNeeds then m.drift m.size 0 0 else 0
        some ⟨m, log, last, halt, drift⟩
      | none => a.search manyLines keeps subject bound (start + 1)

namespace Sieve

/-- Letters whose uppercase mapping is that of another letter, and which match only themselves. -/
def isOldForm (c : Char) : Bool := 0x1c80 ≤ c.toNat && c.toNat ≤ 0x1c88

/-- The case folding of the prefilter. -/
def fold (c : Char) : Char := if isOldForm c then c else Text.upper c

/-- The case variants of a letter. -/
def forms (anyCase : Bool) (c : Char) : List SetItem :=
  if !anyCase then [.char c]
  else if isOldForm c then [.char c, .char (Text.upper c)]
  else [.char (Text.upper c)]

/-- The characters of an element of a bracket expression, if the prefilter supports it. -/
def item? (anyCase : Bool) : SetItem → Option (List SetItem)
  | .char c | .wide c => some (forms anyCase c)
  | .range first last =>
    if first = last then some (forms anyCase first)
    else if first.isDigit && last.isDigit then some [.range first last]
    else none
  | .named "digit" => some [.named "digit"]
  | _ => none

/-- The characters of a bracket expression, if the prefilter supports it. -/
def set? (a : Alphabet) (flags : PatternFlags) (set : CharSet) : Option CharSet :=
  if a == .bytes then some set
  else if set.negated then
    if set.isAny flags.manyLines then some set else none
  else (set.items.mapM (item? flags.anyCase)).map fun items => ⟨false, items.flatten⟩

/-- An anchor that the prefilter supports. -/
def edge? (a : Alphabet) : Edge → Option Edge
  | .lineStart | .textStart => some .lineStart
  | .lineEnd | .textEnd => some .lineEnd
  | kind => if a == .bytes then some kind else none

/-- The pattern `.*`. -/
def anything : Pattern := .rep (.one .any) 0 none

/-- The approximation of a regular expression. -/
def coarse (a : Alphabet) (flags : PatternFlags) : Pattern → Pattern
  | .empty => .empty
  | .one set => ((set? a flags set).map Pattern.one).getD anything
  | .byte _ | .same _ => anything
  | .edge kind => ((edge? a kind).map Pattern.edge).getD .empty
  | .seq p q => .seq (coarse a flags p) (coarse a flags q)
  | .alt p q => .alt (coarse a flags p) (coarse a flags q)
  | .group _ p => coarse a flags p
  | .rep p least most => .rep (coarse a flags p) least most

/-- Whether the approximation is exact on lines. -/
def isFaithful (a : Alphabet) (flags : PatternFlags) : Pattern → Bool
  | .empty => true
  | .one set => (set? a flags set).isSome
  | .byte _ | .same _ => false
  | .edge kind => (edge? a kind).isSome
  | .seq p q | .alt p q => isFaithful a flags p && isFaithful a flags q
  | .group _ p | .rep p _ _ => isFaithful a flags p

end Sieve

/-- A prefilter: an automaton, the line separator, and whether it is exact. -/
structure Sieve where
  automaton : Automaton
  lineEnd : Char
  decides : Bool

namespace Sieve

/-- The prefilter of a case-sensitively parsed regular expression. -/
def ofPattern (a : Alphabet) (flags : PatternFlags) (lineEnd : Char) (p : Pattern) : Sieve :=
  ⟨.ofPattern (coarse a flags p), lineEnd, isFaithful a flags p⟩

/-- Whether a text passes the prefilter. -/
def isPassed (s : Sieve) (subject : Subject) : Bool :=
  (s.automaton.search true false { subject with lineEnd := s.lineEnd } (subject.size + 1) 0).isSome

end Sieve

end GraphCodec.Formatter
