import GraphCodec.Formatter.Pattern.Reader
import GraphCodec.Formatter.Pattern.Sieve

/-!
# Searching for matches

The leftmost match is found, and the longest of those. Its groups are those of the preferred path.
-/

set_option autoImplicit false

namespace GraphCodec.Formatter

/-- A compiled regular expression. -/
structure Matcher where
  /-- Its source. -/
  source : Bytes
  flags : PatternFlags
  /-- Whether anchors can match at line boundaries. -/
  hasLines : Bool
  alphabet : Alphabet
  automaton : Automaton
  /-- The number of groups. -/
  groups : Nat
  /-- The prefilter, where it affects the result. -/
  sieve : Option Sieve
  doubts : List PatternDoubt

namespace CharSet

/-- Whether a bracket expression is a single character, or a list of single-byte ones. -/
def isPlain (set : CharSet) : Bool :=
  !set.negated && set.items.all fun i =>
    match i with
    | .char _ | .loose _ => true
    | _ => false

end CharSet

namespace Matcher

/-- Compiles a regular expression. The prefilter is parsed case-sensitively, as it has its own case
folding. -/
def read (style : PatternStyle) (hasLines : Bool) (text : Bytes) : Except PatternError Matcher := do
  let (p, groups, doubts) ← Pattern.read style text
  let flags := style.flags
  let plain : PatternStyle :=
    if style.alphabet == .unicode then { style with flags := { flags with anyCase := false } }
    else style
  let sieve :=
    if !flags.manyLines && (!flags.anyCase || style.alphabet == .bytes) then none
    else (Pattern.read plain text).toOption.map fun (p, _) =>
      Sieve.ofPattern style.alphabet flags (if hasLines then '\n' else Char.ofNat 0) p
  return ⟨text, flags, hasLines, style.alphabet, .ofPattern p, groups, sieve, doubts⟩

/-- The subject of the automaton. -/
def subject (matcher : Matcher) (text : Bytes) : Subject :=
  .ofBytes matcher.alphabet
    (if matcher.flags.anyCase then matcher.alphabet.cased Text.upper else id) text

/-- The subject of the prefilter. -/
def sieveSubject (matcher : Matcher) (text : Bytes) : Subject :=
  .ofBytes matcher.alphabet
    (if matcher.flags.anyCase then matcher.alphabet.cased Sieve.fold else id) text

/-- Whether a match can start only at a character boundary. -/
def keepsCharacters (matcher : Matcher) : Bool :=
  matcher.alphabet == .unicode &&
    (matcher.flags.anyCase || matcher.automaton.nodes.any fun node =>
      match node with
      | .edge kind _ => !([Edge.lineStart, .lineEnd, .textStart, .textEnd].contains kind)
      | .one set _ => !set.isPlain && !set.isAny matcher.flags.manyLines
      | _ => false)

/-- The first match from an offset on. A shortened character before it has no last byte left
over. -/
def found? (matcher : Matcher) (subject : Subject) (start : Nat) : Option Hit :=
  let isWhole := (List.range (subject.size - start)).any fun k => (subject.char? (start + k)).isSome
  let leftOver := if isWhole then subject.leftOver else none
  matcher.automaton.search (matcher.flags.manyLines && matcher.hasLines) matcher.keepsCharacters
    { subject with leftOver } (subject.size + 1 - start) start

end Matcher

/-- The match with its capture groups, if there is a path through them. -/
def Hit.match? (groups : Nat) (f : Hit) : Option Match := do
  let a := f.matching.automaton
  let places ←
    if groups = 0 && !a.refersBack then pure []
    else if a.refersBack then f.matching.groupsReferring f.log f.last f.halt
    else f.matching.groups f.log f.last
  let start := f.matching.start + f.drift
  let own := places.filterMap fun (n, e) => do return (n, start + (← e.start), start + (← e.stop))
  let others := a.aliases.filterMap fun (k, n) => (own.lookup n).map fun s => (k, s)
  return ⟨start, start + f.last, own ++ others⟩

/-- Shifts the offsets of a match. -/
def Match.shift (m : Match) (places : Nat) : Match :=
  ⟨m.start + places, m.stop + places,
    m.groups.map fun (n, start, stop) => (n, start + places, stop + places)⟩

namespace Matcher

/-! ## Other line terminators

The anchors of lines only know newlines. With another terminator each line is searched by itself,
and a pattern that is a single anchor is searched in the text. -/

/-- The end of the line of an offset. -/
def lineEnd (separator : Char) (subject : Subject) (start : Nat) : Nat :=
  start + ((subject.slice start subject.size).takeWhile (· ≠ separator)).length

/-- The start of the line of an offset. -/
def lineStart (separator : Char) (subject : Subject) (start : Nat) : Nat :=
  start - ((subject.slice 0 start).reverse.takeWhile (· ≠ separator)).length

/-- The first line boundary from an offset on. -/
def edge? (separator : Char) (subject : Subject) (start : Nat) : Edge → Option Nat
  | .lineEnd => some (lineEnd separator subject start)
  | _ =>
    if start = 0 || lineStart separator subject start = start then some start
    else
      let stop := lineEnd separator subject start
      if stop < subject.size then some (stop + 1) else none

/-- At most `bound` lines of a text: the offsets of their starts, of the search in them, and of
their ends. -/
def linesFrom (separator : Char) (subject : Subject) : Nat → Nat → Nat → List (Nat × Nat × Nat)
  | 0, _, _ => []
  | bound + 1, first, start =>
    let stop := lineEnd separator subject start
    (first, start, stop) ::
      if stop < subject.size then linesFrom separator subject bound (stop + 1) (stop + 1) else []

/-- The substrings that are searched from an offset on, with the offsets of their starts and of the
search in them. -/
def parts (matcher : Matcher) (separator : Char) (subject : Subject) (start : Nat) :
    List (Subject × Nat × Nat) :=
  if matcher.flags.manyLines && separator ≠ '\n' then
    (linesFrom separator subject (subject.size + 1) (lineStart separator subject start) start).map
      fun (first, start, stop) => (subject.part first stop, first, start)
  else [(subject, 0, start)]

/-- The anchor that the whole regular expression consists of. -/
def loneEdge? (matcher : Matcher) (separator : Char) : Option Edge :=
  if separator = '\n' || !matcher.flags.manyLines then none
  else if matcher.source == ['^'] then some .lineStart
  else if matcher.source == ['$'] then some .lineEnd
  else none

/-! ## Matches -/

/-- The first match from an offset on. -/
def find? (matcher : Matcher) (separator : Char) (subject : Subject) (start : Nat) :
    Option Match :=
  match matcher.loneEdge? separator with
  | some kind => (edge? separator subject start kind).map fun place => ⟨place, place, []⟩
  | none =>
    (matcher.parts separator subject start).findSome? fun (part, first, start) =>
      ((matcher.found? part (start - first)).bind (Hit.match? matcher.groups)).map fun m => m.shift first

/-- Whether a text passes the prefilter. -/
def mayBeIn (matcher : Matcher) (text : Bytes) : Bool :=
  match matcher.sieve with
  | some sieve =>
    let subject := matcher.sieveSubject text
    let hasOldForm := subject.chars.any fun c => c.any fun (d, _) => Sieve.isOldForm d
    !(matcher.flags.anyCase && hasOldForm) || sieve.isPassed subject
  | none => true

/-- Whether there is a match in a text. -/
def isIn (matcher : Matcher) (separator : Char) (text : Bytes) : Bool :=
  let careful := fun (_ : Unit) => matcher.mayBeIn text &&
    (matcher.parts separator (matcher.subject text) 0).any fun (part, _, _) =>
      (matcher.found? part 0).isSome
  match matcher.loneEdge? separator, matcher.sieve with
  | some _, _ => true
  | none, some sieve =>
    if matcher.flags.manyLines && sieve.decides then sieve.isPassed (matcher.sieveSubject text)
    else careful ()
  | none, none => careful ()

end Matcher

end GraphCodec.Formatter
