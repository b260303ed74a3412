import GraphCodec.Formatter.Decimal
import GraphCodec.Formatter.Edit.Script
import GraphCodec.Formatter.Outcome
import GraphCodec.Formatter.Pattern.Reader

/-!
# Parsing `sed` scripts

Errors have the offset at which parsing stopped.
-/

set_option autoImplicit false

namespace GraphCodec.Formatter.Edit

/-- The parse errors of a script. -/
inductive Fault where
  | twoNegations | strayComma | strayClose | junk | noText | addressOfClose | addressOfLabel
  | addressOfComment | noCommand | oneAddress | openAddress | openSubstitution | openLetters
  | unknownFlag | twoPrints | twoGlobals | twoNumbers | zeroNumber | lengths | newer | lineZero
  | firstStep | noLabel | escapedControl | noFile | noPattern | emptyWithFlags | wideSlash
  | sandboxed | incomplete
  | unknown (command : Char)
  | reference (number : Nat)
  /-- An output file that cannot be opened. It has no position. -/
  | cannotOpen (name : Bytes) (reason : String)
  | pattern (e : PatternError)
  /-- A rejected regular expression. It has no position. -/
  | doubt (d : PatternDoubt)
  /-- An unmatched `{`. It has no position. -/
  | openBlock
  deriving DecidableEq, Repr

def Fault.message : Fault → Bytes
  | .twoNegations => Bytes.words ["multiple \x60!'s"]
  | .strayComma => Bytes.words ["unexpected \x60,'"]
  | .strayClose => Bytes.words ["unexpected \x60\x7d'"]
  | .junk => Bytes.words ["extra characters after command"]
  | .noText => Bytes.words ["expected \\ after \x60a', \x60c' or \x60i'"]
  | .addressOfClose => Bytes.words ["\x60\x7d' doesn't want any addresses"]
  | .addressOfLabel => Bytes.words [": doesn't want any addresses"]
  | .addressOfComment => Bytes.words ["comments don't accept any addresses"]
  | .noCommand => Bytes.words ["missing command"]
  | .oneAddress => Bytes.words ["command only uses one address"]
  | .openAddress => Bytes.words ["unterminated address regex"]
  | .openSubstitution => Bytes.words ["unterminated \x60s' command"]
  | .openLetters => Bytes.words ["unterminated \x60y' command"]
  | .unknownFlag => Bytes.words ["unknown option to \x60s'"]
  | .twoPrints => Bytes.words ["multiple \x60p' options to \x60s' command"]
  | .twoGlobals => Bytes.words ["multiple \x60g' options to \x60s' command"]
  | .twoNumbers => Bytes.words ["multiple number options to \x60s' command"]
  | .zeroNumber => Bytes.words ["number option to \x60s' command may not be zero"]
  | .lengths => Bytes.words ["strings for \x60y' command are different lengths"]
  | .newer => Bytes.words ["expected newer version of sed"]
  | .lineZero => Bytes.words ["invalid usage of line address 0"]
  | .firstStep => Bytes.words ["invalid usage of +N or ~N as first address"]
  | .noLabel => Bytes.words ["\":\" lacks a label"]
  | .escapedControl => Bytes.words ["recursive escaping after \\c not allowed"]
  | .noFile => Bytes.words ["missing filename in r/R/w/W commands"]
  | .noPattern => Bytes.words ["no previous regular expression"]
  | .emptyWithFlags => Bytes.words ["cannot specify modifiers on empty regexp"]
  | .wideSlash => Bytes.words ["delimiter character is not a single-byte character"]
  | .unknown c => Bytes.words ["unknown command: \x60"] ++ c :: ['\x27']
  | .reference n => Bytes.words ["invalid reference \\", toString n, " on \x60s' command's RHS"]
  | .sandboxed => Bytes.words ["e/r/w commands disabled in sandbox mode"]
  | .incomplete => Bytes.words ["incomplete command"]
  | .cannotOpen name reason =>
    Bytes.words ["couldn't open file "] ++ name ++ Bytes.words [": ", reason]
  | .pattern e => Bytes.words [e.message]
  | .doubt d => Bytes.words [d.message]
  | .openBlock => Bytes.words ["unmatched \x60\x7b'"]

/-! ## Escapes -/

def isBlank (c : Char) : Bool := c == ' ' || c == '\t'

def digitValue (c : Char) : Nat :=
  if c.isDigit then c.toNat - '0'.toNat else c.toLower.toNat - 'a'.toNat + 10

/-- The byte of a numeric escape, and its number of digits. -/
def numbered (base most : Nat) (isDigit : Char → Bool) (cs : Bytes) : Option (Char × Nat) :=
  let digits := (cs.take most).takeWhile isDigit
  if digits.isEmpty then none
  else some (Char.ofNat (digits.foldl (fun n d => n * base + digitValue d) 0 % 256), digits.length)

/-- The escape sequences of a script. -/
inductive Escape where
  /-- A byte, and the length of the escape after the backslash. -/
  | byte (c : Char) (size : Nat)
  | none
  | fault (f : Fault)

/-- Parses an escape sequence after its backslash. -/
def escape : Bytes → Escape
  | 'a' :: _ => .byte '\x07' 1
  | 'f' :: _ => .byte '\x0c' 1
  | 'n' :: _ => .byte '\n' 1
  | 'r' :: _ => .byte '\r' 1
  | 't' :: _ => .byte '\t' 1
  | 'v' :: _ => .byte '\x0b' 1
  | ['c'] => .byte '\\' 1
  | 'c' :: '\\' :: '\\' :: _ => .byte '\x1c' 3
  | 'c' :: '\\' :: _ => .fault .escapedControl
  | 'c' :: x :: _ => .byte (Char.ofNat (x.toUpper.toNat ^^^ 0x40)) 2
  | 'd' :: cs => counted 'd' (numbered 10 3 Char.isDigit cs)
  | 'o' :: cs => counted 'o' (numbered 8 3 (fun c => '0' ≤ c && c ≤ '7') cs)
  | 'x' :: cs => counted 'x' (numbered 16 2 Letters.isHexDigit cs)
  | _ => .none
where
  /-- A numeric escape; without digits it is the letter. -/
  counted (letter : Char) : Option (Char × Nat) → Escape
    | some (c, n) => .byte c (n + 1)
    | Option.none => .byte letter 1

/-- The state of a scan through bracket expressions: outside, inside, or in a class name, by its
marker. -/
inductive Bracket where
  | outside
  | inside
  | named (mark : Char)
  deriving DecidableEq

/-- The state after a byte, given the two before it. -/
def Bracket.after (b : Bracket) (last beforeLast : Option Char) (c : Char) : Bracket :=
  match b with
  | .outside => if c == '[' then .inside else .outside
  | .inside =>
    if c == ']' then .outside
    else if (c == ':' || c == '.' || c == '=') && last == some '[' then .named c
    else .inside
  | .named mark =>
    if c == ']' && last == some mark && beforeLast != some mark then .inside else .named mark

/-- Replaces the escapes of a regular expression; `skip` bytes belong to the current one. Other
backslashes are kept with the next character. Escapes in bracket expressions are replaced only
outside POSIX mode. -/
def plainPattern (rules : Rules) :
    Nat → Bracket → Option Char → Option Char → Bytes → Except Fault Bytes
  | _, _, _, _, [] => .ok []
  | skip + 1, b, l, k, _ :: cs => plainPattern rules skip b l k cs
  | 0, b, l, k, '\\' :: d :: cs =>
    if b ≠ .outside then do
      return '\\' :: (← plainPattern rules 0 (b.after l k '\\') (some '\\') l (d :: cs))
    else
      match if d == 'b' then Escape.none else escape (d :: cs) with
      | .byte c size => do return c :: (← plainPattern rules size b (some c) l (d :: cs))
      | .fault f => .error f
      | .none => do return '\\' :: d :: (← plainPattern rules 0 b (some d) (some '\\') cs)
  | 0, b, l, k, c :: cs => do
    let b := if rules == .free then .outside else b.after l k c
    return c :: (← plainPattern rules 0 b (some c) l cs)

/-- Replaces the escapes of a text. Other backslashes are dropped, and so is an incomplete `\c`. -/
def plainText : Nat → Bytes → Except Fault Bytes
  | _, [] => .ok []
  | skip + 1, _ :: cs => plainText skip cs
  | 0, ['\\', 'c'] => .ok []
  | 0, '\\' :: c :: cs =>
    match escape (c :: cs) with
    | .byte d size => do return d :: (← plainText size (c :: cs))
    | .fault f => .error f
    | .none => do return c :: (← plainText 0 cs)
  | 0, '\\' :: [] => .ok []
  | 0, c :: cs => do return c :: (← plainText 0 cs)

/-! ## The parser -/

/-- The parser options: `-E`, the absence of `-z`, the conformance mode, `POSIXLY_CORRECT`,
`--sandbox`, the locale, and the file system. -/
structure Style where
  extended : Bool
  lines : Bool
  rules : Rules
  isCareful : Bool
  sandboxed : Bool
  alphabet : Alphabet
  desk : Desk

/-- A source position: offset and line number. -/
structure Place where
  taken : Nat
  lines : Nat

/-- The state of the parser: the rest, the position, and the opened output files. -/
structure Cursor where
  rest : Bytes
  place : Place
  opened : List Bytes

/-- The parser monad. -/
abbrev Reading := StateT Cursor (Except (Fault × Cursor))

def stopAt {α : Type} (fault : Fault) : Reading α := fun s => .error (fault, s)

/-- Lifts a result into the parser. -/
def orStop {α : Type} : Except Fault α → Reading α
  | .ok a => return a
  | .error f => stopAt f

/-- Consumes a byte. -/
def take : Reading (Option Char) := do
  match (← get).rest with
  | [] => return none
  | c :: rest =>
    modify fun s => { s with
      rest
      place := ⟨s.place.taken + 1, s.place.lines + if c == '\n' then 1 else 0⟩ }
    return some c

def peek : Reading (Option Char) := return (← get).rest.head?

/-- Consumes what a function consumes. -/
def takeBy {α : Type} (f : Bytes → α × Bytes) : Reading α := do
  let s ← get
  let (a, rest) := f s.rest
  let taken := s.rest.length - rest.length
  let lines := (s.rest.take taken).count '\n'
  set { s with rest, place := ⟨s.place.taken + taken, s.place.lines + lines⟩ }
  return a

def takeWhile (p : Char → Bool) : Reading Bytes :=
  takeBy fun s => (s.takeWhile p, s.dropWhile p)

/-- Consumes blanks and the next byte. -/
def takeNonBlank : Reading (Option Char) := do
  discard (takeWhile isBlank)
  take

/-- Puts back a consumed byte. -/
def putBack : Option Char → Reading Unit
  | none => return ()
  | some c => modify fun s => { s with
    rest := c :: s.rest
    place := ⟨s.place.taken - 1, s.place.lines - if c == '\n' then 1 else 0⟩ }

/-- Parses a number after its first byte. Without digits it is zero. -/
def number (first : Option Char) : Reading Nat := do
  putBack first
  let digits ← takeWhile Char.isDigit
  return Digits.number 10 digits % Digits.wordSize

/-- The state of a scan for a delimiter: outside a bracket expression, after its opening bracket, or
inside, with the progress in a class name. -/
inductive Scan where
  | outside
  | opened (negated : Bool)
  | inside (name : Nat) (mark : Char)

/-- The state of the scan after a byte of a bracket expression. -/
def Scan.after (name : Nat) (mark c : Char) : Scan :=
  let other : Scan := .inside (name / 2 * 2) mark
  if c == '.' || c == ':' || c == '=' then
    if name = 1 then .inside 2 c else if name = 2 && c == mark then .inside 3 mark else other
  else if c == '[' then if name = 0 then .inside 1 mark else .inside name mark
  else if c == ']' then
    if name ≤ 1 then .outside else if name = 3 then .inside 0 mark else other
  else other

/-- Parses up to a delimiter. In a regular expression, bracket expressions are skipped. -/
def untilSlash (slash : Char) (pattern : Bool) : Scan → Bytes → Option Bytes × Bytes
  | _, [] => (none, [])
  | .outside, c :: cs =>
    let more (front : Bytes) (r : Option Bytes × Bytes) : Option Bytes × Bytes :=
      (r.1.map (front ++ ·), r.2)
    if c == '\n' then (none, c :: cs)
    else if c == slash then (some [], cs)
    else if c == '\\' then
      match cs with
      | [] => (none, [])
      | d :: ds =>
        let front :=
          if d ≠ '\n' && (d ≠ slash || (!pattern && d == '&')) then ['\\', d] else [d]
        more front (untilSlash slash pattern .outside ds)
    else
      let scan := if c == '[' && pattern then .opened false else .outside
      more [c] (untilSlash slash pattern scan cs)
  | .opened negated, c :: cs =>
    if c == '\n' then (none, c :: cs)
    else
      let scan :=
        if c == '^' && !negated then .opened true
        else if c == ']' then .inside 0 '.'
        else Scan.after 0 '.' c
      let (text, rest) := untilSlash slash pattern scan cs
      (text.map (c :: ·), rest)
  | .inside name mark, c :: cs =>
    if c == '\n' then (none, c :: cs)
    else
      let (text, rest) := untilSlash slash pattern (Scan.after name mark c) cs
      (text.map (c :: ·), rest)

/-- Parses up to a delimiter, or fails. -/
def delimited (style : Style) (slash : Option Char) (pattern : Bool) (fault : Fault) :
    Reading Bytes := do
  match slash with
  | none => stopAt fault
  | some c =>
    if c.toNat ≥ 0x80 && style.alphabet == .unicode then stopAt .wideSlash
    match ← takeBy (untilSlash c pattern .outside) with
    | some text => return text
    | none => stopAt fault

/-- Compiles a regular expression; an empty one is the last one used. -/
def matcher (style : Style) (flags : PatternFlags) (text : Bytes) : Reading (Option Matcher) := do
  if text.isEmpty then
    if flags.anyCase || flags.manyLines then stopAt .emptyWithFlags
    return none
  let text ← orStop (plainPattern style.rules 0 .outside none none text)
  match Matcher.read ⟨style.extended, flags, style.alphabet, style.rules⟩ style.lines text with
  | .ok m => return some m
  | .error e => stopAt (.pattern e)

/-- Fails at the first questionable construct of a regular expression. Class names are not checked
under `POSIXLY_CORRECT`. -/
def acceptPattern (style : Style) (m : Option Matcher) : Reading Unit := do
  let doubts := (m.map Matcher.doubts).getD []
  match doubts.find? fun d => !(style.isCareful && d == .looseClass) with
  | some d => stopAt (.doubt d)
  | none => pure ()

/-! ### Addresses -/

/-- Parses the flags of an address; the number of bytes is the fuel. -/
def addressFlags : Nat → PatternFlags → Reading PatternFlags
  | 0, flags => return flags
  | bound + 1, flags => do
    match ← takeNonBlank with
    | some 'I' => addressFlags bound { flags with anyCase := true }
    | some 'M' => addressFlags bound { flags with manyLines := true }
    | c => do putBack c; return flags

/-- Parses an address after its first byte. -/
def address (style : Style) (first : Option Char) : Reading (Option Address) := do
  match first with
  | some '/' | some '\\' =>
    let slash ← if first == some '\\' then take else pure first
    let text ← delimited style slash true .openAddress
    let flags ←
      if style.rules == .strict then pure ⟨false, false⟩
      else addressFlags ((← get).rest.length + 1) ⟨false, false⟩
    let found ← matcher style flags text
    acceptPattern style found
    return some (.found found)
  | some '$' => return some .last
  | some c =>
    if c.isDigit then
      let n ← number first
      let d ← takeNonBlank
      if d == some '~' && style.rules ≠ .strict then
        let step ← number (← takeNonBlank)
        return some (if step = 0 then .line n else .every n step)
      putBack d
      return some (.line n)
    else if c == '+' && style.rules ≠ .strict then
      return some (.further (← number (← takeNonBlank)))
    else if c == '~' && style.rules ≠ .strict then
      return some (.multiple (← number (← takeNonBlank)))
    else return none
  | none => return none

/-- Parses the addresses and the negation of a command, and returns its letter. -/
def span (style : Style) (first : Option Char) : Reading (Span × Option Char) := do
  let (start, stop, c) ← match ← address style first with
    | none => pure (none, none, first)
    | some a => do
      match a with
      | .further n | .multiple n => if n ≠ 0 then stopAt .firstStep
      | _ => pure ()
      let c ← takeNonBlank
      let (stop, c) ←
        if c == some ',' then do
          match ← address style (← takeNonBlank) with
          | none => stopAt .strayComma
          | some b => do
            let c ← takeNonBlank
            pure (some b, c)
        else pure (none, c)
      match a, stop with
      | .line 0, some (.found _) => if style.rules == .strict then stopAt .lineZero
      | .line 0, some _ => stopAt .lineZero
      | .line 0, none => if c ≠ some 'r' || style.rules == .strict then stopAt .lineZero
      | _, _ => pure ()
      pure (some a, stop, c)
  if c == some '!' then
    let c ← takeNonBlank
    if c == some '!' then stopAt .twoNegations
    return (⟨start, stop, true⟩, c)
  return (⟨start, stop, false⟩, c)

/-! ### Arguments of functions -/

/-- Parses the end of a command. -/
def commandEnd : Reading Unit := do
  let c ← takeNonBlank
  match c with
  | some '\x7d' | some '#' => putBack c
  | none | some '\n' | some ';' => return ()
  | _ => stopAt .junk

def isSpace (c : Char) : Bool := c == ' ' || ('\t' ≤ c && c ≤ '\r')

/-- Parses a label. -/
def label : Reading Bytes := do
  discard (takeWhile isBlank)
  takeWhile fun c => !isSpace c && !(";#\x7d".toList.contains c)

/-- Parses a file name. -/
def fileName : Reading Bytes := do
  discard (takeWhile isBlank)
  let name ← takeWhile (· ≠ '\n')
  discard take
  if name.isEmpty then stopAt .noFile
  return name

/-- Fails in `--sandbox` mode. -/
def outOfSandbox (style : Style) : Reading Unit := do
  if style.sandboxed then stopAt .sandboxed

/-- Parses the name of an output file, which is opened and truncated at once. -/
def writtenName (style : Style) : Reading Bytes := do
  let name ← fileName
  match style.desk.findToMake name with
  | .missing => if !style.desk.hasRoom name then stopAt (.cannotOpen name Found.missing.reason)
  | .directory => stopAt (.cannotOpen name Found.directory.reason)
  | .notDirectory => stopAt (.cannotOpen name Found.notDirectory.reason)
  | .tooLong => stopAt (.cannotOpen name Found.tooLong.reason)
  | _ => pure ()
  modify fun s => { s with opened := s.opened ++ [name] }
  return name

/-- The lines of a text argument up to an unescaped line feed, and whether the fragment ends with a
backslash, so that the text goes on in the next fragment. -/
def textLines : Bytes → (Bytes × Bool) × Bytes
  | [] => ((['\n'], false), [])
  | ['\\'] => ((['\n'], true), [])
  | '\\' :: c :: cs =>
    let ((text, opened), rest) := textLines cs
    (('\\' :: c :: text, opened), rest)
  | c :: cs =>
    if c == '\n' then ((['\n'], false), cs)
    else
      let ((text, opened), rest) := textLines cs
      ((c :: text, opened), rest)

/-- The text argument of `a`, `i`, `c` or `e`. -/
inductive AddedText where
  | whole (text : Bytes)
  /-- It goes on in the next fragment; its escapes are not replaced yet. -/
  | opened (text : Bytes)

/-- Parses the rest of a text argument. -/
def furtherText (front : Bytes) : Reading AddedText := do
  let (text, opened) ← takeBy textLines
  if opened then return .opened (front ++ text)
  return .whole (← orStop (plainText 0 (front ++ text)))

/-- Parses a text argument after its first nonblank byte. A leading backslash keeps the next byte,
unless it is a line feed. -/
def addedText (style : Style) (first : Option Char) : Reading AddedText := do
  match first with
  | none => stopAt .noText
  | some '\\' =>
    match ← take with
    | none => return .opened []
    | some '\n' => furtherText []
    | some d => furtherText [d]
  | d =>
    if style.rules == .strict then stopAt .noText
    putBack d
    furtherText []

/-! ### Replacements -/

/-- The state of parsing a replacement: the literal so far (reversed), the pending case conversions,
and the one that is restored after a piece. -/
structure PieceState where
  literal : Bytes
  letters : LetterCase
  first : LetterCase
  later : LetterCase

namespace PieceState

def piece (s : PieceState) (group : Option Nat) : Piece :=
  ⟨s.literal.reverse, group, s.letters, s.first⟩

/-- The state after a piece. -/
def afterPiece (s : PieceState) : PieceState := ⟨[], s.later, .asIs, s.later⟩

def setCase (c : LetterCase) : PieceState := ⟨[], c, .asIs, c⟩

end PieceState

/-- Parses the pieces of a replacement; `skip` bytes belong to the current escape. -/
def pieces (rules : Rules) : Nat → PieceState → Bytes → Except Fault (List Piece)
  | _, s, [] => .ok (if s.literal.isEmpty then [] else [s.piece none])
  | skip + 1, s, _ :: cs => pieces rules skip s cs
  | 0, s, ['\\'] => .ok [{ s with literal := '\\' :: s.literal }.piece none]
  | 0, s, '\\' :: c :: cs =>
    let after := s.afterPiece
    let go (p : Piece) (s : PieceState) : Except Fault (List Piece) := do
      return p :: (← pieces rules 0 s cs)
    if c.isDigit then go (s.piece (some (digitValue c))) after
    else if "LUElu".toList.contains c && rules ≠ .strict then
      match c with
      | 'L' => go (s.piece none) (PieceState.setCase .lower)
      | 'U' => go (s.piece none) (PieceState.setCase .upper)
      | 'E' => go (s.piece none) (PieceState.setCase .asIs)
      | 'l' => go (s.piece none) ⟨[], after.letters, .lower, after.letters⟩
      | _ => go (s.piece none) ⟨[], after.letters, .upper, after.letters⟩
    else
      match escape (c :: cs) with
      | .byte d size => pieces rules size { s with literal := d :: s.literal } (c :: cs)
      | .fault f => .error f
      | .none => go ({ s with literal := c :: s.literal }.piece none) after
  | 0, s, c :: cs =>
    if c == '&' then do return s.piece (some 0) :: (← pieces rules 0 s.afterPiece cs)
    else pieces rules 0 { s with literal := c :: s.literal } cs

/-- The flags of `s`. -/
structure SubstitutionFlags where
  anyCase : Bool := false
  manyLines : Bool := false
  print : Bool := false
  global : Bool := false
  runs : Bool := false
  number : Option Nat := none
  file : Option Bytes := none

/-- Parses the flags of `s`; the number of bytes is the fuel. -/
def substitutionFlags (style : Style) : Nat → SubstitutionFlags → Reading SubstitutionFlags
  | 0, f => return f
  | bound + 1, f => do
    let free := style.rules ≠ .strict
    let c ← take
    match c with
    | none | some '\n' | some ';' => return f
    | some '\x7d' | some '#' => do putBack c; return f
    | some 'p' =>
      if f.print then stopAt .twoPrints
      substitutionFlags style bound { f with print := true }
    | some 'g' =>
      if f.global then stopAt .twoGlobals
      substitutionFlags style bound { f with global := true }
    | some 'w' =>
      outOfSandbox style
      return { f with file := some (← writtenName style) }
    | some d =>
      if free && (d == 'i' || d == 'I') then substitutionFlags style bound { f with anyCase := true }
      else if free && (d == 'm' || d == 'M') then
        substitutionFlags style bound { f with manyLines := true }
      else if free && d == 'e' then substitutionFlags style bound { f with runs := true }
      else if d.isDigit then
        if f.number.isSome then stopAt .twoNumbers
        let n ← number c
        if n = 0 then stopAt .zeroNumber
        substitutionFlags style bound { f with number := some n }
      else if isBlank d then substitutionFlags style bound f
      else if d == '\r' && (← peek) == some '\n' then do discard take; return f
      else stopAt .unknownFlag

/-- Parses `s` after its letter. -/
def substitution (style : Style) : Reading Substitution := do
  let slash ← take
  let text ← delimited style slash true .openSubstitution
  let replacement ← delimited style slash false .openSubstitution
  let ps ← orStop (pieces style.rules 0 ⟨[], .asIs, .asIs, .asIs⟩ replacement)
  let f ← substitutionFlags style ((← get).rest.length + 1) {}
  let found ← matcher style ⟨f.anyCase, f.manyLines⟩ text
  let sub : Substitution := ⟨found, ps, f.number, f.global, f.runs, f.print, f.file⟩
  match found with
  | some m => if m.groups < sub.groups && style.rules == .free then stopAt (.reference sub.groups)
  | none => pure ()
  acceptPattern style found
  if f.runs then outOfSandbox style
  return sub

/-- The characters of a text as byte strings; `skip` bytes belong to the current one. -/
def characters (a : Alphabet) : Nat → Bytes → List Bytes
  | _, [] => []
  | skip + 1, _ :: cs => characters a skip cs
  | 0, c :: cs =>
    match a, Bytes.character? (c :: cs) with
    | .unicode, some (_, size) => (c :: cs).take size :: characters a (size - 1) cs
    | _, _ => [c] :: characters a 0 cs

/-- Parses `y` after its letter. -/
def letterTable (style : Style) : Reading (List (Bytes × Bytes)) := do
  let slash ← take
  let source ← delimited style slash false .openLetters
  let olds := characters style.alphabet 0 (← orStop (plainText 0 source))
  let target ← delimited style slash false .openLetters
  let news := characters style.alphabet 0 (← orStop (plainText 0 target))
  if olds.length ≠ news.length then stopAt .lengths
  -- In a multibyte locale the first entry of a character counts, otherwise the last one.
  return if style.alphabet == .unicode then olds.zip news else (olds.zip news).reverse

/-! ### Scripts -/

/-- Replaces the text argument of a command. -/
def Action.withText (text : Bytes) : Action → Action
  | append _ => append text
  | insert _ => insert text
  | change _ => change text
  | run _ => run text
  | a => a

/-- A script under construction: its commands and labels, the open blocks with their positions, the
command whose text goes on, `#n`, and the conformance mode. -/
structure Draft where
  steps : Array Step
  labels : List (Bytes × Nat)
  blocks : List (Nat × Bytes)
  waiting : Option (Nat × Bytes)
  quiet : Bool
  rules : Rules

namespace Draft

def add (d : Draft) (span : Span) (action : Action) : Draft :=
  { d with steps := d.steps.push ⟨span, action⟩ }

/-- Updates a command. -/
def setAction (d : Draft) (place : Nat) (change : Action → Action) : Draft :=
  { d with steps := d.steps.modify place fun s => { s with action := change s.action } }

/-- Ends a text argument that goes on. -/
def finish (d : Draft) : Draft :=
  match d.waiting with
  | some (place, text) => { d.setAction place (Action.withText text) with waiting := none }
  | none => d

end Draft

/-- A fragment of a script: its name in diagnostics, and whether it is a file, with line numbers. -/
structure Title where
  name : Bytes
  isFile : Bool

/-- The position in a diagnostic. -/
def Title.words (t : Title) (place : Place) : Bytes :=
  t.name ++ Bytes.words (if t.isFile then [" line ", toString (place.lines + 1)]
    else [", char ", toString place.taken])

/-- Parses a text argument and adds its command. -/
def textStep (style : Style) (d : Draft) (span : Span) (first : Option Char)
    (action : Bytes → Action) : Reading Draft := do
  match ← addedText style first with
  | .whole text => return d.add span (action text)
  | .opened text =>
    return { d.add span (action []) with waiting := some (d.steps.size, text) }

/-- Parses an optional number and the end of a command. -/
def optionalNumber (style : Style) : Reading (Option Int) := do
  let c ← takeNonBlank
  let n : Int ←
    if c.any Char.isDigit && style.rules ≠ .strict then do
      pure (Int.bmod (← number c) 0x100000000)
    else do putBack c; pure (-1)
  commandEnd
  return if n = -1 then none else some n

/-- The commands without an argument. -/
def plainAction? : Char → Option Action
  | 'd' => some .delete
  | 'D' => some .deleteLine
  | 'F' => some .fileName
  | 'g' => some .fetch
  | 'G' => some .fetchMore
  | 'h' => some .keep
  | 'H' => some .keepMore
  | 'n' => some .next
  | 'N' => some .nextMore
  | 'p' => some .print
  | 'P' => some .printLine
  | 'x' => some .exchange
  | 'z' => some .clear
  | '=' => some .lineNumber
  | _ => none

/-- The state of comparing version numbers: no number, an integer, or a fraction with leading zeros,
perhaps only those. -/
inductive VersionPart where
  | other | whole | fraction | zeros
  deriving DecidableEq

/-- The state after a byte. -/
def VersionPart.next (p : VersionPart) (c : Char) : VersionPart :=
  if !c.isDigit then .other
  else
    match p with
    | .other => if c == '0' then .zeros else .whole
    | .zeros => if c == '0' then .zeros else .fraction
    | p => p

/-- The order of two versions at their first difference. Of two integers the one with more digits is
greater. -/
def VersionPart.order (p : VersionPart) (c d : Char) (cs ds : Bytes) : Ordering :=
  let digits := (cs.takeWhile Char.isDigit).length
  let otherDigits := (ds.takeWhile Char.isDigit).length
  let byLength := (compare digits otherDigits).then (compare c d)
  match p with
  | .other => if c.isDigit && d.isDigit && c != '0' && d != '0' then byLength else compare c d
  | .whole =>
    if c.isDigit && d.isDigit then byLength
    else if d.isDigit then .lt
    else if c.isDigit then .gt
    else compare c d
  | .fraction => compare c d
  | .zeros =>
    if c.isDigit == d.isDigit then compare c d else if d.isDigit then .gt else .lt

/-- The order of two versions. -/
def versionOrder : VersionPart → Bytes → Bytes → Ordering
  | _, [], [] => .eq
  | p, [], d :: ds => p.order (Char.ofNat 0) d [] ds
  | p, c :: cs, [] => p.order c (Char.ofNat 0) cs []
  | p, c :: cs, d :: ds =>
    if c == d then versionOrder (p.next c) cs ds else p.order c d cs ds

/-- The check of the `v` command. -/
def knownVersion (version : Bytes) : Bool := versionOrder .other version "4.9".toList != .gt

/-- Parses a comment. `#n` on the first line is the option `-n`. -/
def comment (d : Draft) (first : Bool) : Reading Draft := do
  let atStart := first && (← get).place.taken = 1
  let text ← takeWhile (· ≠ '\n')
  discard take
  return if atStart && text = ['n'] then { d with quiet := true } else d

/-- Fails in POSIX mode at extensions: some commands, and two addresses for others. -/
def keepRules (style : Style) (s : Span) (letter : Char) : Reading Unit := do
  if style.rules == .strict then
    if "eFvzLQTRW".toList.contains letter then stopAt (.unknown letter)
    if "ail=r".toList.contains letter && s.stop.isSome then stopAt .oneAddress

/-- Parses a command after its letter. -/
def command (style : Style) (title : Title) (first : Bool) (d : Draft) (s : Span)
    (letter : Char) : Reading Draft := do
  keepRules style s letter
  match plainAction? letter with
  | some action => do commandEnd; return d.add s action
  | none =>
    match letter with
    | '#' =>
      if s.start.isSome then stopAt .addressOfComment
      comment d first
    | ':' =>
      if s.start.isSome then stopAt .addressOfLabel
      let name ← label
      if name.isEmpty then stopAt .noLabel
      return { d.add s (.label name) with labels := (name, d.steps.size) :: d.labels }
    | '\x7b' =>
      let place := title.words { (← get).place with taken := 0 }
      return { d.add s (.block 0) with blocks := (d.steps.size, place) :: d.blocks }
    | '\x7d' =>
      match d.blocks with
      | [] => stopAt .strayClose
      | (place, _) :: blocks =>
        if s.start.isSome then stopAt .addressOfClose
        commandEnd
        let stop := d.steps.size
        return { (d.setAction place fun _ => .block stop).add s .close with blocks }
    | 'a' => textStep style d s (← takeNonBlank) .append
    | 'i' => textStep style d s (← takeNonBlank) .insert
    | 'c' => textStep style d s (← takeNonBlank) .change
    | 'e' =>
      outOfSandbox style
      match ← takeNonBlank with
      | none | some '\n' => return d.add s (.run [])
      | c => textStep style d s c .run
    | 'b' => return d.add s (.jump (← label))
    | 't' => return d.add s (.jumpIfChanged (← label))
    | 'T' => return d.add s (.jumpUnlessChanged (← label))
    | 'l' => return d.add s (.list (← optionalNumber style))
    | 'L' => return d.add s (.fill (← optionalNumber style))
    | 'q' =>
      if s.stop.isSome then stopAt .oneAddress
      return d.add s (.quit (← optionalNumber style))
    | 'Q' =>
      if s.stop.isSome then stopAt .oneAddress
      return d.add s (.quitAtOnce (← optionalNumber style))
    | 'r' =>
      outOfSandbox style
      let name ← fileName
      return match s with
        | ⟨some (.line 0), none, outside⟩ => d.add ⟨some (.line 1), none, outside⟩ (.readFirst name)
        | _ => d.add s (.readFile name)
    | 'R' => do outOfSandbox style; return d.add s (.readLine (← fileName))
    | 'w' => do outOfSandbox style; return d.add s (.writeFile (← writtenName style))
    | 'W' => do outOfSandbox style; return d.add s (.writeLine (← writtenName style))
    | 's' => return d.add s (.substitute (← substitution style))
    | 'y' =>
      let table ← letterTable style
      commandEnd
      return d.add s (.exchangeLetters table)
    | 'v' =>
      let version ← label
      if !knownVersion version then stopAt .newer
      return { d with rules := .free }
    | c => stopAt (.unknown c)

/-- Parses the commands of a fragment; the number of bytes is the fuel. -/
def commands (style : Style) (title : Title) (first : Bool) : Nat → Draft → Reading Draft
  | 0, d => return d
  | bound + 1, d => do
    discard (takeWhile fun c => isSpace c || c == ';')
    match ← take with
    | none => return d
    | c =>
      let style := { style with rules := d.rules }
      let (s, letter) ← span style c
      match letter with
      | none => stopAt .noCommand
      | some letter => do
        let d ← command style title first d s letter
        commands style title first bound d

/-- Continues a text argument of the previous fragment. -/
def waitingText (d : Draft) : Reading Draft := do
  match d.waiting with
  | none => return d
  | some (place, front) =>
    match ← furtherText front with
    | .whole text => return { d.setAction place (Action.withText text) with waiting := none }
    | .opened text => return { d with waiting := some (place, text) }

/-- Parses one fragment of a script, given the output files that are open. The cursor is at the end
of the fragment. -/
def readPart (style : Style) (title : Title) (first : Bool) (d : Draft) (opened : List Bytes)
    (text : Bytes) : Except (Fault × Cursor) (Draft × Cursor) :=
  let reading : Reading Draft := do
    let d ← waitingText d
    commands style title first (text.length + 1) d
  reading ⟨text, ⟨0, 0⟩, opened⟩

end GraphCodec.Formatter.Edit
