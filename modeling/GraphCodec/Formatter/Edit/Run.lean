import GraphCodec.Formatter.Edit.State

/-!
# Running `sed` scripts

Each cycle reads a line into the pattern space, runs the script, and prints the pattern space. The
hold space keeps text between cycles.
-/

set_option autoImplicit false

namespace GraphCodec.Formatter.Edit

/-! ## Addresses -/

/-- The regular expression of an address; an empty one is the last one used. -/
def meant (pattern : Option Matcher) (id : Option AddressId) :
    Running (Matcher × Option AddressId) := do
  match (pattern.map (·, id)).or (← get).lastPattern with
  | some (m, id) =>
    let renewed := (← get).renewed
    let m := (id.bind fun i => renewed.lookup i).getD m
    modify fun s => { s with lastPattern := some (m, id) }
    return (m, id)
  | none => throw (.fault .noPattern)

/-- Whether the current line matches an address. -/
def isAt (g : Plan) (id : AddressId) : Address → Running Bool
  | .line n => return (← get).number == n
  | .every first step => do
    let number := (← get).number
    return first ≤ number && (number - first) % step == 0
  | .last => isLast g
  | .found pattern => do
    let (m, _) ← meant pattern (some id)
    return m.isIn g.separator (← get).space.text
  | .further n | .multiple n => return n == 0

/-- The last line of a range, if it is known when the range starts. -/
def stopLine? (number : Nat) : Address → Option Nat
  | .line n => some n
  | .further n => some ((number + n) % Digits.wordSize)
  | .multiple n => some (if n = 0 then number else number - number % n + n)
  | .every first step =>
    some (if number ≤ first then first else number + (step - (number - first) % step) % step)
  | _ => none

def setProgress (place : Nat) (p : Progress) : Running Unit :=
  modify fun s => { s with progress := s.progress.set! place p }

/-- Whether the current line is in a range of two addresses. -/
def inSpan (g : Plan) (place : Nat) (start stop : Address) : Running Bool := do
  let s ← get
  match s.progress.getD place .before with
  | .within last =>
    match stopLine? s.number stop with
    | some _ =>
      if last ≤ s.number then setProgress place .behind
      return match stop with
        | .line _ => s.number ≤ last
        | _ => true
    | none =>
      if ← isAt g ⟨place, true⟩ stop then setProgress place .behind
      return true
  | progress =>
    let starts ← match start with
      | .line n => pure (progress != .behind && n ≤ s.number)
      | _ => isAt g ⟨place, false⟩ start
    if !starts then return false
    match stopLine? s.number stop with
    | some last =>
      if last = s.number || (last < s.number && !stop.isFurther) then
        setProgress place .behind
        return match start with
          | .line n => n == s.number || s.number ≤ last
          | _ => true
      else
        setProgress place (.within last)
        return true
    | none =>
      let ends ← match stop with
        | .last => isLast g
        | _ => pure false
      setProgress place (if ends then .behind else .within 0)
      return true

/-- Whether a command is selected for the current line. -/
def isMeant (g : Plan) (place : Nat) (span : Span) : Running Bool := do
  let inside ← match span.start, span.stop with
    | none, _ => pure true
    | some a, none => isAt g ⟨place, false⟩ a
    | some a, some b => inSpan g place a b
  return inside != span.outside

/-! ## Substitution -/

def LetterCase.apply (a : Alphabet) (c : LetterCase) (ch : Char) : Char :=
  match c with
  | .asIs => ch
  | .upper => a.cased Text.upper ch
  | .lower => a.cased Text.lower ch

/-- Case conversion of a character. In a single-byte locale only ASCII letters have a case, except
at the end of a conversion. -/
def recase (a : Alphabet) (c : LetterCase) (bytes : Bytes) : Bytes :=
  if c = .asIs then bytes
  else
    match a, Bytes.character? bytes with
    | .unicode, some (ch, _) => Bytes.ofText (String.singleton (c.apply a ch))
    | .unicode, none => bytes
    | .bytes, _ => bytes.map fun b => if b.toNat < 0x80 then c.apply a b else '\xff'

/-- Case conversion of a text, with another one for its first character. A null character ends the
conversion in a multibyte locale. -/
def recased (a : Alphabet) (letters first : LetterCase) (text : Bytes) : Bytes :=
  if letters = .asIs && first = .asIs then text
  else
    let (front, rest) := if a == .unicode then text.span (· ≠ Char.ofNat 0) else (text, [])
    match characters a 0 front with
    | [] => rest
    | c :: cs =>
      recase a (if first = .asIs then letters else first) c ++ cs.flatMap (recase a letters) ++ rest

/-- The text of a capture group. -/
def groupText (subject : Subject) (m : Match) (number : Nat) : Bytes :=
  if number = 0 then subject.slice m.start m.stop
  else
    match m.groups.find? fun g => g.1 == number with
    | some (_, start, stop) => subject.slice start stop
    | none => []

/-- The text of a replacement. A one-shot case conversion of an empty group carries over to the next
piece, and is lost there if that piece has no group. -/
def replacement (subject : Subject) (m : Match) : LetterCase → List Piece → Bytes
  | _, [] => []
  | waiting, p :: ps =>
    let a := subject.alphabet
    let first := if p.first = .asIs then waiting else p.first
    let front := recased a p.letters first p.literal
    let left := if p.literal.isEmpty then first else .asIs
    let text := (p.group.map (groupText subject m)).getD []
    let waits := p.group.isSome && text.isEmpty && p.first ≠ .asIs
    front ++ recased a p.letters left text ++
      replacement subject m (if waits then left else .asIs) ps

/-- The result of `s`: its pieces, reversed, and whether anything was replaced. -/
structure Replaced where
  done : List Bytes
  changed : Bool

/-- Replaces matches from an offset on. `count` matches were found before, and the last one ended at
`lastEnd`. An empty match adjacent to the previous one is skipped. The fuel is the number of
offsets. -/
def replaceFrom (matcher : Matcher) (separator : Char) (sub : Substitution) (subject : Subject) :
    Nat → Nat → Nat → Option Nat → Replaced → Replaced
  | 0, start, _, _, r => { r with done := subject.slice start subject.size :: r.done }
  | bound + 1, start, count, lastEnd, r =>
    match matcher.find? separator subject start with
    | none => { r with done := subject.slice start subject.size :: r.done }
    | some m =>
      let empty := m.start == m.stop
      let counts := !(empty && lastEnd == some m.start)
      let count := if counts then count + 1 else count
      let replaces := counts && sub.number.getD 1 ≤ count
      let done := subject.slice start m.start :: r.done
      let done :=
        if replaces then replacement subject m .asIs sub.pieces :: done
        else subject.slice m.start m.stop :: done
      let changed := r.changed || replaces
      if replaces && !sub.global then ⟨subject.slice m.stop subject.size :: done, changed⟩
      else if empty then
        if m.stop < subject.size then
          replaceFrom matcher separator sub subject bound (m.stop + 1) count (some m.stop)
            ⟨subject.slice m.stop (m.stop + 1) :: done, changed⟩
        else ⟨done, changed⟩
      else replaceFrom matcher separator sub subject bound m.stop count (some m.stop) ⟨done, changed⟩

/-- The debug output of a match. -/
def tellMatch (g : Plan) (subject : Subject) (m : Match) : Running Unit := do
  if g.lists then
    tell g (Bytes.words ["MATCHED REGEX REGISTERS\n"])
    for (number, start, stop) in (0, m.start, m.stop) :: m.groups.mergeSort (fun a b => a.1 ≤ b.1) do
      tell g (Bytes.words ["  regex[", toString number, "] = ", toString start, "-", toString stop,
        " '"] ++ subject.slice start stop ++ ['\x27', '\n'])

/-- The debug output of the pattern space or hold space. -/
def tellSpace (g : Plan) : Running Unit := do
  if g.lists then tell g (Bytes.words ["PATTERN: "] ++ shown (← get).space.text ++ ['\n'])

def tellKept (g : Plan) : Running Unit := do
  if g.lists then tell g (Bytes.words ["HOLD:    "] ++ shown (← get).kept.text ++ ['\n'])

/-- Drops the line separator at the end. -/
def unended (g : Plan) (text : Bytes) : Bytes :=
  if text.getLast? == some g.separator then text.dropLast else text

/-- The regular expression of `s`. That of an address is compiled again when its capture groups are
first needed. -/
def replaced (g : Plan) (sub : Substitution) : Running Matcher := do
  let (m, id) ← meant sub.pattern none
  match id with
  | none => return m
  | some id =>
    if ((← get).renewed.lookup id).isSome then return m
    match Matcher.read ⟨g.extended, m.flags, g.alphabet, g.rules⟩ (g.separator == '\n') m.source with
    | .error e => throw (.fault (.pattern e))
    | .ok m =>
      if m.groups < sub.groups && g.rules == .free then throw (.fault (.reference sub.groups))
      modify fun s => { s with
        renewed := (id, m) :: s.renewed
        lastPattern := some (m, some id) }
      return m

/-- Runs `s` on the pattern space. -/
def substitute (g : Plan) (sub : Substitution) : Running Unit := do
  let matcher ← replaced g sub
  let text := (← get).space.text
  let subject := matcher.subject text
  let mayBeIn := matcher.mayBeIn text
  if g.lists && mayBeIn then
    match matcher.find? g.separator subject 0 with
    | some m => tellMatch g subject m
    | none => pure ()
  let r :=
    if mayBeIn then
      replaceFrom matcher g.separator sub subject (subject.size + 2) 0 0 none ⟨[], false⟩
    else ⟨[], false⟩
  if r.changed then
    modify fun s => { s with
      space := { s.space with text := r.done.reverse.flatten }
      spareEnded := s.space.ended
      changed := true }
    if sub.runs then
      let text ← runCommand g (← get).space.text
      modify fun s => { s with space := { s.space with text := unended g text } }
    if sub.print then putLine g (← get).space
    match sub.file with
    | some name => putFile g name (← get).space
    | none => pure ()
  tellSpace g

/-! ## Functions -/

/-- A byte in the output of `l`. -/
def listed (c : Char) : Bytes :=
  match c with
  | '\\' => ['\\', '\\']
  | '\x07' => ['\\', 'a']
  | '\x08' => ['\\', 'b']
  | '\x0c' => ['\\', 'f']
  | '\n' => ['\\', 'n']
  | '\r' => ['\\', 'r']
  | '\t' => ['\\', 't']
  | '\x0b' => ['\\', 'v']
  | _ => if ' ' ≤ c && c ≤ '~' then [c] else '\\' :: octal c.toNat

/-- The output of `l`, wrapped at a width; `used` columns are used. Width zero does not wrap. -/
def listLines (separator : Char) (width : Nat) : Nat → Bytes → Bytes
  | _, [] => ['$', separator]
  | used, c :: cs =>
    let shown := listed c
    if width ≠ 0 && width - 1 < used + shown.length then
      '\\' :: separator :: shown ++ listLines separator width shown.length cs
    else shown ++ listLines separator width (used + shown.length) cs

/-- The control flow after a command. -/
inductive Next where
  | go
  | jump (place : Nat)
  /-- Ends the cycle; `print` says whether the pattern space is printed. -/
  | endCycle (print : Bool)
  /-- Starts the next cycle. -/
  | nextLine
  /-- Starts a new cycle without reading input (`D`). -/
  | again

/-- The target of a branch; the end of the script without a label. -/
def target (g : Plan) (s : State) (label : Bytes) : Nat :=
  if label.isEmpty then s.steps.size else (g.labels.lookup label).getD s.steps.size

/-- Updates the pattern space. -/
def setSpace (change : Line → Line) : Running Unit :=
  modify fun s => { s with space := change s.space }

/-- Concatenates two lines with a separator. -/
def Line.join (separator : Char) (a b : Line) : Line := ⟨a.text ++ separator :: b.text, b.ended⟩

/-- The pattern space up to the first line feed. -/
def firstLine (g : Plan) (space : Line) : Line :=
  match Stream.cut? g.separator space.text with
  | some (line, _) => ⟨line, true⟩
  | none => space

/-- Runs `e`: outputs the output of the command, or replaces the pattern space by the output of
running it. -/
def runStep (g : Plan) (place : Nat) (command : Bytes) : Running Unit := do
  if command.isEmpty then
    let text ← runCommand g (← get).space.text
    modify fun s => { s with
      space := ⟨unended g text, s.spareEnded⟩
      spareEnded := s.space.ended }
  else
    -- A NUL replaces the final newline of the command, as `--debug` shows.
    let done := command.dropLast ++ [Char.ofNat 0]
    modify fun s => { s with
      steps := s.steps.modify place fun step => { step with action := step.action.withText done } }
    let text ← runCommand g command.dropLast
    endLine g
    raw g text

/-- The image of a character in a `y` table. A byte of an incomplete character is that of the first
entry that starts with it. -/
def exchanged (table : List (Bytes × Bytes)) (c : Bytes) : Bytes :=
  ((table.find? fun (old, _) => old.take c.length == c).map (·.2)).getD c

/-- Runs a selected command. -/
def act (g : Plan) (place : Nat) : Action → Running Next
  | .block _ | .close | .label _ => return .go
  | .append text => do
    modify fun s => { s with queue := s.queue ++ [.text text] }
    return .go
  | .insert text => do
    putText g text
    return .go
  | .change text => do
    match (← get).progress.getD place .before with
    | .within _ => pure ()
    | _ => putText g text
    return .endCycle false
  | .jump label => return .jump (target g (← get) label)
  | .jumpIfChanged label => do
    let s ← get
    if !s.changed then return .go
    set { s with changed := false }
    return .jump (target g s label)
  | .jumpUnlessChanged label => do
    let s ← get
    if !s.changed then return .jump (target g s label)
    set { s with changed := false }
    return .go
  | .delete => return .endCycle false
  | .deleteLine => do
    match Stream.cut? g.separator (← get).space.text with
    | none => return .nextLine
    | some (_, rest) =>
      setSpace fun l => { l with text := rest }
      return .again
  | .fetch => do
    modify fun s => { s with space := s.kept }
    tellKept g
    return .go
  | .fetchMore => do
    modify fun s => { s with space := s.space.join g.separator s.kept }
    tellSpace g
    return .go
  | .keep => do
    modify fun s => { s with kept := s.space }
    tellKept g
    return .go
  | .keepMore => do
    modify fun s => { s with kept := s.kept.join g.separator s.space }
    tellKept g
    return .go
  | .exchange => do
    modify fun s => { s with space := s.kept, kept := s.space }
    tellSpace g
    tellKept g
    return .go
  | .list width => do
    putText g (listLines g.separator ((width.map Int.toNat).getD g.width) 0 (← get).space.text)
    return .go
  | .fill _ => throw (.broken (Bytes.words ["INTERNAL ERROR: Bad cmd L"]))
  | .next => do
    let last ← isLast g
    if !g.quiet then putLine g (← get).space
    if last then return .endCycle false
    discard (readNext g false)
    tellSpace g
    return .go
  | .nextMore => do
    if ← isLast g then
      return .endCycle (g.rules == .free)
    discard (readNext g true)
    tellSpace g
    return .go
  | .print => do
    putLine g (← get).space
    return .go
  | .printLine => do
    putLine g (firstLine g (← get).space)
    return .go
  | .quit status => do
    if !g.quiet then putLine g (← get).space
    flush g
    endLine g
    throw (.quit ((status.getD 0) % 256).toNat)
  | .quitAtOnce status => throw (.quit ((status.getD 0) % 256).toNat)
  | .readFile name => do
    modify fun s => { s with queue := s.queue ++ [.file name] }
    return .go
  | .readFirst name => do
    putContent g name
    return .go
  | .readLine name => do
    match ← nextOf g name with
    | some text => modify fun s => { s with queue := s.queue ++ [.text text] }
    | none => pure ()
    return .go
  | .writeFile name => do
    putFile g name (← get).space
    return .go
  | .writeLine name => do
    putFile g name (firstLine g (← get).space)
    return .go
  | .substitute sub => do
    substitute g sub
    return .go
  | .exchangeLetters table => do
    setSpace fun l =>
      { l with text := (characters g.alphabet 0 l.text).flatMap (exchanged table) }
    tellSpace g
    return .go
  | .lineNumber => do
    putText g ((toString (← get).number).toList ++ ['\n'])
    return .go
  | .fileName => do
    putText g ((← get).name ++ ['\n'])
    return .go
  | .clear => do
    setSpace fun l => { l with text := [] }
    tellSpace g
    return .go
  | .run command => do
    runStep g place command
    return .go

/-! ## Cycles -/

/-- The debug output of a command before it runs. -/
def tellStep (g : Plan) (step : Step) : Running Unit := do
  if g.lists then
    let (text, level) := step.shown g.alphabet (← get).level
    tell g (Bytes.words ["COMMAND: "] ++ text)
    modify fun s => { s with level }

/-- The debug output of an input line. -/
def tellLine (g : Plan) : Running Unit := do
  if g.lists then
    let s ← get
    let name := match s.current with
      | .own => "STDIN".toList
      | _ => s.name
    tell g (Bytes.words ["INPUT:   '"] ++ name ++
      Bytes.words ["' line ", toString s.number, "\n"])
    tellSpace g

/-- Ends a cycle; says whether the space is printed. -/
def endCycle (g : Plan) (print : Bool) : Running Unit := do
  tell g (Bytes.words ["END-OF-CYCLE:\n"])
  if print && !g.quiet then putLine g (← get).space
  flush g

/-- The program counter: a new cycle, a new cycle without input, or a command. -/
inductive Point where
  | line
  | space
  | step (place : Nat)

/-- One step of the run. -/
def advance? (g : Plan) : Point → Running (Option Point)
  | .line => do
    if ← readNext g false then
      tellLine g
      return some (.step 0)
    return none
  | .space => do
    flush g
    tellSpace g
    return some (.step 0)
  | .step place => do
    match (← get).steps[place]? with
    | none =>
      endCycle g true
      return some .line
    | some step =>
      tellStep g step
      if ← isMeant g place step.span then
        match ← act g place step.action with
        | .go => return some (.step (place + 1))
        | .jump target => return some (.step target)
        | .again => return some .space
        | .nextLine => return some .line
        | .endCycle print =>
          endCycle g print
          return some .line
      else
        match step.action with
        | .block stop => return some (.step stop)
        | _ => return some (.step (place + 1))

/-- The end of a run. -/
inductive RunEnd where
  | status (n : Nat)
  | fault (f : Fault)
  | broken (text : Bytes)
  /-- Out of fuel. -/
  | endless

/-- Runs the script from a program counter. -/
def run (g : Plan) : Nat → Point → State → RunEnd × State
  | 0, _, s => (.endless, s)
  | fuel + 1, point, s =>
    match (advance? g point).run s with
    | (.ok (some point), s) => run g fuel point s
    | (.ok none, s) => (.status 0, s)
    | (.error (.quit n), s) => (.status n, s)
    | (.error (.fault f), s) => (.fault f, s)
    | (.error (.broken text), s) => (.broken text, s)

/-- The fuel of a run. -/
def stepLimit : Nat := 20000000

end GraphCodec.Formatter.Edit
