import GraphCodec.Formatter.Copy
import GraphCodec.Formatter.Letters
import GraphCodec.Text.Width

/-!
# The utility `wc`
-/

set_option autoImplicit false

namespace GraphCodec.Formatter

namespace Count

structure Counts where
  lines : Nat
  words : Nat
  chars : Nat
  bytes : Nat
  width : Nat

def Counts.zero : Counts := ⟨0, 0, 0, 0, 0⟩

/-- The total of several files; the line width is a maximum. -/
def Counts.add (a b : Counts) : Counts :=
  ⟨a.lines + b.lines, a.words + b.words, a.chars + b.chars, a.bytes + b.bytes, max a.width b.width⟩

/-- The no-break spaces, which separate words unless `POSIXLY_CORRECT` is set. -/
def isJoiner (c : Char) : Bool := [0xA0, 0x2007, 0x202F, 0x2060].contains c.toNat

/-- The state of `wc`: the counts, whether a word is open, and the column. -/
structure State where
  counts : Counts
  inWord : Bool
  column : Nat

namespace State

/-- Ends a word. -/
def endWord (s : State) : State :=
  { s with
    counts := { s.counts with words := s.counts.words + if s.inWord then 1 else 0 }
    inWord := false }

/-- Updates the maximum line width. -/
def endWidth (s : State) : State :=
  { s with counts := { s.counts with width := max s.counts.width s.column }, column := 0 }

/-- Counts a character. -/
def char (alphabet : Alphabet) (joined : Bool) (s : State) (c : Char) : State :=
  let s := { s with counts := { s.counts with chars := s.counts.chars + 1 } }
  match c with
  | '\n' =>
    let s := s.endWord.endWidth
    { s with counts := { s.counts with lines := s.counts.lines + 1 } }
  | '\r' | '\x0c' => s.endWord.endWidth
  | '\t' => { s.endWord with column := s.column / 8 * 8 + 8 }
  | ' ' => { s.endWord with column := s.column + 1 }
  | '\x0b' => s.endWord
  | _ =>
    if !alphabet.has Text.isMeaningful c then s
    else
      let s := { s with column := s.column + Text.columns c }
      if Letters.isSpace c || (!joined && isJoiner c) then s.endWord else { s with inWord := true }

end State

/-- Counts bytes; `skip` of them belong to the current character. -/
def run (alphabet : Alphabet) (joined : Bool) : Nat → State → Bytes → State
  | _, s, [] => s.endWord.endWidth
  | skip + 1, s, _ :: cs => run alphabet joined skip s cs
  | 0, s, c :: cs =>
    if alphabet == .bytes then run alphabet joined 0 (s.char alphabet joined c) cs
    else
      match Bytes.character? (c :: cs) with
      | some (d, size) => run alphabet joined (size - 1) (s.char alphabet joined d) cs
      | none => run alphabet joined 0 s cs

def count (call : Call) (bytes : Bytes) : Counts :=
  { (run call.alphabet call.isStrict 0 ⟨.zero, false, 0⟩ bytes).counts with bytes := bytes.length }

/-- The options that select counts. -/
structure Columns where
  lines : Bool
  words : Bool
  chars : Bool
  bytes : Bool
  width : Bool

def Columns.values (c : Columns) (n : Counts) : List Nat :=
  (if c.lines then [n.lines] else []) ++ (if c.words then [n.words] else []) ++
    (if c.chars then [n.chars] else []) ++ (if c.bytes then [n.bytes] else []) ++
    (if c.width then [n.width] else [])

/-- A line of output. -/
def line (c : Columns) (width : Nat) (n : Counts) (title : Option Bytes) : Bytes :=
  let cell (k : Nat) : Bytes :=
    let digits := Nat.toDigits 10 k
    List.replicate (width - digits.length) ' ' ++ digits
  [' '].intercalate ((c.values n).map cell) ++
    (title.map fun t => ' ' :: t).getD [] ++ ['\n']

/-- The internal letter of `--files0-from`. -/
def namesLetter : Char := 'ν'

def switches : List Switch :=
  [⟨'c', "bytes", .never⟩, ⟨'m', "chars", .never⟩, ⟨'l', "lines", .never⟩, ⟨'w', "words", .never⟩,
    ⟨'δ', "debug", .never⟩, ⟨namesLetter, "files0-from", .always⟩,
    ⟨'L', "max-line-length", .never⟩] ++ questionSwitches

/-! ## Files -/

/-- The origin of the operands: the arguments, none, or `--files0-from`. -/
inductive Origin where
  | arguments
  | nowhere
  | file (name : Bytes)
  | stream (name : Bytes)
  deriving DecidableEq

/-- The argument of `--files0-from`. -/
def Origin.name? : Origin → Option Bytes
  | .arguments | .nowhere => none
  | .file name | .stream name => some name

/-- The result of an operand: its counts and a diagnostic. -/
structure Report where
  message : Option Bytes
  counts : Option Counts

/-- Counts one operand, and returns the rest of standard input. -/
def report (call : Call) (origin : Origin) (input : Bytes) (number : Nat) (name : Bytes) :
    Report × Bytes :=
  let said (text : Bytes) : Option Bytes := some (call.message text)
  let title := if origin == .nowhere then "standard input".toList else name
  let unread (reason : String) (counts : Option Counts) : Report × Bytes :=
    (⟨said (call.shownName title ++ Bytes.words [": ", reason]), counts⟩, input)
  if name == ['-'] && origin.name? == some ['-'] then
    (⟨said (Bytes.words ["when reading file names from stdin, no file name of "] ++
      call.quotedName name ++ Bytes.words [" allowed"]), none⟩, input)
  else if name.isEmpty then
    let front := match origin.name? with
      | some list => call.shownName list ++ Bytes.words [":", toString number, ": "]
      | none => []
    (⟨said (front ++ Bytes.words ["invalid zero-length file name"]), none⟩, input)
  else
    match call.operand name with
    | .input => (⟨none, some (count call input)⟩, [])
    | .bytes bytes _ => (⟨none, some (count call bytes)⟩, input)
    | .noInput why => unread why.reason (some .zero)
    | .none .directory => unread Found.directory.reason (some .zero)
    | .none found => unread found.reason none

/-- Counts a list of operands, and returns the rest of standard input. -/
def reports (call : Call) (origin : Origin) :
    Nat → Bytes → List Bytes → List (Bytes × Report) × Bytes
  | _, input, [] => ([], input)
  | number, input, name :: rest =>
    let (r, left) := report call origin input number name
    let (more, left) := reports call origin (number + 1) left rest
    ((name, r) :: more, left)

/-- The field width: that of the total size of regular files, and at least seven with other
files. -/
def cellWidth (call : Call) (columns : Columns) (names : List Bytes) : Nat :=
  if names.length ≤ 1 && (columns.values .zero).length ≤ 1 then 1
  else
    let size (name : Bytes) : Option Nat :=
      match call.operand name with
      | .bytes bytes true => some bytes.length
      | .input => call.inputFile.map List.length
      | .noInput .closed => some 0
      | .none .directory => none
      | .none _ => some 0
      | _ => none
    let total := (Nat.toDigits 10 (names.foldl (fun k n => k + (size n).getD 0) 0)).length
    if names.any fun n => (size n).isNone then max 7 total else total

/-- The operands, their origin, and the rest of standard input. -/
def namesOf (call : Call) (g : Given) : Except Outcome (List Bytes × Origin × Bytes) :=
  match (g.options.filter fun o => o.1 == namesLetter).getLast?.bind (·.2) with
  | none =>
    .ok (if g.operands.isEmpty then ([['-']], .nowhere, call.input)
      else (g.operands, .arguments, call.input))
  | some list =>
    let cut (bytes : Bytes) : List Bytes :=
      let pieces := bytes.splitOn (Char.ofNat 0)
      if pieces.getLast? == some [] then pieces.dropLast else pieces
    match g.operands.head? with
    | some extra =>
      .error (call.refuse (Bytes.words ["extra operand "] ++ call.quotedName extra ++
        Bytes.words ["\nfile operands cannot be combined with --files0-from"]))
    | none =>
      let failed (text : Bytes) (reason : String) : Except Outcome (List Bytes × Origin × Bytes) :=
        .error (call.fail (text ++ Bytes.words [": ", reason]) 1)
      match call.operand list with
      | .input => .ok (cut call.input, if call.inputFile.isSome then .file list else .stream list, [])
      | .bytes bytes true => .ok (cut bytes, .file list, call.input)
      | .bytes bytes false => .ok (cut bytes, .stream list, call.input)
      | .noInput why => failed (call.shownName list ++ Bytes.words [": read error"]) why.reason
      | .none .directory =>
        failed (call.shownName list ++ Bytes.words [": read error"]) Found.directory.reason
      | .none found =>
        failed (Bytes.words ["cannot open "] ++ call.quotedName list ++
          Bytes.words [" for reading"]) found.reason

end Count

/-- The utility `wc`: counts lines, words, characters and bytes. -/
def countAll : Program := fun call =>
  match (readSwitches Count.switches (!call.isStrict) none call.args).checked with
  | .error e => call.refuse e
  | .ok g =>
    match call.answer? .countAll g, Count.namesOf call g with
    | some answer, _ => answer
    | none, .error refusal => refusal
    | none, .ok (names, origin, input) =>
      let default := !("cmlwL".toList.any g.has)
      let columns : Count.Columns :=
        ⟨default || g.has 'l', default || g.has 'w', g.has 'm', default || g.has 'c', g.has 'L'⟩
      let width := match origin with
        | .stream _ => 1
        | _ => Count.cellWidth call columns names
      let (results, rest) := Count.reports call origin 1 input names
      let title (name : Bytes) : Option Bytes :=
        if origin == .nowhere then none
        else some (if name.contains '\n' then call.shownName name else name)
      let pieces := results.flatMap fun (name, r) =>
        (r.message.map fun m => (Side.err, m)).toList ++
          (r.counts.map fun n => (Side.out, Count.line columns width n (title name))).toList
      let total := results.foldl (fun t (_, r) => t.add (r.counts.getD .zero)) Count.Counts.zero
      let last := if 1 < names.length then
          [(Side.out, Count.line columns width total (some (Bytes.words ["total"])))]
        else []
      let closing := call.closing names "-"
      let failed := (pieces ++ closing).any fun p => p.1 == .err
      ⟨pieces ++ last ++ closing, rest, [], .exited (if failed then 1 else 0)⟩

end GraphCodec.Formatter
