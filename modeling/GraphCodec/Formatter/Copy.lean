import GraphCodec.Formatter.Manual
import GraphCodec.Formatter.Quoting

/-!
# The utilities `cat` and `head`
-/

set_option autoImplicit false

namespace GraphCodec.Formatter

/-! ## The utility `cat` -/

namespace Show

/-- The options `-E`, `-T` and `-v` of `cat`. -/
structure View where
  ends : Bool
  tabs : Bool
  hidden : Bool

/-- A control character in caret notation. -/
def control (c : Char) : Bytes :=
  if c < ' ' then ['^', Char.ofNat (c.toNat + 64)]
  else if c == '\x7f' then ['^', '?']
  else [c]

def View.byte (v : View) (c : Char) : Bytes :=
  if c == '\t' then if v.tabs then ['^', 'I'] else [c]
  else if !v.hidden then [c]
  else if c.toNat < 0x80 then control c
  else 'M' :: '-' :: control (Char.ofNat (c.toNat - 0x80))

/-- A terminated line. -/
def View.line (v : View) (line : Bytes) : Bytes :=
  let body := line.flatMap v.byte
  if v.ends then
    if line.getLast? == some '\r' && !v.hidden then body.dropLast ++ ['^', 'M', '$', '\n']
    else body ++ ['$', '\n']
  else body ++ ['\n']

/-- The options `-n` and `-b`: number no, all or nonblank lines. -/
inductive Numbering where
  | none | filled | all
  deriving DecidableEq

def number (n : Nat) : Bytes :=
  let digits := Nat.toDigits 10 n
  List.replicate (6 - digits.length) ' ' ++ digits ++ ['\t']

/-- The state of `cat`: the last line number, the run of blank lines, and the output, reversed. -/
structure Shown where
  last : Nat
  empty : Nat
  done : List Bytes

/-- Outputs a line; `ended` says whether it is terminated. -/
def Shown.add (s : Shown) (v : View) (numbering : Numbering) (squeeze : Bool) (line : Bytes)
    (ended : Bool) : Shown :=
  if line.isEmpty && squeeze && 1 ≤ s.empty then s
  else
    let numbered := numbering == .all || (numbering == .filled && !line.isEmpty)
    let front := if numbered then number (s.last + 1) else []
    let body := if ended then v.line line else line.flatMap v.byte
    ⟨if numbered then s.last + 1 else s.last, if line.isEmpty then s.empty + 1 else 0,
      (front ++ body) :: s.done⟩

/-- Outputs bytes line by line. -/
def visible (v : View) (numbering : Numbering) (squeeze : Bool) (bytes : Bytes) : Bytes :=
  let pieces := bytes.splitOn '\n'
  let start : Shown := ⟨0, 0, []⟩
  let s := pieces.dropLast.foldl (fun (s : Shown) line => s.add v numbering squeeze line true) start
  let s := match pieces.getLast? with
    | some (c :: cs) => s.add v numbering squeeze (c :: cs) false
    | _ => s
  s.done.reverse.flatten

/-- Outputs successive reads after some content, of which `done` bytes are output. With `-E`, a
carriage return at the end of a read waits for the next byte. -/
def pieces (v : View) (render : Bytes → Bytes) :
    Bytes → Nat → List (Side × Bytes) → List (Side × Bytes)
  | content, done, [] => [(.out, (render content).drop done)]
  | content, done, (.err, bytes) :: rest => (.err, bytes) :: pieces v render content done rest
  | content, done, (.out, bytes) :: rest =>
    let content := content ++ bytes
    let shown := render content
    let waits := v.ends && !v.hidden && content.getLast? == some '\r'
    let shown := if waits then shown.dropLast else shown
    (.out, shown.drop done) :: pieces v render content shown.length rest

def switches : List Switch :=
  [⟨'b', "number-nonblank", .never⟩, ⟨'n', "number", .never⟩, ⟨'s', "squeeze-blank", .never⟩,
    ⟨'v', "show-nonprinting", .never⟩, ⟨'E', "show-ends", .never⟩, ⟨'T', "show-tabs", .never⟩,
    ⟨'A', "show-all", .never⟩, ⟨'e', "", .never⟩, ⟨'t', "", .never⟩, ⟨'u', "", .never⟩] ++
    questionSwitches

end Show

/-- Reads operands in order: their contents and diagnostics, and the rest of standard input. The
output file is not read. -/
def readAll (call : Call) : Bytes → List Bytes → List (Side × Bytes) × Bytes
  | input, [] => ([], input)
  | input, name :: rest =>
    let said (reason : String) : Side × Bytes :=
      (.err, call.message (call.shownName name ++ Bytes.words [": ", reason]))
    match call.operand name with
    | .input =>
      let (pieces, left) := readAll call [] rest
      ((.out, input) :: pieces, left)
    | .bytes bytes _ =>
      let (pieces, left) := readAll call input rest
      let written := call.outFile.isSome && (call.desk.trail name).toOption == call.outFile
      (if written && !bytes.isEmpty then said "input file is output file" else (.out, bytes)) ::
        pieces |> (·, left)
    | .noInput why =>
      let (pieces, left) := readAll call input rest
      (said why.reason :: pieces, left)
    | .none found =>
      let (pieces, left) := readAll call input rest
      (said found.reason :: pieces, left)

/-- The diagnostic of a program that exits with standard input closed. -/
def Call.closing (call : Call) (names : List Bytes) (text : String) : List (Side × Bytes) :=
  if call.noInput == some .closed && names.contains ['-'] then
    [(.err, call.message (Bytes.words [text, ": ", NoInput.closed.reason]))]
  else []

/-- The utility `cat`: concatenates files. -/
def concatenate : Program := fun call =>
  match (readSwitches Show.switches (!call.isStrict) none call.args).checked with
  | .error e => call.refuse e
  | .ok g =>
    match call.answer? .concatenate g with
    | some answer => answer
    | none =>
      if call.drain == .closed then
        call.fail (Bytes.words ["standard output: ", NoInput.closed.reason]) 1
      else
        let names := if g.operands.isEmpty then [['-']] else g.operands
        let (pieces, rest) := readAll call call.input names
        let all := g.has 'A'
        let view : Show.View :=
          ⟨all || g.has 'E' || g.has 'e', all || g.has 'T' || g.has 't',
            all || g.has 'v' || g.has 'e' || g.has 't'⟩
        let numbering : Show.Numbering :=
          if g.has 'b' then .filled else if g.has 'n' then .all else .none
        let plain := !view.ends && !view.tabs && !view.hidden && numbering == .none && !g.has 's'
        let failed := pieces.any fun p => p.1 == .err
        let ending : Ending := .exited (if failed then 1 else 0)
        let closing := call.closing names "closing standard input"
        let shown := if plain then pieces
          else Show.pieces view (Show.visible view numbering (g.has 's')) [] 0 pieces
        ⟨shown ++ closing, rest, [], ending⟩

/-! ## The utility `head` -/

namespace Front

/-- The argument of `-n` or `-c` of `head`: a number of lines or bytes, or all but the last ones. -/
structure Extent where
  bytes : Bool
  allBut : Bool
  count : Nat

/-- The multiplier suffixes of `head`. -/
def multiplier? (suffix : Bytes) : Option Nat :=
  match suffix with
  | [] => some 1
  | ['b'] => some 512
  | c :: rest =>
    let power := match c with
      | 'k' | 'K' => some 1
      | 'm' | 'M' => some 2
      | 'G' => some 3
      | 'T' => some 4
      | 'P' => some 5
      | 'E' => some 6
      | 'Z' => some 7
      | 'Y' => some 8
      | _ => none
    match power, rest with
    | some p, [] => some (Nat.pow 1024 p)
    | some p, ['i', 'B'] => some (Nat.pow 1024 p)
    | some p, ['B'] | some p, ['D'] => some (Nat.pow 1000 p)
    | _, _ => none

/-- Parses the argument of `-n` or `-c`. -/
def extent (call : Call) (bytes : Bool) (text : Bytes) : Except Bytes Extent :=
  let allBut := text.head? == some '-'
  let number := if allBut then text.tail else text
  let unit := if bytes then "bytes" else "lines"
  let blankless := number.dropWhile fun c => c == ' ' || ('\t' ≤ c && c ≤ '\r')
  let unsigned := if blankless.head? == some '+' then blankless.tail else blankless
  let digits := unsigned.takeWhile Char.isDigit
  let suffix := unsigned.drop digits.length
  let fault : Bytes := Bytes.words ["invalid number of ", unit, ": "] ++ call.spoken number
  let one := digits.isEmpty && !suffix.isEmpty && unsigned.length = number.length
  if digits.isEmpty && !one then .error fault
  else
    match multiplier? suffix with
    | none => .error fault
    | some m =>
      let n := if digits.isEmpty then 1 else digits.foldl (fun n c => n * 10 + (c.toNat - '0'.toNat)) 0
      if 0x10000000000000000 ≤ n * m then
        .error (fault ++ Bytes.words [": Value too large for defined data type"])
      else .ok ⟨bytes, allBut, n * m⟩

/-- The lines with their terminators. -/
def endedLines (separator : Char) (bytes : Bytes) : List Bytes :=
  let pieces := bytes.splitOn separator
  let full := pieces.dropLast.map fun p => p ++ [separator]
  match pieces.getLast? with
  | some (c :: cs) => full ++ [c :: cs]
  | _ => full

/-- The first part of a file, and the rest. Lines are read in blocks, and the excess is given back
only if the input is seekable. -/
def Extent.cut (e : Extent) (separator : Char) (givesBack : Bool) (bytes : Bytes) : Bytes × Bytes :=
  let (front, left) := take e separator bytes
  (front, if givesBack then bytes.drop front.length else left)
where
  /-- The first part, and the rest after the last block. -/
  take (e : Extent) (separator : Char) (bytes : Bytes) : Bytes × Bytes :=
    if e.bytes then
      if e.allBut then (bytes.take (bytes.length - e.count), [])
      else (bytes.take e.count, bytes.drop e.count)
    else
      let lines := endedLines separator bytes
      if e.allBut then ((lines.take (lines.length - e.count)).flatten, [])
      else if e.count = 0 then ([], bytes)
      else
        let front := (lines.take e.count).flatten
        let taken := if lines.length < e.count then bytes.length else front.length
        (front, bytes.drop ((taken + 8191) / 8192 * 8192))

def switches : List Switch :=
  [⟨'c', "bytes", .always⟩, ⟨'n', "lines", .always⟩, ⟨'π', "-presume-input-pipe", .never⟩,
    ⟨'q', "quiet", .never⟩, ⟨'q', "silent", .never⟩, ⟨'v', "verbose", .never⟩,
    ⟨'z', "zero-terminated", .never⟩] ++
    questionSwitches ++ "0123456789".toList.map fun c => ⟨c, "", .never⟩

/-- Translates the obsolete option syntax `-number`. -/
def short? (args : List Bytes) : Except Bytes (List Bytes) :=
  match args with
  | ('-' :: c :: cs) :: rest =>
    if !c.isDigit then .ok args
    else
      let digits := (c :: cs).takeWhile Char.isDigit
      let letters := (c :: cs).drop digits.length
      match letters.find? fun l => !"bkmclqvz".toList.contains l with
      | some l => .error (Bytes.words ["invalid trailing option -- "] ++ [l])
      | none =>
        let unit := match (letters.filter fun l => "bkmcl".toList.contains l).getLast? with
          | none | some 'l' => 'n'
          | some _ => 'c'
        let size := ((letters.filter fun l => "bkmc".toList.contains l).getLast?).filter (· ≠ 'c')
        let flags := letters.filter fun l => "qvz".toList.contains l
        .ok (('-' :: unit :: (digits ++ size.toList)) :: (flags.map fun l => ['-', l]) ++ rest)
  | _ => .ok args

/-- The output of a list of operands: headers and first parts, or diagnostics. -/
def files (call : Call) (e : Extent) (separator : Char) (headers : Bool) :
    Bool → Bytes → List Bytes → List (Side × Bytes) × Bytes
  | _, input, [] => ([], input)
  | first, input, name :: rest =>
    let header (title : Bytes) : Bytes :=
      if headers then (if first then [] else ['\n']) ++ Bytes.words ["==> "] ++ title ++
        Bytes.words [" <==\n"]
      else []
    let title := if name == ['-'] then Bytes.words ["standard input"] else name
    let unread (reason : String) : List (Side × Bytes) × Bytes :=
      let (more, left) := files call e separator headers false input rest
      let fault := if e.allBut && reason == NoInput.closed.reason then "cannot fstat "
        else "error reading "
      let said := if !e.allBut && e.count = 0 then []
        else [(Side.err, call.message (Bytes.words [fault] ++ call.quotedName title ++
          Bytes.words [": ", reason]))]
      ((.out, header title) :: said ++ more, left)
    match call.operand name with
    | .input =>
      let (front, left) := e.cut separator call.inputFile.isSome input
      let (more, left) := files call e separator headers false left rest
      ((.out, header title ++ front) :: more, left)
    | .bytes bytes _ =>
      let (more, left) := files call e separator headers false input rest
      ((.out, header name ++ (e.cut separator false bytes).1) :: more, left)
    | .noInput why => unread why.reason
    | .none .directory => unread Found.directory.reason
    | .none found =>
      let (more, left) := files call e separator headers first input rest
      ((.err, call.message (Bytes.words ["cannot open "] ++ call.quotedName name ++
        Bytes.words [" for reading: ", found.reason])) :: more, left)

/-- The effective `-n` or `-c`. Option-arguments are validated in order. -/
def extentOf (call : Call) (g : Given) : Except Outcome Extent := do
  let counted (bytes : Bool) (text : Bytes) : Except Outcome Extent :=
    (extent call bytes text).mapError fun e => call.fail e 1
  let e ← g.options.foldlM (fun (e : Extent) (c, value) =>
    match c, value with
    | 'n', some text => counted false text
    | 'c', some text => counted true text
    | _, _ =>
      if c.isDigit then
        .error (call.refuse (Bytes.words ["invalid trailing option -- "] ++ [c]))
      else .ok e) (Extent.mk false false 10)
  match g.fault, call.answer? .copyFront g with
  | some fault, _ => throw (call.refuse fault)
  | none, some answer => throw answer
  | none, none =>
    -- File sizes have 63 bits.
    if e.bytes && e.allBut && 0x8000000000000000 ≤ e.count then
      throw (call.fail (Bytes.words ["invalid number of bytes: "] ++
        call.spoken (Nat.toDigits 10 e.count) ++
        Bytes.words [": Value too large for defined data type"]) 1)
    return e

end Front

/-- The utility `head`: copies the first part of files. -/
def copyFront : Program := fun call =>
  match Front.short? call.args with
  | .error e => call.refuse e
  | .ok args =>
    let g := readSwitches Front.switches (!call.isStrict) none args
    match Front.extentOf call g with
    | .error outcome => outcome
    | .ok e =>
      let names := if g.operands.isEmpty then [['-']] else g.operands
      let asked := (g.options.filter fun o => o.1 == 'q' || o.1 == 'v').getLast?.map (·.1)
      let headers := asked == some 'v' || (asked != some 'q' && 1 < names.length)
      let separator := if g.has 'z' then Char.ofNat 0 else '\n'
      let (pieces, rest) := Front.files call e separator headers true call.input names
      let pieces := pieces ++ call.closing names "-"
      let failed := pieces.any fun p => p.1 == .err
      ⟨pieces, rest, [], .exited (if failed then 1 else 0)⟩

end GraphCodec.Formatter
