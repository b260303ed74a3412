import GraphCodec.Formatter.Edit.Listing
import GraphCodec.Formatter.Edit.Reader

/-!
# The state of `sed`

The input and output files, and the pattern and hold space.
-/

set_option autoImplicit false

namespace GraphCodec.Formatter.Edit

/-- A line, and whether it is terminated. -/
structure Line where
  text : Bytes
  ended : Bool

/-! ## Input files -/

/-- An input stream with its read-ahead. -/
structure Stream where
  ahead : Bytes
  rest : Bytes

namespace Stream

/-- A stream of a file, without read-ahead. -/
def ofFile (bytes : Bytes) : Stream := ⟨bytes, []⟩

/-- The first terminated line and the rest. -/
def cut? (separator : Char) (bytes : Bytes) : Option (Bytes × Bytes) :=
  let line := bytes.takeWhile (· ≠ separator)
  match bytes.drop line.length with
  | [] => none
  | _ :: rest => some (line, rest)

/-- Reads a line through a buffer of a block size. -/
def next? (separator : Char) (block : Nat) (s : Stream) : Option (Line × Stream) :=
  match cut? separator s.ahead with
  | some (line, ahead) => some (⟨line, true⟩, { s with ahead })
  | none =>
    match cut? separator s.rest with
    | some (line, rest) =>
      let taken := line.length + 1
      let blocks := (taken + block - 1) / block * block
      some (⟨s.ahead ++ line, true⟩, ⟨rest.take (blocks - taken), rest.drop (blocks - taken)⟩)
    | none =>
      let text := s.ahead ++ s.rest
      if text.isEmpty then none else some (⟨text, false⟩, ⟨[], []⟩)

/-- Fills an empty buffer. -/
def look (block : Nat) (s : Stream) : Stream :=
  if s.ahead.isEmpty then ⟨s.rest.take block, s.rest.drop block⟩ else s

end Stream

/-- The current input file. -/
inductive Current where
  | closed
  /-- Standard input. -/
  | own
  | file (stream : Stream)
  /-- A file that cannot be read. -/
  | broken (reason : String)

/-! ## Output files -/

/-- The destination of output: standard output, buffered in blocks, or standard error. Debug output
goes to standard output as well. -/
inductive Channel where
  | main
  | told
  | err
  deriving DecidableEq

/-- The order in which buffered output reaches its destinations, given the buffer, reversed:
standard output is flushed in blocks and before output to standard error, and the rest remains.
Blocks of one byte are unbuffered, but debug output waits for them. -/
def settle (block : Nat) : List Bytes → List (Channel × Bytes) → List (Side × Bytes) × Bytes
  | waiting, [] => ([], waiting.reverse.flatten)
  | waiting, (.told, bytes) :: rest => settle block (bytes :: waiting) rest
  | waiting, (.main, bytes) :: rest =>
    if block = 1 then
      let (more, left) := settle block [] rest
      ((.out, (bytes :: waiting).reverse.flatten) :: more, left)
    else settle block (bytes :: waiting) rest
  | waiting, (.err, bytes) :: rest =>
    let all := waiting.reverse.flatten
    let whole := if block = 1 then 0 else all.length / block * block
    let (more, left) := settle block [all.drop whole] rest
    (if whole = 0 then (.err, bytes) :: more else (.out, all.take whole) :: (.err, bytes) :: more,
      left)

/-- An output file, and whether its last line is unterminated. -/
structure Sink where
  content : List Bytes
  unended : Bool

/-! ## States -/

/-- The state of a range of two addresses: inactive, active up to a line if that is known, or
closed. -/
inductive Progress where
  | before
  | within (stop : Nat)
  | behind
  deriving DecidableEq

/-- An address of a command, by its index. -/
structure AddressId where
  place : Nat
  isStop : Bool
  deriving DecidableEq

/-- The output queued for the end of the cycle. -/
inductive Queued where
  | text (bytes : Bytes)
  | file (name : Bytes)

structure State where
  /-- Standard input. -/
  own : Stream
  current : Current
  /-- The name of the current input file. -/
  name : Bytes
  /-- The remaining input files. -/
  later : List Bytes
  /-- Whether line numbers and ranges restart with the next file (`-s`, `-i`). -/
  restarts : Bool
  /-- Whether some input file could not be read. -/
  failed : Bool
  number : Nat
  space : Line
  kept : Line
  /-- Whether the output of a command that replaces the pattern space is terminated. -/
  spareEnded : Bool
  steps : Array Step
  progress : Array Progress
  queue : List Queued
  /-- The output, reversed. -/
  written : List (Channel × Bytes)
  /-- The output of the file that is edited in place, reversed. -/
  product : List Bytes
  /-- Whether the last output line is unterminated. -/
  unended : Bool
  sinks : List (Bytes × Sink)
  /-- The streams of the files of `R`. -/
  readers : List (Bytes × Stream)
  changed : Bool
  /-- The last regular expression, with the address it is from. -/
  lastPattern : Option (Matcher × Option AddressId)
  /-- The regular expressions of addresses that were compiled again for their capture groups. -/
  renewed : List (AddressId × Matcher)
  desk : Desk
  /-- The contents of written files. -/
  files : List (Bytes × Bytes)
  /-- The contents of files before they were edited in place. -/
  replaced : List (Bytes × Bytes)
  /-- The indentation of the next command in the debug output. -/
  level : Int

/-- The parameters of a run. -/
structure Plan where
  call : Call
  /-- The shell of `e`. -/
  shell : Program
  labels : List (Bytes × Nat)
  quiet : Bool
  width : Nat
  /-- The line separator. -/
  separator : Char
  /-- The buffer size. -/
  block : Nat
  rules : Rules
  /-- The option `-E`. -/
  extended : Bool
  alphabet : Alphabet
  /-- The option `--debug`. -/
  lists : Bool
  separate : Bool
  /-- The option `-i` with its backup suffix. -/
  inPlace : Option Bytes
  /-- The option `--follow-symlinks`. -/
  follows : Bool

/-- The initial states of the ranges. -/
def startProgress (steps : Array Step) : Array Progress :=
  steps.map fun step =>
    match step.span.start with
    | some (.line 0) => .within 0
    | _ => .before

/-- The reasons to exit. -/
inductive Stop where
  | fault (f : Fault)
  /-- An input or output error. -/
  | broken (text : Bytes)
  | quit (status : Nat)

/-- The monad of a run. -/
abbrev Running := ExceptT Stop (StateM State)

/-! ## Writing -/

/-- Writes bytes to standard output. -/
def raw (g : Plan) (bytes : Bytes) : Running Unit :=
  modify fun s =>
    if g.inPlace.isSome then { s with product := bytes :: s.product }
    else { s with written := (.main, bytes) :: s.written }

/-- Writes debug output. -/
def tell (g : Plan) (bytes : Bytes) : Running Unit := do
  if g.lists then modify fun s => { s with written := (.told, bytes) :: s.written }

/-- Writes bytes to standard error. -/
def warn (bytes : Bytes) : Running Unit :=
  modify fun s => { s with written := (.err, bytes) :: s.written }

/-- Terminates the last output line. -/
def endLine (g : Plan) : Running Unit := do
  if (← get).unended then
    raw g [g.separator]
    modify fun s => { s with unended := false }

/-- Writes a line. -/
def putLine (g : Plan) (line : Line) : Running Unit := do
  endLine g
  raw g line.text
  if line.ended then raw g [g.separator] else modify fun s => { s with unended := true }

/-- Writes a terminated text. -/
def putText (g : Plan) (text : Bytes) : Running Unit := do
  endLine g
  raw g (if text.isEmpty then [] else text.dropLast ++ [g.separator])

/-- The standard stream of an output file name. Unbuffered, a file that is the same is treated
alike. -/
def channel? (g : Plan) (name : Bytes) : Option Channel :=
  if g.rules ≠ .free && g.block ≠ 1 then none
  else if name == "/dev/stdout".toList then some .main
  else if name == "/dev/stderr".toList then some .err
  else none

/-- Writes a line to an output file. -/
def putFile (g : Plan) (name : Bytes) (line : Line) : Running Unit :=
  modify fun s =>
    let sink := (s.sinks.lookup name).getD ⟨[], false⟩
    let bytes := (if sink.unended then [g.separator] else []) ++ line.text ++
      if line.ended then [g.separator] else []
    let content := bytes :: sink.content
    let s := { s with
      sinks := (name, ⟨content, !line.ended⟩) :: s.sinks.filter fun f => f.1 ≠ name }
    match channel? g name with
    | some channel => { s with written := (channel, bytes) :: s.written }
    | none =>
      if g.block = 1 then { s with desk := s.desk.put name content.reverse.flatten } else s

/-! ## Files -/

/-- The current content of a file. -/
def sourceOf (g : Plan) (name : Bytes) : Running Source :=
  return { g.call with desk := (← get).desk }.source name

/-- Exits with a read error. -/
def cannotRead {α : Type} (name : Bytes) (reason : String) : Running α :=
  throw (.broken (Bytes.words ["read error on "] ++ name ++ Bytes.words [": ", reason]))

/-- Copies a file to the output (`r`). A missing file is empty. -/
def putContent (g : Plan) (name : Bytes) : Running Unit := do
  match ← sourceOf g name with
  | .bytes content _ => raw g content
  | .input =>
    let own := (← get).own
    raw g own.rest
    modify fun s => { s with own := { own with rest := [] } }
  | .noInput why => cannotRead name why.reason
  | .none .directory => cannotRead name Found.directory.reason
  | .none _ => return ()

/-- Flushes the output queued for the end of the cycle. -/
def flush (g : Plan) : Running Unit := do
  for q in (← get).queue do
    endLine g
    match q with
    | .text bytes => raw g bytes
    | .file name => putContent g name
  modify fun s => { s with queue := [] }

/-- The backup name of a file: a suffix, or a pattern in which `*` is the base name. -/
def backupName (pattern name : Bytes) : Bytes :=
  let base := (name.splitOn '/').getLastD []
  let kept := pattern.flatMap fun c => if c == '*' then base else [c]
  if kept.contains '/' then kept else name.take (name.length - base.length) ++ kept

/-- Closes the current input file. With `-i` it is replaced by its output. -/
def closeCurrent (g : Plan) : Running Unit :=
  modify fun s =>
    match s.current, g.inPlace with
    | .closed, _ => s
    | _, none => { s with current := .closed, restarts := g.separate }
    | _, some pattern =>
      let old := match s.desk.find s.name with
        | .content bytes => bytes
        | _ => []
      let files := (if pattern == ['*'] then [] else [(backupName pattern s.name, old)]) ++
        [(s.name, s.product.reverse.flatten)]
      { s with
        current := .closed
        restarts := true
        product := []
        unended := false
        files := s.files ++ files
        replaced := s.replaced ++ [(s.name, old)]
        desk := s.desk.putAll files }

/-- Opens the next readable input file. -/
def openNext (g : Plan) : Running Unit := do
  match (← get).later with
  | [] => return ()
  | name :: later =>
    modify fun s => { s with later, name }
    let opened (current : Current) : Running Unit := modify fun s => { s with current }
    let unread (found : Found) : Running Unit := do
      warn (g.call.message (Bytes.words ["can't read "] ++ name ++ Bytes.words [": ", found.reason]))
      modify fun s => { s with failed := true }
    let unfollowed (found : Found) : Running Unit :=
      throw (.broken (Bytes.words ["couldn't readlink "] ++ name ++
        Bytes.words [": ", found.reason]))
    let irregular : Running Unit :=
      throw (.broken (Bytes.words ["couldn't edit "] ++ name ++ Bytes.words [": not a regular file"]))
    let source ←
      if name == ['-'] && g.inPlace.isNone then pure g.call.ownInput else sourceOf g name
    match source, g.inPlace with
    | .bytes content true, _ => opened (.file (.ofFile content))
    | .none .directory, none => opened (.broken Found.directory.reason)
    | .none .directory, some _ => irregular
    | .none found, _ => if g.follows then unfollowed found else unread found
    | _, some _ => irregular
    | .bytes content false, none => opened (.file (.ofFile content))
    | .input, none => opened .own
    | .noInput why, none => opened (.broken why.reason)

/-- Reads a line of the current input file. -/
def takeLine? (g : Plan) : Running (Option Line) := do
  let s ← get
  match s.current with
  | .closed => return none
  | .own =>
    match s.own.next? g.separator g.block with
    | some (line, own) => do set { s with own }; return some line
    | none => return none
  | .file stream =>
    match stream.next? g.separator g.block with
    | some (line, stream) => do set { s with current := .file stream }; return some line
    | none => return none
  | .broken reason => cannotRead (if s.name == ['-'] then "stdin".toList else s.name) reason

/-- Restarts line numbers and ranges for the next file. -/
def restart : Running Unit := do
  if (← get).restarts then
    modify fun s => { s with
      number := 0
      kept := ⟨[], true⟩
      progress := startProgress s.steps
      readers := []
      restarts := false }

/-- Reads the next line of the remaining input files; their number is the fuel. -/
def takeFrom (g : Plan) : Nat → Running (Option Line)
  | 0 => return none
  | bound + 1 => do
    match ← takeLine? g with
    | some line => return some line
    | none =>
      closeCurrent g
      if (← get).later.isEmpty then return none
      restart
      openNext g
      takeFrom g bound

/-- Reads the next line into the pattern space, or appends it if `more`. Returns whether there was
one. -/
def readNext (g : Plan) (more : Bool) : Running Bool := do
  flush g
  modify fun s => { s with changed := false }
  match ← takeFrom g ((← get).later.length + 2) with
  | none => return false
  | some line =>
    modify fun s => { s with
      number := s.number + 1
      space := if more then ⟨s.space.text ++ g.separator :: line.text, line.ended⟩ else line }
    return true

/-- Whether the current input file is at its end. -/
def isDrained (g : Plan) : Running Bool := do
  let s ← get
  match s.current with
  | .closed | .broken _ => return true
  | .own =>
    let own := s.own.look g.block
    set { s with own }
    return own.ahead.isEmpty
  | .file stream => return (stream.ahead.isEmpty && stream.rest.isEmpty)

/-- Whether the remaining input files are empty; opens the first one that is not. -/
def noneLater (g : Plan) : Nat → Running Bool
  | 0 => return true
  | bound + 1 => do
    closeCurrent g
    if (← get).later.isEmpty then return true
    openNext g
    if ← isDrained g then noneLater g bound else return false

/-- Whether the current line is the last one (`$`). -/
def isLast (g : Plan) : Running Bool := do
  if ← isDrained g then
    if g.separate then return true
    noneLater g ((← get).later.length + 1)
  else return false

/-- The next line of a file of `R`. It was opened before any file was edited in place. -/
def nextOf (g : Plan) (name : Bytes) : Running (Option Bytes) := do
  let ended (line : Line) : Bytes := if line.ended then line.text ++ [g.separator] else line.text
  let taken (stream : Stream) : Running (Option Bytes) :=
    match stream.next? g.separator g.block with
    | some (line, stream) => do
      modify fun s => { s with readers := (name, stream) :: s.readers.filter fun r => r.1 ≠ name }
      return some (ended line)
    | none => return none
  let s ← get
  match s.readers.lookup name, s.replaced.lookup name with
  | some stream, _ => taken stream
  | none, some content => taken (.ofFile content)
  | none, none =>
    match ← sourceOf g name with
    | .bytes content _ => taken (.ofFile content)
    | .input =>
      match (← get).own.next? g.separator g.block with
      | some (line, own) => do
        modify fun s => { s with own }
        return some (ended line)
      | none => return none
    | .noInput why => cannotRead name why.reason
    | .none .directory => cannotRead name Found.directory.reason
    | .none _ => return none

/-! ## The function `e` -/

/-- Runs a shell command on the rest of standard input and returns its output. A null character ends
the command. -/
def runCommand (g : Plan) (command : Bytes) : Running Bytes := do
  let s ← get
  let o := g.shell { g.call with
    name := "sh".toList
    args := ["-c".toList, command.takeWhile (· ≠ Char.ofNat 0)]
    desk := s.desk
    input := s.own.rest
    inputFile := none
    drain := .taken
    outFile := none }
  let said := o.written.filterMap fun (side, bytes) =>
    if side = .err then some (Channel.err, bytes) else none
  set { s with
    own := { s.own with rest := o.rest }
    desk := s.desk.putAll o.files
    files := s.files ++ o.files
    written := said.reverse ++ s.written }
  return o.on .out

end GraphCodec.Formatter.Edit
