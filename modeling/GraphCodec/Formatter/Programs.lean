import GraphCodec.Formatter.Count
import GraphCodec.Formatter.Edit.Editor
import GraphCodec.Formatter.Exchange
import GraphCodec.Formatter.Print

/-!
# The table of utilities

The utilities other than the shell, with the write errors of their standard output.
-/

set_option autoImplicit false

namespace GraphCodec.Formatter

/-- The utilities `true` and `false`. -/
def idle (manual : Manual) (status : Nat) : Program := fun call =>
  match call.onlyAnswer? manual with
  | some answer => { answer with ending := .exited status }
  | none => ⟨[], call.input, [], .exited status⟩

/-- Whether an operand of `sleep` is a number with an optional unit. -/
def isInterval (text : Bytes) : Bool :=
  let r := Real.read .extended text
  let negative := match r.value with
    | .finite negative num _ => negative && num ≠ 0
    | .infinite negative => negative
    | .undefined _ => true
  r.any && !negative &&
    match r.rest with
    | [] => true
    | [c] => "smhd".toList.contains c
    | _ => false

/-- The utility `sleep`, which takes no time here. -/
def sleep : Program := fun call =>
  match (readSwitches questionSwitches false none call.args).checked with
  | .error e => call.refuse e
  | .ok g =>
    match call.answer? .sleep g with
    | some answer => answer
    | none =>
      let wrong := g.operands.filter fun t => !isInterval t
      if g.operands.isEmpty then call.refuse (Bytes.words ["missing operand"])
      else if wrong.isEmpty then ⟨[], call.input, [], .exited 0⟩
      else
        let faults := wrong.map fun t => Bytes.words ["invalid time interval "] ++ call.spoken t
        let front := faults.dropLast.map fun f => (Side.err, call.message f)
        let last := call.refuse (faults.getLastD [])
        { last with written := front ++ last.written }

/-- The buffering of standard output: full, by line, or none. -/
inductive Handing where
  | late | byLines | atOnce
  deriving DecidableEq

/-- Whether the buffer is nonempty at exit. -/
def Handing.waits (h : Handing) (written : List (Side × Bytes)) : Bool :=
  h ≠ .byLines &&
    (written.reverse.takeWhile fun w => w.1 == .out).any fun w => !w.2.isEmpty

/-- A program with the write errors of its standard output. They are reported at exit, with the
cause only if the last write fails. -/
def drained (h : Handing) (program : Program) : Program := fun call =>
  let outcome := program call
  let writes (w : Side × Bytes) : Bool := w.1 == .out && !w.2.isEmpty
  if call.drain == .taken || !outcome.written.any writes then outcome
  else
    let before := if h == .atOnce then outcome.written.takeWhile fun w => !writes w
      else outcome.written
    let reason :=
      if call.drain == .closed then [": Bad file descriptor"]
      else if h == .atOnce || h.waits outcome.written then [": No space left on device"]
      else []
    { outcome with
      written := before.filter (fun w => w.1 == .err) ++
        [(.err, call.message (Bytes.words ("write error" :: reason)))]
      ending := .exited 1 }

/-- The utilities by name; `shell` runs their commands. -/
def programs (shell : Program) : List (String × Program) :=
  [("cat", drained .atOnce concatenate), ("tr", drained .late exchange), ("sed", editor shell),
    ("head", drained .late copyFront), ("wc", drained .byLines countAll),
    ("echo", drained .late echo), ("printf", drained .late print),
    ("true", drained .late (idle .idle 0)), ("false", drained .late (idle .failing 1)),
    ("sleep", drained .late sleep), ("sh", shell), ("dash", shell)]

end GraphCodec.Formatter
