import GraphCodec.Formatter.Shell.Builtin.Basic
import GraphCodec.Formatter.Shell.Signal

/-!
# The builtins `break`, `continue`, `kill` and `trap`
-/

set_option autoImplicit false

namespace GraphCodec.Formatter.Shell.Builtin

open Act

def exit : Builtin := fun args => do
  match args with
  | [] => pure ()
  | a :: _ => setStatus ((← number a) % 256)
  throw .fromShell

def leaveFunction : Builtin := fun args => do
  match args with
  | [] => pure ()
  | a :: _ => setStatus (← number a)
  throw .fromFunction

/-- The builtins `break` and `continue`. -/
def leaveLoop (leave : Nat → Leave) : Builtin := fun args => do
  let n ← match args with
    | [] => pure 1
    | a :: _ => number a
  if n = 0 then refuse (Bytes.words ["Illegal number: "] ++ args.headD [])
  else
    let loops := (← env).loops
    setStatus 0
    if loops = 0 then finished 0 else throw (leave (min n loops))

/-! ## Signals -/

/-- Delivers a signal to the shell. -/
def receive (signal : Nat) : Act Unit := do
  let e ← env
  match (if e.isCopy then e.outerTraps else e.traps).lookup signal with
  | some action =>
    if signal = 9 then throw (.killed e.process signal)
    else if action.isEmpty then pure ()
    else if e.isCopy then modifyWorld fun w => { w with sent := w.sent ++ [(e.process, signal)] }
    else modifyEnv fun e => { e with pending := e.pending ++ [signal] }
  | none =>
    if Signal.isIdle signal then pure ()
    else if Signal.isStop signal then throw .exhausted
    else throw (.killed e.process signal)

def killUsage : String :=
  "Usage: kill [-s sigspec | -signum | -sigspec] [pid | job]... or\nkill -l [exitstatus]"

/-- The builtin `kill`. -/
def kill : Builtin := fun args => do
  let (signal, listing, targets) ←
    match args with
    | ('-' :: text) :: rest =>
      match Signal.read? 0 text with
      | some n => pure (some n, false, rest)
      | none => do
        let (given, rest) ← takeOptions "l" "s" args
        let signal ← match (given.filter (·.1 == 's')).getLast? with
          | some (_, text) =>
            match Signal.read? 0 text with
            | some n => pure (some n)
            | none => refuse (Bytes.words ["invalid signal number or name: "] ++ text)
          | none => pure none
        pure (signal, given.any (·.1 == 'l'), rest)
    | _ => pure (none, false, args)
  if listing && signal.isSome && !targets.isEmpty then refuse (Bytes.words [killUsage])
  else if listing then
    match targets with
    | [] => pure (0, Bytes.words ["0\n"] ++ Signal.names.tail.flatMap fun n => Bytes.words [n, "\n"])
    | a :: _ =>
      let n ← number a
      let n := if 128 < n then n - 128 else n
      match if n = 0 then none else Signal.names[n]? with
      | some name => pure (0, Bytes.words [name, "\n"])
      | none => refuse (Bytes.words ["invalid signal number or exit status: "] ++ a)
  else if targets.isEmpty then refuse (Bytes.words [killUsage])
  else
    let mut status := 0
    for target in targets do
      if target.head? == some '%' then refuse (Bytes.words ["No such job: "] ++ target)
      let n ← number (match target with
        | '-' :: digits => digits
        | _ => target)
      let e ← env
      if n = 0 || n = e.process then receive (signal.getD 15)
      else if (← world).finished.any (·.1 == n) || (← world).jobs.any (·.number == n) then pure ()
      else
        say (Bytes.words ["No such process\n"])
        status := 1
    finished status

/-- The builtin `trap`. -/
def trap : Builtin := fun args => do
  let (_, args) ← takeOptions "" "" args
  let set (action : Option Bytes) (signals : List Bytes) : Act (Nat × Bytes) := do
    for text in signals do
      match Signal.read? 0 text with
      | none =>
        let _ ← write 2 (Bytes.words ["trap: "] ++ text ++ Bytes.words [": bad trap\n"])
        return (1, [])
      | some n =>
        modifyEnv fun e =>
          let others := e.traps.filter (·.1 != n)
          { e with traps := match action with
            | some a => (n, a) :: others
            | none => others }
    finished 0
  match args with
  | [] =>
    let traps := (← env).traps.mergeSort fun a b => decide (a.1 ≤ b.1)
    pure (0, traps.flatMap fun (n, action) =>
      Bytes.words ["trap -- "] ++ shown action ++ Bytes.words [" ", Signal.names.getD n "", "\n"])
  | [text] => set none [text]
  | action :: signals =>
    if (Signal.read? 0 action).isSome && action.all Char.isDigit then set none args
    else if action == ['-'] then set none signals
    else set (some action) signals

end GraphCodec.Formatter.Shell.Builtin
