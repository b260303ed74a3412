import GraphCodec.Formatter.Shell.Builtin.Course
import GraphCodec.Formatter.Shell.Builtin.Limits
import GraphCodec.Formatter.Shell.Builtin.Parameters
import GraphCodec.Formatter.Shell.Builtin.Surroundings
import GraphCodec.Formatter.Shell.Builtin.Writing
import GraphCodec.Formatter.Shell.Test

/-!
# Builtin utilities

The table of the builtins that do not run other commands.
-/

set_option autoImplicit false

namespace GraphCodec.Formatter.Shell.Builtin

open Act

/-- The file tests of the shell. -/
def look : Act Test.Look := do
  let d ← desk
  let e ← env
  let openings := (← world).openings
  let kindAt (trail : Trail) : Test.FileKind :=
    match d.foundAt trail with
    | .content bytes => .regular bytes.isEmpty (Desk.programAt? trail).isSome
    | .directory => .directory
    | _ => .absent
  let handleKind (n : Nat) : Test.FileKind :=
    match e.handles.lookup n with
    | none => .absent
    | some (.source _) | some (.sink _) => .pipe
    | some .directory => .directory
    | some (.file id) => (openings[id]?.map fun o => kindAt o.trail).getD .absent
    | some _ => .device
  let kind (name : Bytes) : Test.FileKind :=
    match d.find name with
    | .content bytes =>
      .regular bytes.isEmpty ((d.programOf? name).isSome)
    | .null | .zeros | .full => .device
    | .channel n => handleKind n
    | .directory => .directory
    | _ => .absent
  pure ⟨kind, fun n => (d.trail n).toOption, d.isLink⟩

/-- The builtin `test`. -/
def test (name : Bytes) : Builtin := fun args => do
  let words ←
    if name == ['['] then
      if args.getLast? == some [']'] then pure args.dropLast
      else refuse (Bytes.words ["missing ]"])
    else pure args
  match Test.evaluate (← look) (words.length + 1) words with
  | .ok b => finished (if b then 0 else 1)
  | .error message => refuse message

/-- The builtin utilities that do not run other commands. -/
def table : List (String × Builtin) :=
  [(":", fun _ => finished 0), ("true", fun _ => finished 0), ("false", fun _ => finished 1),
    ("echo", echo), ("printf", print), ("read", read), ("test", test "test".toList),
    ("[", test ['[']), ("set", set), ("shift", shift), ("export", exportAll),
    ("readonly", readOnly), ("unset", unset), ("local", localAll), ("getopts", getOptions),
    ("exit", exit), ("return", leaveFunction), ("break", leaveLoop .breakLoop),
    ("continue", leaveLoop .continueLoop), ("kill", kill), ("trap", trap),
    ("cd", changeDirectory), ("chdir", changeDirectory), ("pwd", printDirectory),
    ("umask", mask),
    ("ulimit", limit),
    ("times", fun _ => pure (0, "0m0.000000s 0m0.000000s\n0m0.000000s 0m0.000000s\n".toList)),
    ("hash", known), ("jobs", jobs), ("fg", resume), ("bg", resume), ("alias", setAliases),
    ("unalias", dropAliases)]

end GraphCodec.Formatter.Shell.Builtin
