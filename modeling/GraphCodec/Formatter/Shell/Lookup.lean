import GraphCodec.Formatter.Shell.Session

/-!
# Command search

A name with a slash is a path. Any other name is searched in the directories of `PATH`.
-/

set_option autoImplicit false

namespace GraphCodec.Formatter.Shell

/-- The result of a command search. -/
inductive Lookup where
  /-- A utility, and its path. -/
  | program (name : String) (path : Bytes)
  /-- An error message, and the exit status. -/
  | fault (reason : String) (status : Nat)
  deriving DecidableEq, Repr

namespace Lookup

/-- The candidate paths of a name in `PATH`. -/
def candidates (path name : Bytes) : List Bytes :=
  (path.splitOn ':').map fun d => if d.isEmpty then name else d ++ '/' :: name

/-- The command search for a name with a slash. -/
def direct (desk : Desk) (name : Bytes) : Lookup :=
  match desk.programOf? name with
  | some p => .program p name
  | none =>
    match desk.find name with
    | .missing | .notDirectory => .fault "not found" 127
    | .tooLong => .fault "File name too long" 127
    | _ => .fault "Permission denied" 126

/-- The command search among candidate paths. A file that is not executable is reported only if no
later candidate is. -/
def among (desk : Desk) : Lookup → List Bytes → Lookup
  | before, [] => before
  | before, name :: rest =>
    match desk.programOf? name with
    | some p => .program p name
    | none =>
      let found : Lookup := match desk.find name with
        | .missing | .notDirectory => before
        | .tooLong => .fault "File name too long" 127
        | .content _ => .fault "Permission denied" 126
        | _ => if before == .fault "Permission denied" 126 then before
          else .fault "Permission denied" 127
      among desk found rest

/-- The command search. -/
def run (desk : Desk) (path? : Option Bytes) (name : Bytes) : Lookup :=
  if name.contains '/' then direct desk name
  else among desk (.fault "not found" 127) ((path?.map fun path => candidates path name).getD [])

end Lookup

namespace Act

/-- The value of `PATH`. -/
def programPath? : Act (Option Bytes) := value? "PATH".toList

/-- The command search, with the hash table of known utilities. -/
def lookUp (name : Bytes) : Act Lookup := do
  let found := Lookup.run (← desk) (← programPath?) name
  match found with
  | .program _ _ =>
    if !name.contains '/' then
      modifyEnv fun e =>
        { e with known :=
            if e.known.any (·.1 == name) then
              e.known.map fun k => if k.1 == name then (name, false) else k
            else e.known ++ [(name, false)] }
  | .fault _ _ => pure ()
  pure found

/-- The content of a readable file or file descriptor. -/
def contentNamed? (name : Bytes) : Act (Option Bytes) := do
  match (← desk).find name with
  | .content bytes => pure (some bytes)
  | .null | .directory => pure (some [])
  | .zeros | .full => pure (some Formatter.zeros)
  | .channel n =>
    match ← handle? n with
    | some h =>
      let bytes ← contentOf h
      leaveInput n []
      pure (some bytes)
    | none => pure none
  | _ => pure none

end Act

end GraphCodec.Formatter.Shell
