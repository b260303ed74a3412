import GraphCodec.Formatter.Shell.Builtin.Basic
import GraphCodec.Formatter.Shell.Lookup

/-!
# The builtins `cd`, `umask`, `alias`, `hash` and `jobs`
-/

set_option autoImplicit false

namespace GraphCodec.Formatter.Shell.Builtin

open Act

/-! ## The working directory -/

/-- Normalizes a path: resolves `.` and `..`. Exactly two leading slashes are kept. -/
def tidyPath (path : Bytes) : Bytes :=
  let names := (path.splitOn '/').foldl (fun done n =>
    if n.isEmpty || n == ['.'] then done
    else if n == ['.', '.'] then done.dropLast
    else done ++ [n]) []
  let slashes := (path.takeWhile (· == '/')).length
  List.replicate (if slashes = 2 then 2 else min slashes 1) '/' ++ ['/'].intercalate names

/-- Changes to a directory. Without `logical`, symbolic links are resolved (`cd -P`). -/
def enterDirectory (logical : Bool) (target : Bytes) : Act (Option Bytes) := do
  let before := (← env).path
  let path := tidyPath (if target.head? == some '/' then target else before ++ '/' :: target)
  let d ← desk
  let aim := if logical && path.head? == some '/' then path else target
  match d.trail aim with
  | .error _ => pure none
  | .ok trail =>
    if !d.isDirectory trail then pure none
    else
      let path := if logical then path else Desk.nameOf trail
      let directories := d.here :: d.directories.filter (· ≠ d.here)
      modifyWorld fun w => { w with desk := { w.desk with directories } }
      modifyEnv fun e =>
        { e with here := trail, path, known := e.known.map fun k => (k.1, true) }
      assign "OLDPWD".toList before true
      assign "PWD".toList path true
      pure (some path)

/-- Tries the directories of `CDPATH`. -/
def enterBelow (logical : Bool) (target : Bytes) : List Bytes → Act (Option (Bytes × Bool))
  | [] => do pure ((← enterDirectory logical target).map (·, false))
  | base :: rest => do
    let full := if base.isEmpty then target else base ++ '/' :: target
    match ← enterDirectory logical full with
    | some path => pure (some (path, !base.isEmpty))
    | none => enterBelow logical target rest

/-- The builtin `cd`. -/
def changeDirectory : Builtin := fun args => do
  let (given, args) ← takeOptions "LP" "" args
  let logical := given.getLast?.all (·.1 == 'L')
  let (target, said) ← match args.head? with
    | none => do pure ((← value? "HOME".toList).getD [], false)
    | some ['-'] => do pure ((← value? "OLDPWD".toList).getD [], true)
    | some target => pure (target, false)
  let target := if target.isEmpty then ['.'] else target
  let isPlain := target.head? != some '/' && target != ['.'] && target != ['.', '.'] &&
    !(['.', '/'].isPrefixOf target) && !(['.', '.', '/'].isPrefixOf target)
  let listed := ((← value? "CDPATH".toList).map (·.splitOn ':')).getD []
  let bases := if isPlain then listed else []
  match ← enterBelow logical target bases with
  | some (path, found) => pure (0, if said || found then path ++ ['\n'] else [])
  | none => refuse (Bytes.words ["can't cd to "] ++ target)

def printDirectory : Builtin := fun args => do
  let (given, _) ← takeOptions "LP" "" args
  if given.getLast?.any (·.1 == 'P') then pure (0, Desk.nameOf (← env).here ++ ['\n'])
  else pure (0, (← env).path ++ ['\n'])

/-! ## The file mode creation mask -/

/-- The permission bits of a class as `rwx`. -/
def rightLetters (bits : Nat) : Bytes :=
  (if bits / 4 % 2 = 1 then ['r'] else []) ++ (if bits / 2 % 2 = 1 then ['w'] else []) ++
    (if bits % 2 = 1 then ['x'] else [])

/-- The permission bits of a letter of a symbolic mode. -/
def rightBits (rights : Nat) : Char → Nat
  | 'r' => 4
  | 'w' => 2
  | 'x' => 1
  | 'u' => rights / 64 % 8
  | 'g' => rights / 8 % 8
  | 'o' => rights % 8
  | 'X' => if rights &&& 0o111 = 0 then 0 else 1
  | _ => 0

/-- The classes of a symbolic mode as a mask. -/
def userPlaces (letters : Bytes) : Nat :=
  letters.foldl (fun n c => n ||| match c with
    | 'u' => 0o100
    | 'g' => 0o010
    | 'o' => 0o001
    | _ => 0o111) 0

/-- Applies a symbolic mode, or fails on a syntax error. The first argument is the fuel. -/
def changeRights (before : Nat) : Nat → Nat → Nat → Bytes → Option Nat
  | 0, rights, _, _ => some rights
  | _, rights, _, [] => some rights
  | bound + 1, rights, places, text =>
    let users := text.takeWhile "augo".toList.contains
    let places := places ||| userPlaces users
    let places := if places = 0 then 0o111 else places
    match text.drop users.length with
    | [] => some rights
    | op :: rest =>
      if !"=+-".toList.contains op then none
      else
        let letters := rest.takeWhile "rwxugoXs".toList.contains
        let bits := (letters.foldl (fun n c => n ||| rightBits before c) 0) * places
        let all := places * 7
        let rights := match op with
          | '-' => rights &&& (0o777 ^^^ bits)
          | '=' => bits ||| (rights &&& (0o777 ^^^ all))
          | _ => rights ||| bits
        match rest.drop letters.length with
        | [] => some rights
        | c :: more =>
          if c == ',' then changeRights before bound rights 0 more
          else if "=+-".toList.contains c then changeRights before bound rights places (c :: more)
          else none

/-- The builtin `umask`. -/
def mask : Builtin := fun args => do
  let (given, args) ← takeOptions "S" "" args
  let now := (← env).mask
  let put (mask : Nat) : Act (Nat × Bytes) := do
    modifyEnv fun e => { e with mask := mask % 0o1000 }
    finished 0
  match args with
  | [] =>
    let rights := 0o777 ^^^ now
    if given.isEmpty then
      let digits := Nat.toDigits 8 now
      pure (0, List.replicate (4 - digits.length) '0' ++ digits ++ ['\n'])
    else
      pure (0, Bytes.words ["u="] ++ rightLetters (rights / 64) ++ Bytes.words [",g="] ++
        rightLetters (rights / 8 % 8) ++ Bytes.words [",o="] ++ rightLetters (rights % 8) ++ ['\n'])
  | text :: _ =>
    if text.head?.any Char.isDigit then
      if text.all fun c => '0' ≤ c && c ≤ '7' then
        put (text.foldl (fun n c => 8 * n + (c.toNat - '0'.toNat)) 0)
      else refuse (Bytes.words ["Illegal number: "] ++ text)
    else
      match changeRights (0o777 ^^^ now) (text.length + 1) (0o777 ^^^ now) 0 text with
      | some rights => put (0o777 ^^^ rights)
      | none => refuse (Bytes.words ["Illegal mode: "] ++ text)

/-! ## Aliases -/

/-- The bucket of a name in a hash table. -/
def row (rows : Nat) (name : Bytes) : Nat :=
  name.foldl (fun n c => n + c.toNat) (16 * (name.headD (Char.ofNat 0)).toNat) % 0x8000 % rows

/-- The order in which a hash table lists names. -/
def inRows {α : Type} (rows : Nat) (nameOf : α → Bytes) (all : List α) : List α :=
  all.mergeSort fun a b => decide (row rows (nameOf a) ≤ row rows (nameOf b))

def shownAlias (a : Bytes × Bytes) : Bytes := a.1 ++ '=' :: shown a.2 ++ ['\n']

/-- The builtin `alias`. -/
def setAliases : Builtin := fun args => do
  if args.isEmpty then pure (0, (inRows 39 (·.1) (← env).aliases).flatMap shownAlias)
  else
    let mut status := 0
    let mut out : Bytes := []
    for text in args do
      let name := text.take 1 ++ text.tail.takeWhile (· != '=')
      match text.drop name.length with
      | _ :: value =>
        modifyEnv fun e =>
          { e with aliases :=
              if e.aliases.any (·.1 == name) then
                e.aliases.map fun a => if a.1 == name then (name, value) else a
              else e.aliases ++ [(name, value)] }
      | [] =>
        match (← env).aliases.lookup name with
        | some value => out := out ++ shownAlias (name, value)
        | none =>
          let _ ← write 2 (Bytes.words ["alias: "] ++ name ++ Bytes.words [" not found\n"])
          status := 1
    pure (status, out)

/-- The builtin `unalias`. -/
def dropAliases : Builtin := fun args => do
  let (given, names) ← takeOptions "a" "" args
  if !given.isEmpty then
    modifyEnv fun e => { e with aliases := [] }
    finished 0
  else
    let mut status := 0
    for name in names do
      if (← env).aliases.any (·.1 == name) then
        modifyEnv fun e => { e with aliases := e.aliases.filter (·.1 != name) }
      else
        let _ ← write 2 (Bytes.words ["unalias: "] ++ name ++ Bytes.words [" not found\n"])
        status := 1
    finished status

/-! ## The hash table of utilities -/

/-- The builtin `hash`. -/
def known : Builtin := fun args => do
  let (given, names) ← takeOptions "r" "" args
  if !given.isEmpty then
    modifyEnv fun e => { e with known := [] }
    finished 0
  else if names.isEmpty then
    let d ← desk
    let path ← programPath?
    pure (0, (inRows 31 (·.1) (← env).known).flatMap fun (name, isOld) =>
      match Lookup.run d path name with
      | .program _ file => file ++ (if isOld then ['*'] else []) ++ ['\n']
      | .fault _ _ => [])
  else
    let mut status := 0
    for name in names do
      if !isBuiltin (String.ofList name) && ((← env).functions.lookup name).isNone then
        match ← lookUp name with
        | .program _ _ => pure ()
        | .fault reason _ =>
          if !name.contains '/' then
            say (name ++ Bytes.words [": ", reason])
            status := 1
    finished status

/-! ## Job control -/

/-- The builtin `jobs`. -/
def jobs : Builtin := fun args => do
  let (_, names) ← takeOptions "lp" "" args
  match names with
  | [] => finished 0
  | name :: _ => refuse (Bytes.words ["No such job: "] ++ name)

/-- The builtins `fg` and `bg`, without job control. -/
def resume : Builtin := fun args => do
  let (_, names) ← takeOptions "" "" args
  match names with
  | [] => refuse (Bytes.words ["No current job"])
  | name :: _ => refuse (Bytes.words ["No such job: "] ++ name)

end GraphCodec.Formatter.Shell.Builtin
