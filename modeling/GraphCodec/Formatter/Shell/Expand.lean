import GraphCodec.Formatter.Shell.Arithmetic
import GraphCodec.Formatter.Shell.Glob
import GraphCodec.Formatter.Shell.Session

/-!
# Word expansions

Tilde expansion, parameter expansion, command substitution and arithmetic expansion, then field
splitting and pathname expansion.
-/

set_option autoImplicit false

namespace GraphCodec.Formatter.Shell

/-- A piece of a word after parameter expansion. -/
inductive Piece where
  | bytes (text : Bytes) (quoted divisible : Bool)
  /-- The boundary between two fields of `$@`; white space if it is not quoted. -/
  | border (quoted : Bool)
  deriving DecidableEq, Repr

namespace Piece

/-- Joins pieces without field splitting, with quote marks. -/
def marked (pieces : List Piece) : Marked :=
  pieces.flatMap fun p =>
    match p with
    | bytes text quoted _ => text.map fun c => (c, quoted)
    | border _ => [(' ', false)]

/-- Joins pieces without field splitting. -/
def text (pieces : List Piece) : Bytes :=
  pieces.flatMap fun p =>
    match p with
    | bytes text _ _ => text
    | border _ => [' ']

end Piece

/-- The state of field splitting. -/
structure Fields where
  /-- The complete fields, reversed. -/
  complete : List Marked
  /-- The current field, reversed. -/
  current : Marked
  /-- Whether there is a current field, even an empty one. -/
  present : Bool
  /-- Whether `IFS` white space ended the last field. -/
  blank : Bool

namespace Fields

def finish (f : Fields) (blank : Bool) : Fields :=
  if f.present then ⟨f.current.reverse :: f.complete, [], false, blank⟩ else f

/-- Adds a byte that is subject to field splitting. `IFS` white space is collapsed; any other
separator ends a field even if it is empty. -/
def divide (separators : Bytes) (f : Fields) (c : Char) : Fields :=
  if !separators.contains c then
    { f with current := (c, false) :: f.current, present := true, blank := false }
  else if c == ' ' || c == '\t' || c == '\n' then f.finish true
  else if f.present then f.finish false
  else if f.blank then { f with blank := false }
  else { f with complete := [] :: f.complete }

def add (separators : Bytes) (f : Fields) : Piece → Fields
  | .border true => { f.finish false with blank := false }
  | .border false => f.finish true
  | .bytes text quoted divisible =>
    if divisible then text.foldl (divide separators) f
    else if text.isEmpty && !quoted then f
    else
      { f with
        current := text.reverse.map (fun c => (c, quoted)) ++ f.current
        present := true
        blank := false }

/-- Field splitting. -/
def ofPieces (separators : Bytes) (pieces : List Piece) : List Marked :=
  let f := pieces.foldl (add separators) ⟨[], [], false, false⟩
  (f.finish false).complete.reverse

end Fields

/-! ## Pathname expansion -/

/-- Pathname expansion of the components of a pattern below a path. A leading dot must be matched
explicitly. -/
def namesBehind (desk : Desk) (front : Bytes) : List Marked → List Bytes
  | [] => []
  | part :: rest =>
    let names : List Bytes :=
      if Glob.isPattern part then
        match desk.trail (if front.isEmpty then ['.'] else front) with
        | .ok trail =>
          if desk.isDirectory trail then
            let hidden := part.head?.any fun c => c.1 == '.'
            let items := Glob.read part
            ((desk.entries trail ++ [['.'], ['.', '.']]).filter fun n =>
              (hidden || n.head? != some '.') && Glob.fits items n)
          else []
        | .error _ => []
      else [part.map (·.1)]
    match rest with
    | [] => (names.map (front ++ ·)).filter fun n => (desk.find n).isThere
    | _ :: _ => names.flatMap fun n => namesBehind desk (front ++ n ++ ['/']) rest

/-- Pathname expansion; a pattern without a match is kept. -/
def filesFor (desk : Desk) (pattern : Marked) : List Bytes :=
  let parts := pattern.splitOnP fun c => c.1 == '/'
  let names := namesBehind desk [] parts
  if names.isEmpty then [pattern.map (·.1)]
  else names.mergeSort Bytes.isBefore

/-! ## Tilde expansion -/

/-- The home directories of the user database. -/
def homes : List (String × String) :=
  [("root", "/root"), ("daemon", "/usr/sbin"), ("bin", "/bin"), ("sys", "/dev"), ("sync", "/bin"),
    ("games", "/usr/games"), ("man", "/var/cache/man"), ("lp", "/var/spool/lpd"),
    ("mail", "/var/mail"), ("news", "/var/spool/news"), ("uucp", "/var/spool/uucp"),
    ("proxy", "/bin"), ("www-data", "/var/www"), ("backup", "/var/backups"),
    ("list", "/var/list"), ("irc", "/run/ircd"), ("_apt", "/nonexistent"),
    ("nobody", "/nonexistent")]

/-- The home directory of a login name. -/
def homeOf (home : Option Bytes) (user : Bytes) : Option Bytes :=
  if user.isEmpty then home else (homes.lookup (String.ofList user)).map String.toList

/-- Tilde expansion at the start of a text and, with `colons`, after colons. A login name must end
in the text. The first argument is the fuel. -/
def tildeParts (home : Option Bytes) (colons isLast : Bool) : Nat → Bool → Bytes → List Part
  | 0, _, text => [.plain text]
  | _, _, [] => []
  | bound + 1, true, '~' :: text =>
    let user := text.takeWhile fun c => c != '/' && !(colons && c == ':')
    let below := text.drop user.length
    match if below.isEmpty && !isLast then none else homeOf home user with
    | some place => .quoted place :: tildeParts home colons isLast bound false below
    | none => .plain ['~'] :: tildeParts home colons isLast bound false text
  | bound + 1, _, text =>
    if colons then
      let front := text.takeWhile (· != ':')
      match text.drop front.length with
      | c :: rest => .plain (front ++ [c]) :: tildeParts home colons isLast bound true rest
      | [] => [.plain text]
    else [.plain text]

/-- Tilde expansion of a word. -/
def expandTilde (home : Option Bytes) (colons : Bool) : Word → Word
  | .plain text :: rest =>
    let front := tildeParts home colons rest.isEmpty (2 * text.length + 2) true text
    if colons then front ++ colonTildes rest else front ++ rest
  | word => if colons then colonTildes word else word
where
  /-- Tilde expansion after colons in the further parts of a word. -/
  colonTildes : Word → Word
    | [] => []
    | .plain text :: rest =>
      tildeParts home true rest.isEmpty (2 * text.length + 2) false text ++ colonTildes rest
    | part :: rest => part :: colonTildes rest

/-- The context of an expansion. -/
structure Place where
  /-- Whether field splitting applies. -/
  divides : Bool
  /-- Whether literals are split as well, inside `${…}`. -/
  inside : Bool
  /-- Whether tilde expansion applies after colons. -/
  colons : Bool

/-- The context without field splitting. -/
def Place.one : Place := ⟨false, false, false⟩

open Act

section

variable (outputOf : Bytes → Nat → Act Bytes)

mutual

/-- Parameter expansion, command substitution and arithmetic expansion. -/
def expandParts : Nat → Place → List Part → Act (List Piece)
  | 0, _, _ => throw .exhausted
  | _, _, [] => pure []
  | fuel + 1, place, p :: rest => do
    let front ← expandPart fuel place p
    let back ← expandParts fuel place rest
    pure (front ++ back)

def expandPart : Nat → Place → Part → Act (List Piece)
  | 0, _, _ => throw .exhausted
  | fuel + 1, place, p => do
    match p with
    | .plain text => pure [.bytes text false place.inside]
    | .quoted text => pure [.bytes text true false]
    | .output script line quoted =>
      let out ← outputOf script line
      let out := out.filter (· != Char.ofNat 0)
      let out := (out.reverse.dropWhile (· == '\n')).reverse
      pure [.bytes out quoted !quoted]
    | .arithmetic parts quoted =>
      let text := Piece.text (← expandParts fuel .one parts)
      let e ← env
      match Arithmetic.evaluate (fun n => (e.settings.lookup n).bind (·.value)) text with
      | .ok (n, changed) =>
        for (name, n) in changed.reverse do
          assign name (toString n).toList false
        pure [.bytes (toString n).toList quoted !quoted]
      | .error fault => refuse (fault.message text)
    | .parameter name change argument quoted =>
      if change == .unknown then refuse (Bytes.words ["Bad substitution"])
      else
        let value ← parameter? name
        let home ← value? "HOME".toList
        let given := argument
        let argument := if quoted then given else expandTilde home false given
        let present : Act (List Piece) :=
          match value with
          | none => pure [.bytes [] quoted !quoted]
          | some text => pure [.bytes text quoted !quoted]
        let list : Act (List Piece) := do
          let pieces := (← env).arguments.map fun a => Piece.bytes a quoted !quoted
          pure (pieces.intersperse (.border quoted))
        let separated := (← value? "IFS".toList).isSome
        let isList := place.divides &&
          if quoted then name == ['@'] else separated && (name == ['@'] || name == ['*'])
        let kept : Act (List Piece) := if isList then list else present
        let pattern : Act (List Glob.Item) := do
          let pieces ← expandParts fuel .one (expandTilde home false given)
          pure (Glob.read (Piece.marked pieces))
        -- The pattern of an unset parameter is not expanded.
        let cut (way : List Glob.Item → Bool → Bytes → Bytes) : Act (List Piece) := do
          let f ← if value.isNone then pure id else do pure (way (← pattern) quoted)
          if isList then
            let pieces := (f ([Glob.border].intercalate (← env).arguments)).splitOn Glob.border
            pure ((pieces.map fun a => Piece.bytes a quoted !quoted).intersperse (.border quoted))
          else pure [.bytes (f (value.getD [])) quoted !quoted]
        let needed : Act Unit := do
          if value.isNone && (← option 'u') then
            refuse (name ++ Bytes.words [": parameter not set"])
        let missing (empty : Bool) : Bool := value.isNone || (empty && value == some [])
        let other : Act (List Piece) := do
          let argument := if quoted then given else expandTilde home place.colons given
          let pieces ← expandParts fuel ⟨place.divides, !quoted, place.colons⟩ argument
          pure (if quoted then .bytes [] true false :: pieces else pieces)
        match change with
        | .keep =>
          needed
          kept
        | .count =>
          needed
          pure [.bytes (toString (value.getD []).length).toList quoted !quoted]
        | .orElse empty => if missing empty then other else kept
        | .ifSet empty => if missing empty then pure [.bytes [] quoted !quoted] else other
        | .orSet empty =>
          if missing empty then
            let text := Piece.text (← expandParts fuel .one argument)
            if isName name then
              assign name text false
              pure [.bytes text quoted !quoted]
            else refuse (name ++ Bytes.words [": bad variable name"])
          else kept
        | .orEnd empty =>
          if missing empty then
            let text := Piece.text (← expandParts fuel .one argument)
            let text :=
              if !argument.isEmpty then text
              else if empty then Bytes.words ["parameter not set or null"]
              else Bytes.words ["parameter not set"]
            refuse (name ++ [':', ' '] ++ text)
          else kept
        | .cutFront longest =>
          needed
          cut fun items => Glob.cutFront items longest
        | .cutBack longest =>
          needed
          cut fun items => Glob.cutBack items longest
        | .unknown => pure []

end

/-- Expands a word, tilde expansion included. -/
def expandWord (fuel : Nat) (divides : Bool) (word : Word) : Act (List Piece) := do
  let word := expandTilde (← value? "HOME".toList) false word
  expandParts outputOf fuel { Place.one with divides } word

/-- Expands a word without field splitting. -/
def expandText (fuel : Nat) (word : Word) : Act Bytes := do
  pure (Piece.text (← expandWord outputOf fuel false word))

/-- Expands the value of an assignment. -/
def expandValue (fuel : Nat) (word : Word) : Act Bytes := do
  let word := expandTilde (← value? "HOME".toList) true word
  pure (Piece.text (← expandParts outputOf fuel ⟨false, false, true⟩ word))

/-- Expands a word to a shell pattern. -/
def expandPattern (fuel : Nat) (word : Word) : Act (List Glob.Item) := do
  pure (Glob.read (Piece.marked (← expandWord outputOf fuel false word)))

/-- Expands a word to fields. -/
def expandField (fuel : Nat) (word : Word) : Act (List Bytes) := do
  let pieces ← expandWord outputOf fuel true word
  let fields := Fields.ofPieces (← separators) pieces
  let plain ← option 'f'
  let d ← desk
  pure (fields.flatMap fun f =>
    if !plain && Glob.isPattern f then filesFor d f else [f.map (·.1)])

/-- Expands words to fields. -/
def expandFields (fuel : Nat) : List Word → Act (List Bytes)
  | [] => pure []
  | word :: rest => do
    let found ← expandField outputOf fuel word
    let more ← expandFields fuel rest
    pure (found ++ more)

/-- Expands the operands of a declaration utility: assignments are not split. -/
def expandSettings (fuel : Nat) : List Word → Act (List Bytes)
  | [] => pure []
  | word :: rest => do
    let found ← match settingOf? word with
      | some (name, value) => do pure [name ++ '=' :: (← expandValue outputOf fuel value)]
      | none => expandField outputOf fuel word
    let more ← expandSettings fuel rest
    pure (found ++ more)

/-- The declaration utilities. -/
def declaringCommands : List String := ["alias", "export", "local", "readonly"]

/-- Expands the words of a simple command. The first field decides whether it is a declaration
utility. -/
def expandArguments (fuel : Nat) : List Word → Act (List Bytes)
  | [] => pure []
  | word :: rest => do
    let found ← expandField outputOf fuel word
    match found with
    | [] => expandArguments fuel rest
    | name :: _ =>
      let more ←
        if name == "command".toList then expandArguments fuel rest
        else if declaringCommands.contains (String.ofList name) then expandSettings outputOf fuel rest
        else expandFields outputOf fuel rest
      pure (found ++ more)

end

end GraphCodec.Formatter.Shell
