import GraphCodec.Formatter.Shell.Builtin.Basic

/-!
# The builtins `read`, `set`, `export`, `readonly`, `local` and `getopts`
-/

set_option autoImplicit false

namespace GraphCodec.Formatter.Shell.Builtin

open Act

/-! ## The builtin `read` -/

/-- A line with marks for escaped bytes, whether it is terminated, and the rest. -/
def line (raw : Bool) : Bytes → List (Char × Bool) → List (Char × Bool) × Bool × Bytes
  | [], read => (read.reverse, false, [])
  | '\n' :: rest, read => (read.reverse, true, rest)
  | '\\' :: c :: rest, read =>
    if raw then line raw (c :: rest) (('\\', false) :: read)
    else if c == '\n' then line raw rest read
    else line raw rest ((c, true) :: read)
  | c :: rest, read =>
    if c == Char.ofNat 0 || (c == '\\' && !raw) then line raw rest read
    else line raw rest ((c, false) :: read)

def isBlank (c : Char) : Bool := c == ' ' || c == '\t' || c == '\n'

/-- The last field of `read`: the rest of the line without trailing `IFS` white space, and without a
separator after a single field. -/
def lastValue (separators : Bytes) (left : List (Char × Bool)) : Bytes :=
  let isSeparator (c : Char × Bool) : Bool := !c.2 && separators.contains c.1
  let field := left.takeWhile fun c => !isSeparator c
  let rest := left.drop field.length
  let blanks := rest.takeWhile fun c => isSeparator c && isBlank c.1
  let after := rest.drop blanks.length
  let after := match after with
    | c :: more => if isSeparator c then more else c :: more
    | [] => []
  let kept := if after.all fun c => isSeparator c && isBlank c.1 then field
    else (left.reverse.dropWhile fun c => isSeparator c && isBlank c.1).reverse
  kept.map (·.1)

/-- Splits a line into fields for `read`. -/
def values (separators : Bytes) : Nat → List (Char × Bool) → List Bytes
  | n, left =>
    let isSeparator (c : Char × Bool) : Bool := !c.2 && separators.contains c.1
    let left := left.dropWhile fun c => isSeparator c && isBlank c.1
    match n with
    | 0 => [lastValue separators left]
    | n + 1 =>
      let field := left.takeWhile fun c => !isSeparator c
      let rest := left.drop field.length
      let rest := rest.dropWhile fun c => isSeparator c && isBlank c.1
      let rest := match rest with
        | c :: more => if isSeparator c then more else c :: more
        | [] => []
      field.map (·.1) :: values separators n rest

/-- The builtin `read`. -/
def read : Builtin := fun args => do
  let (given, names) ← takeOptions "r" "p" args
  if names.isEmpty then refuse (Bytes.words ["arg count"])
  else
    let (text, ended, rest) := line (given.any (·.1 == 'r')) (← input 0) []
    leaveInput 0 rest
    let found := values (← separators) (names.length - 1) text
    for (name, value) in names.zip found do
      if isName name then assign name value false
      else refuse (name ++ Bytes.words [": bad variable name"])
    finished (if ended then 0 else 1)

/-! ## Variables and shell options -/

/-- The variables sorted by name. -/
def sorted (settings : List (Bytes × Parameter)) : List (Bytes × Parameter) :=
  settings.mergeSort fun a b => Bytes.isBefore a.1 b.1

/-- Prints variables as commands. -/
def listed (front : String) (settings : List (Bytes × Parameter)) : Bytes :=
  (sorted settings).flatMap fun (name, s) =>
    let value := match s.value with
      | some v => '=' :: shown v
      | none => []
    front.toList ++ name ++ value ++ ['\n']

/-- Sets or unsets a shell option. -/
def setOption (letter : Char) (on : Bool) : Act Unit :=
  if (optionNames.any fun o => o.1 == letter) && letter.isAlpha then
    modifyEnv fun e =>
      let others := e.options.filter (· != letter)
      -- The editing modes `vi` and `emacs` exclude each other.
      let others := others.filter fun c =>
        !on || !((letter == 'V' && c == 'E') || (letter == 'E' && c == 'V'))
      { e with options := if on then letter :: others else others }
  else refuse (Bytes.words ["Illegal option -"] ++ [letter])

/-- Sets or unsets a shell option by its long name. -/
def setNamedOption (name : Bytes) (on : Bool) : Act Unit :=
  match optionNames.find? fun o => o.2.toList == name with
  | some (letter, _) =>
    modifyEnv fun e =>
      let others := e.options.filter (· != letter)
      { e with options := if on then letter :: others else others }
  | none => refuse (Bytes.words ["Illegal option -o "] ++ name)

/-- The output of `set -o`. At the start of a shell all options that were not given are on. -/
def optionList (starting : Bool) : Act Bytes := do
  let e ← env
  pure (Bytes.words ["Current option settings\n"] ++ optionNames.flatMap fun (letter, name) =>
    Bytes.words [name, String.ofList (List.replicate (16 - name.length) ' '),
      if starting || e.options.contains letter then "on" else "off", "\n"])

/-- The output of `set +o`. -/
def optionCommands (starting : Bool) : Act Bytes := do
  let e ← env
  pure (optionNames.flatMap fun (letter, name) =>
    Bytes.words ["set ", if starting || e.options.contains letter then "-o " else "+o ", name, "\n"])

/-- Parses a cluster of shell options. `o` has an option-argument; at the start of a shell, `c` asks
for a command string. Returns the remaining arguments, whether there is a command string, and the
output. -/
def setLetters (starting on : Bool) : List Char → List Bytes → Act (List Bytes × Bool × Bytes)
  | [], args => pure (args, false, [])
  | c :: cs, args => do
    if c == 'c' && starting then
      let (args, _, out) ← setLetters starting on cs args
      pure (args, true, out)
    else if c == 'l' && starting then setLetters starting on cs args
    else if c == 'o' then
      match args with
      | name :: rest =>
        setNamedOption name on
        setLetters starting on cs rest
      | [] =>
        let out ← if on then optionList starting else optionCommands starting
        let (args, script, more) ← setLetters starting on cs []
        pure (args, script, out ++ more)
    else
      setOption c on
      setLetters starting on cs args

/-- The arguments after the options. -/
structure AfterOptions where
  args : List Bytes
  /-- Whether the options ended with `--`. -/
  marked : Bool
  /-- Whether `-c` was given. -/
  script : Bool
  out : Bytes

/-- Parses shell options. -/
def setOptions (starting : Bool) : Nat → List Bytes → Act AfterOptions
  | 0, args => pure ⟨args, false, false, []⟩
  | bound + 1, args =>
    match args with
    | ['-'] :: rest => do
      if !starting then
        modifyEnv fun e => { e with options := e.options.filter fun c => c != 'x' && c != 'v' }
      pure ⟨rest, false, false, []⟩
    | ['-', '-'] :: rest => pure ⟨rest, true, false, []⟩
    | (sign :: cs) :: rest =>
      if sign == '-' || sign == '+' then do
        let (left, script, out) ← setLetters starting (sign == '-') cs rest
        let after ← setOptions starting bound left
        pure { after with script := script || after.script, out := out ++ after.out }
      else pure ⟨args, false, false, []⟩
    | _ => pure ⟨args, false, false, []⟩

/-- The builtin `set`. -/
def set : Builtin := fun args => do
  if args.isEmpty then
    let settings := (← env).settings.filter (·.2.value.isSome)
    pure (0, listed "" settings)
  else
    let after ← setOptions false (args.length + 1) args
    if after.marked || !after.args.isEmpty then
      modifyEnv fun e => { e with arguments := after.args, optionPlace := ⟨1, none⟩ }
    pure (0, after.out)

def shift : Builtin := fun args => do
  let n ← match args with
    | [] => pure 1
    | a :: _ => number a
  let e ← env
  if e.arguments.length < n then refuse (Bytes.words ["can't shift that many"])
  else
    modifyEnv fun e => { e with arguments := e.arguments.drop n, optionPlace := ⟨1, none⟩ }
    finished 0

/-- Splits an operand `name=value`. -/
def named (text : Bytes) : Act (Bytes × Option Bytes) :=
  let (name, value) := text.span (· != '=')
  if isName name then pure (name, value.tail?)
  else refuse (name ++ Bytes.words [": bad variable name"])

/-- The builtins `export` and `readonly`. -/
def mark (word : String) (has : Parameter → Bool) (change : Parameter → Parameter) : Builtin :=
    fun args => do
  -- Options after the first one are ignored.
  let lists := args.head?.any fun a => ['-', 'p'].isPrefixOf a
  let (_, names) ← if lists then pure ([], []) else takeOptions "" "" args
  if names.isEmpty then
    let settings := (← env).settings.filter fun s => has s.2
    pure (0, listed (word ++ " ") settings)
  else
    for text in names do
      let (name, value) ← named text
      match value with
      | some v => assign name v false
      | none => pure ()
      let before := (← setting? name).getD ⟨none, false, false⟩
      putSetting name (some (change before))
    finished 0

def exportAll : Builtin := mark "export" (·.exported) fun s => { s with exported := true }

def readOnly : Builtin := mark "readonly" (·.readOnly) fun s => { s with readOnly := true }

def unset : Builtin := fun args => do
  let (given, names) ← takeOptions "vf" "" args
  let functions := given.getLast?.any (·.1 == 'f')
  for text in names do
    let name := if functions then text else text.takeWhile (· != '=')
    if functions then
      modifyEnv fun e => { e with functions := e.functions.filter fun f => f.1 != name }
    else if !isName name then refuse (name ++ Bytes.words [": bad variable name"])
    else if (← setting? name).any (·.readOnly) then
      refuse (name ++ Bytes.words [": is read only"])
    else putSetting name none
  finished 0

/-- The builtin `local`. A dash makes the shell options local. -/
def localAll : Builtin := fun args => do
  match (← env).frames with
  | [] => refuse (Bytes.words ["not in a function"])
  | _ :: _ =>
    let keep (change : Frame → Frame) : Act Unit :=
      modifyEnv fun e =>
        match e.frames with
        | frame :: rest => { e with frames := change frame :: rest }
        | [] => e
    for text in args do
      if text == ['-'] then
        let now := (← env).options
        keep fun f => { f with options := some (f.options.getD now) }
      else
        -- A name with a value is not validated.
        let (name, value) ←
          if text.contains '=' then
            let (name, value) := text.span (· != '=')
            pure (name, value.tail?)
          else named text
        let before ← setting? name
        keep fun f => { f with settings := (name, before) :: f.settings }
        match value with
        | some v => assign name v false
        | none => pure ()
    finished 0

/-! ## The builtin `getopts` -/

/-- The letters of an option string of `getopts`, without its leading colon. -/
def optionLetters : Bytes → Bytes
  | ':' :: rest => rest
  | letters => letters

/-- Whether a letter is an option, and whether it has an option-argument. -/
def optionKind? (c : Char) : Bytes → Option Bool
  | [] => none
  | [d] => if c == d then some false else none
  | d :: ':' :: rest => if c == d then some true else optionKind? c rest
  | d :: rest => if c == d then some false else optionKind? c rest

/-- The result of `getopts`: the letter, the change of `OPTARG`, the new position, a diagnostic, and
whether the options are at their end. -/
structure NextOption where
  letter : Char
  value : Option (Option Bytes)
  place : OptionPlace
  message : Bytes
  ended : Bool

/-- The rest of the current cluster of options. -/
def lettersLeft (args : List Bytes) (place : OptionPlace) : Bytes :=
  match place.offset with
  | some offset => if place.index ≤ 1 then [] else ((args[place.index - 2]?).getD []).drop offset
  | none => []

/-- Parses the next option for `getopts`. -/
def nextOption (letters : Bytes) (args : List Bytes) (place : OptionPlace) : NextOption :=
  let ended (index : Nat) : NextOption := ⟨'?', none, ⟨index, none⟩, [], true⟩
  let quiet := letters.head? == some ':'
  -- The letter `c` is in the argument before `OPTIND`, in a cluster.
  let take (c : Char) (more : Bytes) (index : Nat) : NextOption :=
    let size := ((args[index - 2]?).getD []).length
    let rest : OptionPlace := ⟨index, some (size - more.length)⟩
    match optionKind? c (optionLetters letters) with
    | none =>
      if quiet then ⟨'?', some (some [c]), rest, [], false⟩
      else ⟨'?', some none, rest, Bytes.words ["Illegal option -"] ++ [c, '\n'], false⟩
    | some false => ⟨c, some (some []), rest, [], false⟩
    | some true =>
      if !more.isEmpty then ⟨c, some (some more), ⟨index, none⟩, [], false⟩
      else
        match args[index - 1]? with
        | some value => ⟨c, some (some value), ⟨index + 1, none⟩, [], false⟩
        | none =>
          if quiet then ⟨':', some (some [c]), ⟨index, none⟩, [], false⟩
          else ⟨'?', some none, ⟨index, none⟩,
            Bytes.words ["No arg for -"] ++ c :: Bytes.words [" option\n"], false⟩
  match lettersLeft args place with
  | c :: more => take c more place.index
  | [] =>
    match args[place.index - 1]? with
    | some ['-', '-'] => ended (place.index + 1)
    | some ('-' :: c :: more) => take c more (place.index + 1)
    | _ => ended place.index

/-- The builtin `getopts`. -/
def getOptions : Builtin := fun args => do
  let (_, args) ← takeOptions "" "" args
  match args with
  | letters :: target :: more =>
    let e ← env
    let all := if more.isEmpty then e.arguments else more
    let place := if all.length + 1 < e.optionPlace.index then ⟨1, none⟩ else e.optionPlace
    let next := nextOption letters all place
    let _ ← write 2 next.message
    match next.value with
    | some (some value) => assign "OPTARG".toList value false
    | some none => putSetting "OPTARG".toList none
    | none => pure ()
    store "OPTIND".toList (toString next.place.index).toList false
    if isName target then assign target [next.letter] false
    else refuse (target ++ Bytes.words [": bad variable name"])
    modifyEnv fun e => { e with optionPlace := next.place }
    finished (if next.ended then 1 else 0)
  | _ => refuse (Bytes.words ["Usage: getopts optstring var [arg...]"])

end GraphCodec.Formatter.Shell.Builtin
