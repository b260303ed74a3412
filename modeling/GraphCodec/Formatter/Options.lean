import GraphCodec.Formatter.Outcome

/-!
# Command-line options

Short options may be clustered; an option-argument follows in the same argument or is the next
one. Long options may be abbreviated to unambiguous beginnings.
-/

set_option autoImplicit false

namespace GraphCodec.Formatter

/-- Whether an option has an option-argument. -/
inductive Valued where
  | never | always | perhaps
  deriving DecidableEq, Repr

/-- The declaration of an option: its letter, its long name, and its option-argument. -/
structure Switch where
  letter : Char
  long : String
  valued : Valued

/-- The internal letter of `--help`. -/
def helpLetter : Char := 'η'

/-- The internal letter of `--version`. -/
def versionLetter : Char := 'ε'

/-- Whether an option is `--help` or `--version`, which end option parsing. -/
def isQuestion (letter : Char) : Bool := letter == helpLetter || letter == versionLetter

/-- The parsed options in order, and the operands. -/
structure Given where
  options : List (Char × Option Bytes)
  operands : List Bytes
  /-- The usage error after the last option. -/
  fault : Option Bytes

namespace Given

def has (g : Given) (letter : Char) : Bool := g.options.any fun o => o.1 == letter

/-- Prepends options. -/
def behind (options : List (Char × Option Bytes)) (g : Given) : Given :=
  { g with options := options ++ g.options }

/-- Fails with the usage error. -/
def checked (g : Given) : Except Bytes Given :=
  match g.fault with
  | some fault => .error fault
  | none => .ok g

end Given

/-- The options of one argument, the one whose option-argument is the next argument, and the usage
error. -/
structure SwitchReading where
  given : List (Char × Option Bytes)
  waiting : Option Switch
  fault : Option Bytes

/-- Parses a cluster of short options. A long option without a short name has an internal letter. -/
def readSwitchLetters (switches : List Switch) : Bytes → SwitchReading
  | [] => ⟨[], none, none⟩
  | c :: cs =>
    match switches.find? fun s => s.letter == c with
    | none => ⟨[], none, some (Bytes.words ["invalid option -- '"] ++ c :: ['\x27'])⟩
    | some s =>
      match s.valued, cs with
      | .never, _ =>
        let r := readSwitchLetters switches cs
        { r with given := (c, none) :: r.given }
      | .always, [] => ⟨[], some s, none⟩
      | .perhaps, [] => ⟨[(c, none)], none, none⟩
      | _, _ => ⟨[(c, some cs)], none, none⟩

/-- The option of a long name, which may be abbreviated; `arg` is the whole argument. -/
def findLong (switches : List Switch) (arg name : Bytes) : Except Bytes Switch :=
  let shown := Bytes.words ["'--"] ++ arg ++ ['\x27']
  let close := switches.filter fun s => s.long ≠ "" && name.isPrefixOf s.long.toList
  match close.find? fun s => s.long.toList == name with
  | some s => .ok s
  | none =>
    match close with
    | [] => .error (Bytes.words ["unrecognized option "] ++ shown)
    | [s] => .ok s
    | s :: rest =>
      if rest.all fun t => t.letter == s.letter then .ok s
      else .error (Bytes.words ["option "] ++ shown ++ Bytes.words (" is ambiguous; possibilities:" ::
        close.map fun t => " '--" ++ t.long ++ "'"))

/-- Parses a long option. -/
def readLong (switches : List Switch) (arg : Bytes) : SwitchReading :=
  let name := arg.takeWhile (· ≠ '=')
  match findLong switches arg name with
  | .error fault => ⟨[], none, some fault⟩
  | .ok s =>
    match arg.dropWhile (· ≠ '='), s.valued with
    | [], .always => ⟨[], some s, none⟩
    | [], _ => ⟨[(s.letter, none)], none, none⟩
    | _, .never =>
      ⟨[], none, some (Bytes.words ["option '--", s.long, "' doesn't allow an argument"])⟩
    | _ :: value, _ => ⟨[(s.letter, some value)], none, none⟩

/-- Parsing as by `getopt_long`. If `mixed`, options and operands may be interspersed. -/
def readSwitches (switches : List Switch) (mixed : Bool) :
    Option (Switch × Bool) → List Bytes → Given
  | none, [] => ⟨[], [], none⟩
  | some (s, isLong), [] =>
    ⟨[], [], some (if isLong then Bytes.words ["option '--", s.long, "' requires an argument"]
      else Bytes.words ["option requires an argument -- '"] ++ s.letter :: ['\x27'])⟩
  | some (s, _), arg :: rest =>
    (readSwitches switches mixed none rest).behind [(s.letter, some arg)]
  | none, arg :: rest =>
    match arg with
    | ['-', '-'] => ⟨[], rest, none⟩
    | '-' :: '-' :: name =>
      let r := readLong switches name
      if r.fault.isSome || r.given.any fun o => isQuestion o.1 then ⟨r.given, [], r.fault⟩
      else (readSwitches switches mixed (r.waiting.map (·, true)) rest).behind r.given
    | '-' :: c :: cs =>
      let r := readSwitchLetters switches (c :: cs)
      if r.fault.isSome then ⟨r.given, [], r.fault⟩
      else (readSwitches switches mixed (r.waiting.map (·, false)) rest).behind r.given
    | _ =>
      if mixed then
        let g := readSwitches switches mixed none rest
        { g with operands := arg :: g.operands }
      else ⟨[], arg :: rest, none⟩

/-- Whether `POSIXLY_CORRECT` is set. -/
def Call.isStrict (call : Call) : Bool := (call.settings.lookup "POSIXLY_CORRECT".toList).isSome

/-- The outcome of a usage error. -/
def Call.refuse (call : Call) (text : Bytes) : Outcome :=
  call.fail (text ++ Bytes.words ["\nTry '"] ++ call.name ++
    Bytes.words [" --help' for more information."]) 1

end GraphCodec.Formatter
