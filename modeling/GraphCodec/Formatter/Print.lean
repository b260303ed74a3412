import GraphCodec.Formatter.Decimal
import GraphCodec.Formatter.Manual
import GraphCodec.Formatter.Quoting

/-!
# The utilities `echo` and `printf`
-/

set_option autoImplicit false

namespace GraphCodec.Formatter

/-! ## Escapes -/

/-- The result of parsing an escape sequence. -/
inductive Escape where
  /-- Bytes, and the length of the escape after the backslash. -/
  | bytes (written : Bytes) (size : Nat)
  /-- The escape `\c`, which ends the output. -/
  | stop
  /-- No escape: a literal backslash. -/
  | none
  /-- A fatal error. -/
  | fault (message : Bytes)
  deriving DecidableEq

namespace Escape

def isOctal (c : Char) : Bool := '0' ≤ c && c ≤ '7'

/-- An octal escape with a maximal number of digits. -/
def octal (most skip : Nat) (cs : Bytes) : Escape :=
  let digits := (cs.take most).takeWhile isOctal
  .bytes [Char.ofNat (Digits.number 8 digits % 256)] (skip + digits.length)

/-- The single-letter escapes. -/
def letter? : Char → Option Char
  | '\\' => some '\\'
  | 'a' => some '\x07'
  | 'b' => some '\x08'
  | 'e' => some '\x1b'
  | 'f' => some '\x0c'
  | 'n' => some '\n'
  | 'r' => some '\r'
  | 't' => some '\t'
  | 'v' => some '\x0b'
  | _ => Option.none

end Escape

/-- The end of replacing escapes. -/
inductive Unescaped where
  | whole | stopped
  | fault (message : Bytes)
  deriving DecidableEq

/-- Replaces escapes; `skip` bytes belong to the current one. -/
def unescape (escape : Bytes → Escape) : Nat → Bytes → Bytes × Unescaped
  | _, [] => ([], .whole)
  | skip + 1, _ :: cs => unescape escape skip cs
  | 0, c :: cs =>
    if c == '\\' then
      match escape cs with
      | .bytes written size =>
        let (out, ending) := unescape escape size cs
        (written ++ out, ending)
      | .stop => ([], .stopped)
      | .fault message => ([], .fault message)
      | .none =>
        let (out, ending) := unescape escape 0 cs
        (c :: out, ending)
    else
      let (out, ending) := unescape escape 0 cs
      (c :: out, ending)

/-! ## The utility `echo` -/

/-- The escapes of `echo -e`. -/
def echoEscape : Bytes → Escape
  | 'c' :: _ => .stop
  | 'x' :: cs =>
    let digits := (cs.take 2).takeWhile (Digits.isIn 16)
    if digits.isEmpty then .none
    else .bytes [Char.ofNat (Digits.number 16 digits)] (1 + digits.length)
  | '0' :: cs => Escape.octal 3 1 cs
  | c :: cs =>
    match Escape.letter? c with
    | some d => .bytes [d] 1
    | none => if Escape.isOctal c then Escape.octal 3 0 (c :: cs) else .none
  | [] => .none

/-- The options of `echo`, and its operands. -/
def echoOptions : List Bytes → Bytes × List Bytes
  | ('-' :: c :: cs) :: rest =>
    if (c :: cs).all fun d => d == 'n' || d == 'e' || d == 'E' then
      let (letters, others) := echoOptions rest
      (c :: cs ++ letters, others)
    else ([], ('-' :: c :: cs) :: rest)
  | args => ([], args)

/-- The utility `echo`: writes its operands. -/
def echo : Program := fun call =>
  let strict := call.isStrict
  let optional := !strict || call.args.head? == some ['-', 'n']
  match if optional then call.onlyAnswer? .echo else none with
  | some answer => answer
  | none =>
    let (letters, rest) := if optional then echoOptions call.args else ([], call.args)
    let text := [' '].intercalate rest
    let escapes := strict || (letters.filter (· ≠ 'n')).getLast? == some 'e'
    let newline := if letters.contains 'n' then [] else ['\n']
    if escapes then
      let (out, ending) := unescape echoEscape 0 text
      .success (out ++ if ending == .stopped then [] else newline) call.input
    else .success (text ++ newline) call.input

/-! ## The utility `printf` -/

/-- A field width or a precision. -/
inductive Amount where
  | absent
  | given (n : Nat)
  /-- The next argument, for `*`. -/
  | argument
  deriving DecidableEq

/-- A conversion specification. -/
structure Directive where
  flags : Bytes
  width : Amount
  precision : Amount
  conversion : Char
  /-- The rest from a misplaced `*` on. Such a specification is printed literally. -/
  stray : Option Bytes := none
  /-- The diagnostic of an invalid specification. -/
  fault : Option Bytes := none
  deriving DecidableEq

inductive FormatPart where
  | literal (bytes : Bytes)
  | stop
  | directive (d : Directive)
  /-- A fatal error with its diagnostic. -/
  | fault (message : Bytes)
  deriving DecidableEq

/-- The differences between the utility `printf` and the shell builtin. -/
structure FormatStyle where
  /-- The escapes in a format. -/
  escape : Bytes → Escape
  /-- The escapes in an argument of `%b`. -/
  argumentEscape : Bytes → Escape
  /-- The flag characters. -/
  flags : Bytes
  /-- Whether length modifiers are allowed. -/
  sizes : Bool
  /-- Whether misplaced `*`s are allowed. -/
  strayStars : Bool
  /-- Whether an unknown escape consumes the next byte. -/
  takesUnknown : Bool
  /-- Whether a conversion specifier is allowed with flags, without a width, and with a
  precision. -/
  allowed : Bytes → Bool → Bool → Char → Bool
  /-- The diagnostic of an invalid conversion specification. -/
  badDirective : Bytes → Bytes
  noConversion : Bytes → Bytes
  /-- Quotes a string in a diagnostic. -/
  quote : Bytes → Bytes
  notNumeric : String
  notWhole : String
  /-- Whether trailing characters of a number are reported before overflow. -/
  restFirst : Bool
  /-- Whether excess arguments are reported. -/
  warnsExcess : Bool
  /-- Whether character constants are single bytes, and what follows is ignored. -/
  byteConstants : Bool
  /-- Whether characters after a character constant are reported. -/
  warnsConstants : Bool
  /-- Whether a `*` argument is truncated to 32 bits. -/
  cutsAmounts : Bool
  /-- The diagnostic of a width or precision overflow. -/
  tooWide : Bytes
  /-- The exit status of a fatal error. -/
  faultStatus : Nat
  /-- The exit status of `\c`, if it is fixed. -/
  stopStatus : Option Nat
  /-- The floating-point format. -/
  format : RealFormat
  /-- The conversion `%q`. -/
  shellText : Bytes → Bytes
  /-- The locale. -/
  alphabet : Alphabet

namespace FormatStyle

/-- Parses a width or precision, and misplaced `*`s and digits after it. -/
def amount (style : FormatStyle) (cs : Bytes) : Amount × Bytes × Bytes :=
  match cs with
  | '*' :: rest => (.argument, [], rest)
  | _ =>
    let digits := cs.takeWhile Char.isDigit
    let rest := cs.drop digits.length
    let stray := if style.strayStars then rest.takeWhile fun c => c == '*' || c.isDigit else []
    (if digits.isEmpty then .absent else .given (Digits.number 10 digits), stray,
      rest.drop stray.length)

/-- Parses a conversion specification after `%`. -/
def directive (style : FormatStyle) (cs : Bytes) : Directive × Bytes :=
  let flags := cs.takeWhile style.flags.contains
  let (width, strayWidth, rest) := style.amount (cs.drop flags.length)
  let afterWidth := rest
  let (precision, strayPrecision, rest) :=
    match rest with
    | '.' :: more =>
      let (p, stray, rest) := style.amount more
      (if p == Amount.absent then Amount.given 0 else p, stray, rest)
    | _ => (Amount.absent, [], rest)
  -- After a misplaced `*` the rest is literal.
  let stray :=
    if !strayWidth.isEmpty then
      some (strayWidth ++ afterWidth.take (afterWidth.length - rest.length))
    else if !strayPrecision.isEmpty then some strayPrecision
    else none
  let seen := if strayWidth.isEmpty then precision else .absent
  let sizes := if style.sizes then rest.takeWhile "lLhjtz".toList.contains else []
  let rest := rest.drop sizes.length
  let written (rest : Bytes) : Bytes := '%' :: cs.take (cs.length - rest.length)
  match rest with
  | [] => (⟨flags, width, precision, 's', none, some (style.noConversion (written []))⟩, [])
  | c :: after =>
    let isShort := flags.isEmpty && width == Amount.absent && sizes.isEmpty
    let allowed := style.allowed flags isShort (precision != Amount.absent) c
    let fault := if allowed then none else some (style.badDirective (written after))
    (⟨flags, width, if stray.isSome then seen else precision, c, stray, fault⟩, after)

/-- Parses a format; the number of bytes is the fuel. -/
def parts (style : FormatStyle) : Nat → Bytes → List FormatPart
  | 0, _ => []
  | _, [] => []
  | bound + 1, c :: cs =>
    if c == '\\' then
      match style.escape cs with
      | .bytes written size => .literal written :: style.parts bound (cs.drop size)
      | .stop => [.stop]
      | .none =>
        let taken := if style.takesUnknown then cs.take 1 else []
        .literal (c :: taken) :: style.parts bound (cs.drop taken.length)
      | .fault message => [.fault message]
    else if c == '%' then
      match cs with
      | '%' :: rest => .literal [c] :: style.parts bound rest
      | _ =>
        let (d, rest) := style.directive cs
        .directive d :: style.parts bound rest
    else .literal [c] :: style.parts bound cs

end FormatStyle

/-! ### Running a format -/

structure FormatState where
  args : List Bytes
  /-- The output and diagnostics, reversed. -/
  written : List (Side × Bytes)
  status : Nat
  stopped : Bool
  /-- The diagnostic of a fatal error. -/
  fault : Option Bytes

namespace FormatState

/-- Consumes an argument. -/
def next (s : FormatState) : Option Bytes × FormatState :=
  match s.args with
  | [] => (none, s)
  | a :: rest => (some a, { s with args := rest })

def complain (s : FormatState) (message : Bytes) (fails : Bool) : FormatState :=
  { s with
    written := (.err, message) :: s.written
    status := if fails then 1 else s.status }

end FormatState

/-- Pads a text to the field width. -/
def pad (flags : Bytes) (width : Nat) (zeros : Bool) (sign body : Bytes) : Bytes :=
  let missing := width - (sign.length + body.length)
  if flags.contains '-' then sign ++ body ++ List.replicate missing ' '
  else if zeros && flags.contains '0' then sign ++ List.replicate missing '0' ++ body
  else List.replicate missing ' ' ++ sign ++ body

/-- The sign of a signed conversion. -/
def signOf (flags : Bytes) (negative : Bool) : Bytes :=
  if negative then ['-'] else if flags.contains '+' then ['+'] else
    if flags.contains ' ' then [' '] else []

namespace FormatStyle

/-- The value of a character constant. -/
def constant (style : FormatStyle) (s : FormatState) (text : Bytes) : Int × FormatState :=
  if style.byteConstants then (((text.headD (Char.ofNat 0)).toNat : Int), s)
  else
    let (code, size) : Nat × Nat :=
      match if style.alphabet == .unicode then Bytes.character? text else none with
      | some (c, size) => (c.toNat, size)
      | none => ((text.headD (Char.ofNat 0)).toNat, 1)
    let after := text.drop size
    if after.isEmpty || !style.warnsConstants then (code, s)
    else (code, s.complain (Bytes.words ["warning: "] ++ after ++ Bytes.words
      [": character(s) following character constant have been ignored"]) false)

/-- Reports an argument that is not completely converted. -/
def check (style : FormatStyle) (text rest : Bytes) (any : Bool) (s : FormatState) : FormatState :=
  if !any then s.complain (style.quote text ++ Bytes.words [": ", style.notNumeric]) true
  else if !rest.isEmpty then s.complain (style.quote text ++ Bytes.words [": ", style.notWhole]) true
  else s

/-- Whether an argument starts with a quote. -/
def isConstant (style : FormatStyle) : Bytes → Bool
  | '"' :: rest | '\x27' :: rest => style.byteConstants || !rest.isEmpty
  | _ => false

/-- Reports an argument that is out of range or not completely converted. -/
def checkRange (style : FormatStyle) (text rest : Bytes) (any outOfRange : Bool)
    (s : FormatState) : FormatState :=
  if outOfRange && !(style.restFirst && !rest.isEmpty) then
    s.complain (style.quote text ++ Bytes.words [": Numerical result out of range"]) true
  else style.check text rest any s

/-- Converts an argument to a signed or unsigned integer; a negative unsigned one wraps around. -/
def integer (style : FormatStyle) (signed : Bool) (arg : Option Bytes) (s : FormatState) :
    Int × FormatState :=
  let most := if signed then Digits.most else Digits.wordSize - 1
  let least := if signed then Digits.least else -most
  match arg with
  | none => (0, s)
  | some [] => (0, s)
  | some text =>
    if style.isConstant text then style.constant s text.tail
    else
      let r := Digits.integer text
      let outOfRange := r.value < least || most < r.value
      let value := if !outOfRange then r.value
        else if signed && r.value < least then least
        else most
      (value, style.checkRange text r.rest r.any outOfRange s)

def real (style : FormatStyle) (arg : Option Bytes) (s : FormatState) : Real × FormatState :=
  match arg with
  | none => (.finite false 0 1, s)
  | some [] => (.finite false 0 1, s)
  | some text =>
    if style.isConstant text then
      let (n, s) := style.constant s text.tail
      (.finite false n.toNat 1, s)
    else
      let r := Real.read style.format text
      (r.value, style.checkRange text r.rest r.any r.outOfRange s)

/-- The value of a width or precision. A negative width is left-justified. An argument that
overflows is a fatal error. -/
def amountValue (style : FormatStyle) (what : String) (a : Amount) (s : FormatState) :
    Option Int × FormatState :=
  match a with
  | .absent => (none, s)
  | .given n => (some n, s)
  | .argument =>
    if s.fault.isSome then (none, s)
    else
      let (arg, s) := s.next
      let (n, s) := style.integer true arg s
      let tooLarge := 0x7fffffff < n || (what == "field width" && n < -0x80000000)
      if style.cutsAmounts then (some (Int.bmod n 0x100000000), s)
      else if tooLarge then
        (none, { s with
          fault := some (Bytes.words ["invalid ", what, ": "] ++ style.quote (arg.getD [])) })
      else (some n, s)

/-- Whether a width or precision overflows. -/
def isTooWide (a : Amount) : Bool :=
  match a with
  | .given n => 0x7fffffff < n
  | _ => false

/-- A specification that is printed literally. -/
def strayText (flags : Bytes) (width : Option Int) (precision : Option Nat) (stray : Bytes) :
    Bytes :=
  let has (c : Char) : Bytes := if flags.contains c then [c] else []
  let number (n : Nat) : Bytes := Digits.write 10 n
  '%' :: has '#' ++ (if flags.contains '+' then ['+'] else has ' ') ++
    (if flags.contains '-' then ['-'] else has '0') ++
    ((width.filter (· ≠ 0)).map fun n => number n.natAbs).getD [] ++
    (precision.map fun n => '.' :: number n).getD [] ++ stray

/-- The digits of an integer with a precision. -/
def digitsOf (precision : Option Nat) (base : Nat) (upper : Bool) (n : Nat) : Bytes :=
  let digits := if n = 0 && precision == some 0 then [] else Digits.write base n
  let digits := if upper then digits.map Char.toUpper else digits
  List.replicate (precision.getD 1 - digits.length) '0' ++ digits

/-- A floating-point conversion. -/
def writeReal (format : RealFormat) (conversion : Char) (flags : Bytes) (width : Nat)
    (precision : Option Nat) (r : Real) : Bytes :=
  let upper := conversion.isUpper
  let cased (b : Bytes) : Bytes := if upper then b.map Char.toUpper else b
  match r with
  | .undefined negative => pad flags width false (signOf flags negative) (cased "nan".toList)
  | .infinite negative => pad flags width false (signOf flags negative) (cased "inf".toList)
  | .finite negative num den =>
    let p := precision.getD 6
    let point := flags.contains '#'
    let body := match conversion.toLower with
      | 'f' => Real.fixed p point num den
      | 'e' => Real.scientific p point num den
      | 'a' => Real.hexadecimal format precision point num den
      | _ => Real.general p point num den
    -- Zero padding comes after the prefix of the base.
    let mark := if conversion.toLower == 'a' then cased (body.take 2) else []
    pad flags width true (signOf flags negative ++ mark) (cased (body.drop mark.length))

/-- The output of a conversion. -/
def convert (style : FormatStyle) (conversion : Char) (flags : Bytes) (width : Nat)
    (precision : Option Nat) (arg : Option Bytes) (s : FormatState) : Bytes × FormatState :=
  let zeros := precision.isNone
  match conversion with
  | 's' =>
    let text := arg.getD []
    (pad flags width false [] ((precision.map fun p => text.take p).getD text), s)
  | 'c' => (pad flags width false [] [(arg.getD []).headD (Char.ofNat 0)], s)
  | 'b' =>
    let (text, ending) := unescape style.argumentEscape 0 (arg.getD [])
    let text := (precision.map fun p => text.take p).getD text
    (pad flags width false [] text,
      { s with
        stopped := ending == .stopped
        fault := match ending with
          | .fault message => some message
          | _ => s.fault })
  | 'q' => ((arg.map style.shellText).getD [], s)
  | 'd' | 'i' =>
    let (n, s) := style.integer true arg s
    (pad flags width zeros (signOf flags (n < 0)) (digitsOf precision 10 false n.natAbs), s)
  | 'u' | 'o' | 'x' | 'X' =>
    let (n, s) := style.integer false arg s
    let n := (n % Digits.wordSize).toNat
    let hex := conversion == 'x' || conversion == 'X'
    let base := if hex then 16 else if conversion == 'o' then 8 else 10
    let digits := digitsOf precision base (conversion == 'X') n
    let alternate := flags.contains '#'
    let digits :=
      if alternate && base = 8 && digits.head? != some '0' then '0' :: digits else digits
    let mark := if alternate && hex && n ≠ 0 then ['0', conversion] else []
    (pad flags width zeros mark digits, s)
  | _ =>
    let (r, s) := style.real arg s
    (writeReal style.format conversion flags width precision r, s)

/-- Runs a conversion specification. -/
def follow (style : FormatStyle) (d : Directive) (s : FormatState) : FormatState :=
  let (width, s) := style.amountValue "field width" d.width s
  let (precision, s) := style.amountValue "precision" d.precision s
  let flags := if width.any (· < 0) then '-' :: d.flags else d.flags
  let precision := if precision.any (· < 0) then none else precision.map Int.toNat
  if s.fault.isSome then s
  else if d.fault.isSome then { s with fault := d.fault }
  else
    let (arg, s) := s.next
    let tooWide := isTooWide d.width || isTooWide d.precision
    -- A width that overflows is not applied, nor is that of a literal specification.
    let room := if tooWide || d.stray.isSome || width == some (-0x80000000) then 0
      else (width.getD 0).natAbs
    let places := if tooWide then none else precision
    let (bytes, s) := style.convert d.conversion flags room places arg s
    let long := if "diouxX".toList.contains d.conversion then ['l'] else []
    let bytes := match d.stray with
      | some stray => strayText flags width precision stray ++ long ++ [d.conversion]
      | none => bytes
    if tooWide then { s with fault := some style.tooWide }
    else { s with written := (.out, bytes) :: s.written }

/-- Runs the parts of a format. -/
def pass (style : FormatStyle) : List FormatPart → FormatState → FormatState
  | [], s => s
  | part :: rest, s =>
    if s.stopped || s.fault.isSome then s
    else
      match part with
      | .literal bytes => style.pass rest { s with written := (.out, bytes) :: s.written }
      | .stop => { s with stopped := true }
      | .fault message => { s with fault := some message }
      | .directive d => style.pass rest (style.follow d s)

/-- Reuses a format while there are arguments; their number is the fuel. -/
def passes (style : FormatStyle) (parts : List FormatPart) : Nat → FormatState → FormatState
  | 0, s => s
  | bound + 1, s =>
    let s' := style.pass parts s
    if s'.fault.isSome || s'.stopped then s'
    else if s'.args.isEmpty then s'
    else if s'.args.length = s.args.length then
      match s'.args with
      | a :: _ =>
        if style.warnsExcess then
          s'.complain (Bytes.words ["warning: ignoring excess arguments, starting with "] ++
            style.quote a) false
        else s'
      | [] => s'
    else style.passes parts bound s'

/-- Runs a format; diagnostics have the name as prefix and are interleaved with the output. -/
def run (style : FormatStyle) (name format : Bytes) (args : List Bytes) (rest : Bytes) : Outcome :=
  let parts := style.parts (format.length + 1) format
  let s := style.passes parts (args.length + 1) ⟨args, [], 0, false, none⟩
  let written := s.written.reverse ++ (s.fault.map fun m => (Side.err, m)).toList
  let written := written.map fun (side, bytes) =>
    (side, if side = .err then name ++ bytes ++ ['\n'] else bytes)
  let status := if s.stopped then style.stopStatus.getD s.status else s.status
  ⟨written, rest, [], .exited (if s.fault.isSome then style.faultStatus else status)⟩

end FormatStyle

/-- The escapes in a format. -/
def formatEscape (style : Bytes → Escape) (cs : Bytes) : Escape :=
  match cs with
  | c :: _ =>
    match Escape.letter? c with
    | some d => .bytes [d] 1
    | none => if Escape.isOctal c then Escape.octal 3 0 cs else style cs
  | [] => .none

/-- The error of `\x` without digits. -/
def noDigits : Escape := .fault (Bytes.words ["missing hexadecimal number in escape"])

/-- The encoding of a code point, or its escape if the locale lacks it. -/
def characterBytes (alphabet : Alphabet) (code : Nat) : Bytes :=
  let padded (size : Nat) : Bytes :=
    let digits := (Digits.write 16 code).map Char.toUpper
    List.replicate (size - digits.length) '0' ++ digits
  if code < 0x80 || (alphabet == .unicode && code.isValidChar) then
    Bytes.ofText (String.singleton (Char.ofNat code))
  else if code < 0x10000 then '\\' :: 'u' :: padded 4
  else '\\' :: 'U' :: padded 8

/-- The escapes `\uhhhh` and `\Uhhhhhhhh`. Controls and the basic character set are errors, except
for three of them. -/
def universal (alphabet : Alphabet) (letter : Char) (count : Nat) (cs : Bytes) : Escape :=
  let digits := (cs.take count).takeWhile (Digits.isIn 16)
  if digits.length < count then noDigits
  else
    let code := Digits.number 16 digits
    let allowed := [0x24, 0x40, 0x60].contains code
    if (code ≤ 0x9f && !allowed) || (0xd800 ≤ code && code ≤ 0xdfff) then
      .fault (Bytes.words ["invalid universal character name \\"] ++
        letter :: digits.map Char.toLower)
    else .bytes (characterBytes alphabet code) (1 + count)

/-- The escapes of the utility `printf`. -/
def printEscape (alphabet : Alphabet) : Bytes → Escape
  | '"' :: _ => .bytes ['"'] 1
  | 'c' :: _ => .stop
  | 'x' :: cs =>
    let digits := (cs.take 2).takeWhile (Digits.isIn 16)
    if digits.isEmpty then noDigits
    else .bytes [Char.ofNat (Digits.number 16 digits)] (1 + digits.length)
  | 'u' :: cs => universal alphabet 'u' 4 cs
  | 'U' :: cs => universal alphabet 'U' 8 cs
  | _ => .none

/-- The flags, width and precision that a conversion specifier allows. -/
def printAllows (flags : Bytes) (isShort precision : Bool) (c : Char) : Bool :=
  if c == 'b' || c == 'q' then isShort && !precision
  else
    "aAcdeEfFgGiosuxX".toList.contains c &&
      (!(flags.contains '\x27' || flags.contains 'I') || !"aAceEosxX".toList.contains c) &&
      (!flags.contains '#' || !"cdisu".toList.contains c) &&
      (!flags.contains '0' || !"cs".toList.contains c) &&
      (!precision || c ≠ 'c')

/-- The style of the utility `printf`. -/
def printStyle (call : Call) : FormatStyle where
  escape := formatEscape (printEscape call.alphabet)
  argumentEscape := fun cs =>
    match cs with
    | '0' :: more => Escape.octal 3 1 more
    | _ => formatEscape (printEscape call.alphabet) cs
  flags := "-+ #0'I".toList
  sizes := true
  strayStars := false
  takesUnknown := true
  allowed := printAllows
  badDirective := fun d => d ++ Bytes.words [": invalid conversion specification"]
  noConversion := fun d => d ++ Bytes.words [": invalid conversion specification"]
  quote := call.spoken
  notNumeric := "expected a numeric value"
  notWhole := "value not completely converted"
  restFirst := false
  warnsExcess := true
  byteConstants := false
  warnsConstants := !call.isStrict
  cutsAmounts := false
  tooWide :=
    Bytes.words ["cannot perform formatted output: Value too large for defined data type"]
  faultStatus := 1
  stopStatus := some 0
  format := .extended
  shellText := Quoting.shellText call.alphabet false
  alphabet := call.alphabet

/-- The utility `printf`: writes formatted output. -/
def print : Program := fun call =>
  match call.onlyAnswer? .print with
  | some answer => answer
  | none =>
    match if call.args.head? == some ['-', '-'] then call.args.tail else call.args with
    | [] => call.refuse (Bytes.words ["missing operand"])
    | format :: rest => (printStyle call).run (call.name ++ [':', ' ']) format rest call.input

end GraphCodec.Formatter
