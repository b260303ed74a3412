import GraphCodec.Formatter.Outcome

/-!
# Quoting in diagnostics

The quoting style of the locale, with escapes; and that of the shell, with quotes only if needed.
-/

set_option autoImplicit false

namespace GraphCodec.Formatter

namespace Quoting

/-- A character, or an invalid byte sequence. -/
structure Glyph where
  bytes : Bytes
  seen : Bool
  deriving DecidableEq

/-- Whether bytes are an incomplete character. -/
def isCutOff (bytes : Bytes) : Bool :=
  match bytes with
  | [] => false
  | b :: rest =>
    match Bytes.announced b.toNat with
    | some (size, _) => rest.length + 1 < size && rest.all fun c => 0x80 ≤ c.toNat && c.toNat < 0xC0
    | none => false

/-- The glyphs of a text; `skip` bytes belong to the current one. -/
def glyphs (alphabet : Alphabet) : Nat → Bytes → List Glyph
  | _, [] => []
  | skip + 1, _ :: cs => glyphs alphabet skip cs
  | 0, c :: cs =>
    if alphabet == .bytes || c.toNat < 0x80 then
      ⟨[c], ' ' ≤ c && c ≤ '~'⟩ :: glyphs alphabet 0 cs
    else
      match Bytes.character? (c :: cs) with
      | some (d, size) => ⟨(c :: cs).take size, Text.isMeaningful d⟩ :: glyphs alphabet (size - 1) cs
      | none => if isCutOff (c :: cs) then [⟨c :: cs, false⟩] else ⟨[c], false⟩ :: glyphs alphabet 0 cs

/-- An octal escape. -/
def octal (c : Char) : Bytes :=
  '\\' :: [c.toNat / 64, c.toNat / 8 % 8, c.toNat % 8].map fun d => Char.ofNat ('0'.toNat + d)

/-- The letter of the escape of a control character. -/
def controlLetter? : Char → Option Char
  | '\x07' => some 'a'
  | '\x08' => some 'b'
  | '\x0c' => some 'f'
  | '\x0b' => some 'v'
  | '\n' => some 'n'
  | '\r' => some 'r'
  | '\t' => some 't'
  | _ => none

/-- The escape of an unprintable glyph. -/
def escape? (g : Glyph) : Option Bytes :=
  if g.seen then none
  else
    match g.bytes with
    | [c] =>
      match controlLetter? c with
      | some d => some ['\\', d]
      | none => some (octal c)
    | bytes => some (bytes.flatMap octal)

/-! ## The style of the locale -/

/-- The quoting style of the locale. -/
def spoken (alphabet : Alphabet) (text : Bytes) : Bytes :=
  let (left, right) : Bytes × Bytes := match alphabet with
    | .unicode => (Bytes.ofText "‘", Bytes.ofText "’")
    | .bytes => (['\x27'], ['\x27'])
  let body := (glyphs alphabet 0 text).flatMap fun g =>
    match escape? g with
    | some e => e
    | none => if g.bytes == right || g.bytes == ['\\'] then '\\' :: g.bytes else g.bytes
  left ++ body ++ right

/-! ## The style of the shell -/

/-- The shell metacharacters. -/
def shellSigns : Bytes := "?\\ !\"$&()*;<=>[^\x60|'".toList

/-- Whether the shell quoting style needs quotes; `colon` if a colon does. -/
def needsQuotes (alphabet : Alphabet) (colon : Bool) (text : Bytes) : Bool :=
  text.isEmpty || text == ['\x7b'] || text == ['\x7d'] ||
    text.head? == some '#' || text.head? == some '~' ||
    text.any (fun c => shellSigns.contains c || (colon && c == ':')) ||
    (glyphs alphabet 0 text).any fun g => !g.seen

/-- The characters that do not force single quotes; some only at the start. -/
def isCommon (first : Bool) (g : Glyph) : Bool :=
  match g.bytes with
  | [c] =>
    if !g.seen then false
    else if c == '#' || c == '~' || c == '\x7b' || c == '\x7d' then
      first && (c == '#' || c == '~')
    else c == ' ' || c == '\x27' || !shellSigns.contains c
  | _ => g.seen

/-- The glyphs of a text in single quotes; `inEscape` is inside `$'…'`. -/
def quotedGlyphs : Bool → List Glyph → Bytes
  | _, [] => []
  | inEscape, g :: gs =>
    match escape? g with
    | some e => (if inEscape then [] else "'$'".toList) ++ e ++ quotedGlyphs true gs
    | none =>
      if g.bytes == ['\x27'] then "'\\''".toList ++ quotedGlyphs false gs
      else (if inEscape then ['\x27', '\x27'] else []) ++ g.bytes ++ quotedGlyphs false gs

/-- The quoting style shell-escape-always. A text with a quote that ends with an escape starts with
an empty string. -/
def shellQuoted (alphabet : Alphabet) (text : Bytes) : Bytes :=
  let gs := glyphs alphabet 0 text
  let common := match gs with
    | [] => true
    | g :: rest => isCommon true g && rest.all (isCommon false)
  let hasQuote := text.contains '\x27'
  if hasQuote && common then '"' :: text ++ ['"']
  else '\x27' :: quotedGlyphs (hasQuote && gs.getLast?.any (!·.seen)) gs ++ ['\x27']

/-- The quoting style shell-escape. -/
def shellText (alphabet : Alphabet) (colon : Bool) (text : Bytes) : Bytes :=
  if needsQuotes alphabet colon text then shellQuoted alphabet text else text

end Quoting

namespace Call

/-- A string in locale quotes. -/
def spoken (call : Call) (text : Bytes) : Bytes := Quoting.spoken call.alphabet text

/-- A file name in a diagnostic, quoted only if needed. -/
def shownName (call : Call) (name : Bytes) : Bytes := Quoting.shellText call.alphabet true name

/-- A file name in quotes. -/
def quotedName (call : Call) (name : Bytes) : Bytes := Quoting.shellQuoted call.alphabet name

end Call

end GraphCodec.Formatter
