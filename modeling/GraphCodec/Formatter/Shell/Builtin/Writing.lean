import GraphCodec.Formatter.Print
import GraphCodec.Formatter.Shell.Builtin.Basic

/-!
# The builtins `echo` and `printf`
-/

set_option autoImplicit false

namespace GraphCodec.Formatter.Shell.Builtin

open Act

/-- The escapes of the builtin `echo`. -/
def argumentEscape (cs : Bytes) : Escape :=
  match cs with
  | 'c' :: _ => .stop
  | '0' :: more => Escape.octal 3 1 more
  | _ => formatEscape (fun _ => .none) cs

/-- The builtin `echo`. -/
def echo : Builtin := fun args =>
  let (newline, args) := match args with
    | ['-', 'n'] :: rest => ([], rest)
    | _ => (['\n'], args)
  let (out, ending) := unescape argumentEscape 0 ([' '].intercalate args)
  pure (0, out ++ if ending == .stopped then [] else newline)

/-- The style of the builtin `printf`. -/
def formatStyle : FormatStyle where
  escape := formatEscape fun _ => .none
  argumentEscape := argumentEscape
  flags := "#-+ 0".toList
  sizes := false
  strayStars := true
  takesUnknown := false
  allowed := fun _ _ _ c => "bcdeEfFgGaAiosuxX".toList.contains c
  badDirective := fun d => d ++ Bytes.words [": invalid directive"]
  noConversion := fun _ => Bytes.words ["missing format character"]
  quote := id
  notNumeric := "expected numeric value"
  notWhole := "not completely converted"
  restFirst := true
  warnsExcess := false
  byteConstants := true
  warnsConstants := false
  cutsAmounts := true
  tooWide := Bytes.words ["xvsnprintf failed"]
  faultStatus := 2
  stopStatus := none
  format := .double
  shellText := id
  alphabet := .bytes

/-- The builtin `printf`. -/
def print : Builtin := fun args => do
  let (_, args) ← takeOptions "" "" args
  match args with
  | [] => refuse (Bytes.words ["usage: printf format [arg ...]"])
  | format :: rest =>
    let e ← env
    let name := e.name ++ Bytes.words [": ", toString e.line, ": printf: "]
    let outcome := formatStyle.run name format rest []
    let _ ← write 2 (outcome.on .err)
    match outcome.ending with
    | .exited status => pure (status, outcome.on .out)
    | .killed _ => pure (1, outcome.on .out)

end GraphCodec.Formatter.Shell.Builtin
