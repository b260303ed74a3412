import GraphCodec.Text.Blank

/-!
# Configuration

The options of code generation, and the validation of a configuration.
-/

set_option autoImplicit false

namespace GraphCodec

/-- The options of code generation. -/
structure Config where
  templateDir : Option String := none
  header : Option String := none
  formatCommand : Option String := none
  deriving DecidableEq, Repr

/-- The value of a key of the configuration: missing or null, a string, or a value of another
type. -/
inductive Setting where
  | absent
  | text (value : String)
  | other
  deriving DecidableEq, Repr

/-- The validation errors of a setting. -/
inductive SettingFault where
  | notText | blank
  deriving DecidableEq, Repr

def SettingFault.message : SettingFault → String
  | .notText => "must be a text"
  | .blank => "must not be blank"

/-- Validates an optional string. -/
def Setting.option : Setting → Except SettingFault (Option String)
  | absent => .ok none
  | text s => .ok (some s)
  | other => .error .notText

/-- Validates an optional string that must not be blank. -/
def Setting.nonBlankOption : Setting → Except SettingFault (Option String)
  | text s => if Text.allBlank s then .error .blank else .ok (some s)
  | s => s.option

namespace Config

/-- The keys of the configuration. -/
def templateDirKey : String := "template_dir"

def headerKey : String := "header"

def formatCommandKey : String := "format_command"

/-- Validates a configuration. The errors of all keys are reported, sorted by key. -/
def ofSettings (templateDir header formatCommand : Setting) :
    Except (List (String × SettingFault)) Config :=
  match formatCommand.nonBlankOption, header.option, templateDir.option with
  | .ok c, .ok h, .ok t => .ok ⟨t, h, c⟩
  | c, h, t =>
    let fault (key : String) (r : Except SettingFault (Option String)) :
        List (String × SettingFault) :=
      match r with
      | .ok _ => []
      | .error f => [(key, f)]
    .error (fault formatCommandKey c ++ fault headerKey h ++ fault templateDirKey t)

end Config

end GraphCodec
