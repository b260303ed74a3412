import GraphCodec.Files.Entry
import GraphCodec.Text.Decoding

/-!
# Custom templates

A user may lay the module out anew, by a template of their own that takes the place of the
built-in one. The language of templates is no part of this library: whatever renders a module is
given a `TemplateEngine` as a parameter. This module finds the templates in a directory.
-/

set_option autoImplicit false

namespace GraphCodec

/-- Why a template gives no text. -/
inductive TemplateError where
  /-- There is no template of this name. -/
  | notFound (name : String)
  /-- The file of a template is not UTF-8. -/
  | notText (fault : Text.DecodingFault)
  /-- The engine refuses a template, or fails to render it. -/
  | failed (message : String)
  deriving DecidableEq, Repr

def TemplateError.message : TemplateError → String
  | .notFound name => name
  | .notText fault => fault.message
  | .failed message => message

/-- The source of a template by its name. -/
abbrev TemplateLoader := String → Except TemplateError String

/-- Renders the source of a template with the three lists that a module is made of: the
definitions of the types, of the variables and of the selections. The source may include other
templates, which the engine gets from the loader. -/
abbrev TemplateEngine :=
  TemplateLoader → String → (types vars selections : List String) → Except TemplateError String

namespace Template

/-- The name of the template that lays a module out. -/
def mainName : String := "codecs.ts.j2"

/-- The path below the template directory that a template's name stands for. A name with `..` in
it could leave the directory and stands for none. -/
def path? (name : String) : Option (List String) :=
  let parts := Path.parts name
  if parts.contains ".." then none else some (parts.filter fun p => p ≠ "" && p ≠ ".")

/-- Loads a template from a directory. Only regular files are templates. -/
def load (place : Place) (dir : String) : TemplateLoader := fun name =>
  match (path? name).bind fun path => place.find? (Path.below dir path) with
  | some (.file content) => (Text.decode content).mapError .notText
  | _ => .error (.notFound name)

end Template

end GraphCodec
