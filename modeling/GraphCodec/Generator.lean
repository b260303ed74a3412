import GraphCodec.CodecModule
import GraphCodec.Files.Entry
import GraphCodec.Hook
import GraphCodec.Template

/-!
# Generators

A generator holds what a module is made from. It compiles all definitions and operations, lays the
module out by the built-in template or by one of the user's, runs the hooks over the text, and only
then writes it to a file.

The template engine and the external programs are parameters.
-/

set_option autoImplicit false

namespace GraphCodec

structure Generator where
  definitions : List Definition
  operations : List Operation
  config : Config
  /-- The user's template directory, if there was one when the generator was made. -/
  templates : Option String

/-- Why no module is made or written. -/
inductive GenerateError where
  | compile (error : CompileError)
  | template (error : TemplateError)
  | format (error : FormatError)
  | file (error : FileError)
  deriving DecidableEq, Repr

/-- The user's template directory. One that does not exist is left out; a name that the file system
does not take is an error. -/
def Config.templates (config : Config) (place : Place) : Except FileError (Option String) :=
  match config.templateDir with
  | none => .ok none
  | some dir =>
    if dir = "" then .ok none
    else
      match place.follow dir with
      | .error .tooLong => .error .tooLong
      | .error _ => .ok none
      | .ok path =>
        .ok (if (place.top.get? path).any Entry.isDirectory then some (Path.tidy dir) else none)

namespace Generator

/-- Makes a generator. The template directory is looked up now, its templates when they are
needed. -/
def make (place : Place) (definitions : List Definition) (operations : List Operation)
    (config : Config) : Except FileError Generator :=
  (config.templates place).map fun templates => ⟨definitions, operations, config, templates⟩

/-- Compiles the definitions and operations. -/
def compile (g : Generator) : Except CompileError CodecModule :=
  compileModule g.definitions g.operations

/-- Loads a template from the user's directory. -/
def load (g : Generator) (place : Place) : TemplateLoader := fun name =>
  match g.templates with
  | some dir => Template.load place dir name
  | none => .error (.notFound name)

/-- The source of the user's template. Without one, the built-in template lays the module out. -/
def template? (g : Generator) (place : Place) : Except TemplateError (Option String) :=
  match g.load place Template.mainName with
  | .ok source => .ok (some source)
  | .error (.notFound _) => .ok none
  | .error e => .error e

/-- Lays a module out by the user's template or the built-in one. -/
def layOut (g : Generator) (engine : TemplateEngine) (place : Place) (m : CodecModule) :
    Except TemplateError String := do
  match ← g.template? place with
  | none => return m.text
  | some source =>
    -- A custom template shadows the built-in one, so nothing can include that.
    engine (g.load place) source (m.types.map Export.text) (m.vars.map Export.text)
      (m.selections.map Export.text)

/-- The text of the module, before hooks change it. -/
def render (g : Generator) (engine : TemplateEngine) (place : Place) :
    Except GenerateError String := do
  let m ← g.compile.mapError .compile
  (g.layOut engine place m).mapError .template

/-- The text of the module for a file of this name, and the file system that the formatter
leaves. -/
def generate (g : Generator) (engine : TemplateEngine) (programs : Runner) (place : Place)
    (file : String) : Except GenerateError String × Entry :=
  match g.render engine place with
  | .error e => (.error e, place.top)
  | .ok text =>
    match Hook.runAll programs place.top g.config.hooks file text with
    | (.error e, top) => (.error (.format e), top)
    | (.ok text, top) => (.ok text, top)

/-- Writes the module to a path, and makes the directories that are missing on the way. -/
def write (g : Generator) (engine : TemplateEngine) (programs : Runner) (path : String)
    (place : Place) : Except GenerateError String × Entry :=
  match g.generate engine programs place (Path.baseName path) with
  | (.error e, top) => (.error e, top)
  | (.ok text, top) =>
    let start := place.start path
    match top.makeDirs start (Path.parent path).reverse with
    | (.error e, top) => (.error (.file e), top)
    | (.ok (), top) =>
      match top.writeFile start path text.toUTF8 with
      | .error e => (.error (.file e), top)
      | .ok top => (.ok text, top)

/-! ## Log -/

/-- The log entries of compiling operations, up to the first that fails. -/
def operationEvents (schema : Schema) : List Operation → List Event
  | [] => []
  | op :: rest =>
    match op.codecs schema with
    | .ok (_, selection) =>
      .compiledSelection selection.name selection.props.length :: operationEvents schema rest
    | .error _ => []

/-- The log entries of compiling. -/
def compileEvents (g : Generator) : List Event :=
  .ordered (sortDefinitions g.definitions).length ::
    match compileDefinitions g.definitions with
    | .error _ => []
    | .ok schema =>
      .compiledSchema schema.types.length :: operationEvents schema g.operations ++
        match g.compile with
        | .ok _ => [.rendering schema.types.length g.operations.length]
        | .error _ => []

/-- The log entry of a template directory that was left out when the generator was made. -/
def templateEvents (g : Generator) : List Event :=
  match g.config.templateDir with
  | none => []
  | some dir =>
    if dir = "" || g.templates.isSome then [] else [.templateDirMissing (Path.tidy dir)]

/-- The log entries of making the module for a file of this name. -/
def events (g : Generator) (engine : TemplateEngine) (programs : Runner) (file : String)
    (place : Place) : List Event :=
  g.templateEvents ++ g.compileEvents ++
    match g.render engine place with
    | .ok text => Hook.events programs place.top file text g.config.hooks
    | .error _ => []

end Generator

end GraphCodec
