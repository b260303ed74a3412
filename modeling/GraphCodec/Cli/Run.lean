import GraphCodec.Cli.Arguments
import GraphCodec.Document.Reader
import GraphCodec.Files.Sources
import GraphCodec.Generator

/-!
# Running the command line

The program as a function of its arguments, the file system and the working directory. The result
is its output on both streams, its exit code, and the file system that it leaves.
-/

set_option autoImplicit false

namespace GraphCodec.Cli

/-- An uncaught exception. -/
inductive Crash where
  | config (faults : List (String × SettingFault))
  | template (error : TemplateError)
  | format (error : FormatError)
  | file (error : FileError)
  deriving DecidableEq, Repr

def Crash.message : Crash → String
  | config faults =>
    String.intercalate "; " (faults.map fun (key, fault) => key ++ " " ++ fault.message)
  | template error => error.message
  | format error => error.message
  | file error => error.message

/-- The outcome of the process: exit status, standard streams, uncaught exception and file
system. -/
structure Result where
  exitCode : Nat
  stdout : String
  stderr : String
  crash : Option Crash
  top : Entry

/-! ## Version, usage and help -/

def version : String := "main, version 0.1.0\n"

def groupUsage : String := "Usage: main [OPTIONS] COMMAND [ARGS]...\n"

def generateUsage : String := "Usage: main generate [OPTIONS]\n"

def groupHelp : String :=
  groupUsage ++ "\n" ++
  "  Generate io-ts codecs from GraphQL schemas and operations.\n\n" ++
  "Options:\n" ++
  "  --version  Show the version and exit.\n" ++
  "  --help     Show this message and exit.\n\n" ++
  "Commands:\n" ++
  "  generate  Generate io-ts codecs from a GraphQL schema and operations.\n"

def generateHelp : String :=
  generateUsage ++ "\n" ++
  "  Generate io-ts codecs from a GraphQL schema and operations.\n\n" ++
  "  Examples:\n\n" ++
  "      gql-iots generate --schema ./schema.graphql --documents ./src/queries\n" ++
  "      --output ./src/codecs.ts\n\n" ++
  "      gql-iots generate -s ./schema -d ./ops -o ./codecs.ts --format-command\n" ++
  "      \"npx prettier --parser typescript\"\n\n" ++
  "Options:\n" ++
  "  -s, --schema PATH         Path to GraphQL schema file or directory.\n" ++
  "                            [required]\n" ++
  "  -d, --documents PATH      Operation document file or directory (repeatable).\n" ++
  "  -o, --output PATH         Output file for generated codecs (e.g., codecs.ts).\n" ++
  "                            [required]\n" ++
  "  --header TEXT             Text placed at the top of the generated file.\n" ++
  "  --format-command TEXT     Formatter reading stdin, e.g. 'npx prettier --parser\n" ++
  "                            typescript'.\n" ++
  "  --template-dir DIRECTORY  Directory with templates overriding the built-in\n" ++
  "                            ones.\n" ++
  "  -v, --verbose             Enable verbose output.\n" ++
  "  --help                    Show this message and exit.\n"

/-- The standard error output of a usage error. -/
def usageText (usage hint : String) (e : UsageError) : String :=
  (if e.showsUsage then usage ++ "Try '" ++ hint ++ " --help' for help.\n\n" else "") ++
    "Error: " ++ e.message ++ "\n"

/-! ## Requests -/

/-- The validated arguments of the `generate` command. -/
structure Request where
  schema : String
  documents : List String
  output : String
  header : Option String
  formatCommand : Option String
  templateDir : Option String
  verbose : Bool

/-- The failures of argument validation. -/
inductive Refusal where
  | usage (error : UsageError)
  | crash (crash : Crash)
  deriving DecidableEq, Repr

/-- Validates the argument of one option: required options are given, and paths exist. -/
def checkOption (place : Place) (a : Arguments) (flag : Flag) : Except Refusal Unit := do
  let refused (e : UsageError) : Except Refusal Unit := .error (.usage e)
  let exist (paths : List String) : Except Refusal Unit :=
    match paths.find? fun p => Path.hasZero p || (place.find? p).isNone with
    | some p =>
      if Path.hasZero p then .error (.crash (.file .zeroByte))
      else refused (.invalidPath flag p .missing)
    | none => .ok ()
  let readable (path : String) : Except Refusal Unit :=
    if Path.hasZero path then .error (.crash (.file .zeroByte)) else .ok ()
  match flag with
  | .schema =>
    match a.value? .schema with
    | none => refused (.missingOption flag)
    | some p => exist [p]
  | .documents => exist (a.values .documents)
  | .output =>
    match a.value? .output with
    | none => refused (.missingOption flag)
    | some p => readable p
  | .templateDir =>
    match a.value? .templateDir with
    | none => .ok ()
    | some p =>
      readable p
      if (place.find? p).any Entry.isFile then refused (.invalidPath flag p .isFile)
  | _ => .ok ()

/-- Validates a parsed command line. -/
def Request.ofArguments (place : Place) (a : Arguments) : Except Refusal Request := do
  a.checkOrder.forM (checkOption place a)
  if a.plain ≠ [] then throw (.usage (.extraArguments a.plain))
  return {
    schema := (a.value? .schema).getD ""
    documents := a.values .documents
    output := (a.value? .output).getD ""
    header := a.value? .header
    formatCommand := a.value? .formatCommand
    templateDir := a.value? .templateDir
    verbose := a.has .verbose }

/-! ## Generating -/

namespace Request

def sources (r : Request) (place : Place) : Sources :=
  ⟨Path.absolute (place.resolve r.schema),
    r.documents.map fun path => Path.absolute (place.resolve path)⟩

def outputPath (r : Request) (place : Place) : String := Path.absolute (place.resolve r.output)

def config (r : Request) : Except (List (String × SettingFault)) Config :=
  let setting (value : Option String) : Setting :=
    match value with
    | some s => .text s
    | none => .absent
  Config.ofSettings (setting r.templateDir) (setting r.header) (setting r.formatCommand)

/-- A line of output in verbose mode. -/
def note (r : Request) (line : String) : String := if r.verbose then line ++ "\n" else ""

/-- The verbose output before the sources are read. -/
def opening (r : Request) (place : Place) : String :=
  r.note ("Schema: " ++ (r.sources place).schema) ++ r.note ("Output: " ++ r.outputPath place) ++
    "Parsing documents...\n"

variable (engine : TemplateEngine) (programs : Runner)

/-- Generates and writes the module, after the output and the log events of reading the sources. -/
def finish (r : Request) (place : Place) (g : Generator) (printed : String)
    (events : List Event) : Result :=
  let path := r.outputPath place
  let (outcome, after) := g.write engine programs path place
  let log :=
    Event.lines r.verbose (events ++ g.events engine programs (Path.baseName path) place)
  let failed (message : String) : Result :=
    ⟨1, printed, log ++ "Error: " ++ message ++ "\n", none, after⟩
  let crashed (crash : Crash) : Result := ⟨1, printed, log, some crash, after⟩
  match outcome with
  | .ok text =>
    ⟨0, printed ++ r.note ("  Lines: " ++ toString (Text.lineCount text)) ++
      "Done! Generated codecs in " ++ path ++ "\n", log, none, after⟩
  | .error (.compile e) => failed e.message
  | .error (.template e) => crashed (.template e)
  | .error (.format (.notFound program)) => failed (FormatError.message (.notFound program))
  | .error (.format (.failed file status messages)) =>
    failed (FormatError.message (.failed file status messages))
  | .error (.format e) => crashed (.format e)
  | .error (.file e) => crashed (.file e)

/-- Reads the sources, then generates and writes the module. -/
def run (r : Request) (place : Place) : Result :=
  let events := (r.sources place).events Document.parse? place
  let log := Event.lines r.verbose events
  match (r.sources place).read Document.parse? place with
  | .error (.notDocument path) =>
    ⟨1, r.opening place, log ++ "Error: " ++ ReadError.message (.notDocument path), none, place.top⟩
  | .error e => ⟨1, r.opening place, log ++ "Error: " ++ e.message ++ "\n", none, place.top⟩
  | .ok (definitions, operations) =>
    let printed := r.opening place ++ r.note ("  Types: " ++ toString definitions.length) ++
      r.note ("  Operations: " ++ toString operations.length)
    match r.config with
    | .error faults => ⟨1, printed, log, some (.config faults), place.top⟩
    | .ok config =>
      let printed := printed ++ "Generating codecs...\n"
      match Generator.make place definitions operations config with
      | .error fault => ⟨1, printed, log, some (.file fault), place.top⟩
      | .ok g => r.finish engine programs place g printed events

end Request

variable (engine : TemplateEngine) (programs : Runner)

/-- The `generate` command. -/
def runGenerate (place : Place) (args : List String) : Result :=
  let refused (e : UsageError) : Result :=
    ⟨2, "", usageText generateUsage "main generate" e, none, place.top⟩
  match readArguments generateForms true none args with
  | .error e => refused e
  | .ok a =>
    if a.has .help then ⟨0, generateHelp, "", none, place.top⟩
    else
      match Request.ofArguments place a with
      | .error (.usage e) => refused e
      | .error (.crash c) => ⟨1, "", "", some c, place.top⟩
      | .ok r => r.run engine programs place

/-- The path arguments of a command line. -/
def namedPaths (args : List String) : List String :=
  match readArguments generateForms true none args.tail with
  | .ok a => [Flag.schema, .documents, .output, .templateDir].flatMap a.values
  | .error _ => []

/-- The output of `--version` or `--help` on the command group. -/
def groupAnswer? (a : Arguments) : Option String :=
  match a.given with
  | (.version, _) :: _ => some version
  | _ :: _ => some groupHelp
  | [] => none

/-- The entry point: parses the options of the command group and dispatches to the command. -/
def run (place : Place) (args : List String) : Result :=
  let refused (e : UsageError) : Result := ⟨2, "", usageText groupUsage "main" e, none, place.top⟩
  if args.isEmpty then ⟨2, "", groupHelp, none, place.top⟩
  else
    match readArguments groupForms false none args with
    | .error e => refused e
    | .ok a =>
      match groupAnswer? a with
      | some text => ⟨0, text, "", none, place.top⟩
      | none =>
        match a.plain with
        | [] => refused .missingCommand
        | "generate" :: rest => runGenerate engine programs place rest
        | name :: rest =>
          let unknown := refused (.noSuchCommand name (Text.closeWords name ["generate"]))
          if name.toList.head? == some '-' then
            match readArguments groupForms false none (name :: rest) with
            | .error e => refused e
            | .ok b =>
              match groupAnswer? b with
              | some text => ⟨0, text, "", none, place.top⟩
              | none => unknown
          else unknown

end GraphCodec.Cli
