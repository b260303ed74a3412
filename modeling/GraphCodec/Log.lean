import GraphCodec.Document.Basic

/-!
# Log events

The log records of a run. Each one has a level, a logger and a message.
-/

set_option autoImplicit false

namespace GraphCodec

inductive Level where
  | debug | warning | error
  deriving DecidableEq, Repr

def Level.word : Level → String
  | .debug => "DEBUG"
  | .warning => "WARNING"
  | .error => "ERROR"

inductive Event where
  /-- A definition of a kind that has no codec was skipped. -/
  | skipped (kind : ForeignKind)
  | parseFailed (file : String)
  | ordered (definitions : Nat)
  | compiledSchema (types : Nat)
  | compiledSelection (operation : String) (fields : Nat)
  | rendering (types operations : Nat)
  | formatting (file program : String)
  | templateDirMissing (path : String)
  deriving DecidableEq, Repr

def TypeKind.word : TypeKind → String
  | .object => "object_type"
  | .input => "input_object_type"
  | .union => "union_type"
  | .enum => "enum_type"
  | .scalar => "scalar_type"

def ForeignKind.word : ForeignKind → String
  | .schema => "schema_definition"
  | .interface => "interface_type_definition"
  | .directive => "directive_definition"
  | .fragment => "fragment_definition"
  | .operation => "operation_definition"
  | .schemaExtension => "schema_extension"
  | .interfaceExtension => "interface_type_extension"
  | .directiveExtension => "directive_extension"
  | .typeExtension kind => kind.word ++ "_extension"

namespace Event

def level : Event → Level
  | parseFailed _ => .error
  | templateDirMissing _ => .warning
  | _ => .debug

/-- The name of the logger that an event is sent to. -/
def origin : Event → String
  | skipped _ | parseFailed _ => "gql_iots.core.parser"
  | ordered _ => "gql_iots.core.sort"
  | compiledSchema _ => "gql_iots.core.model"
  | compiledSelection _ _ => "gql_iots.core.selection"
  | rendering _ _ | templateDirMissing _ => "gql_iots.core.generator"
  | formatting _ _ => "gql_iots.core.hooks"

def message : Event → String
  | skipped kind => "Skipping unsupported definition: " ++ kind.word
  | parseFailed file => "Error parsing " ++ file
  | ordered n => "Ordered " ++ toString n ++ " type definitions"
  | compiledSchema n => "Compiled " ++ toString n ++ " schema types"
  | compiledSelection name n =>
    "Compiled selection " ++ name ++ " with " ++ toString n ++ " root fields"
  | rendering types operations =>
    "Rendering " ++ toString types ++ " schema types and " ++ toString operations ++
      " operations"
  | formatting file program => "Formatting " ++ file ++ " with " ++ program
  | templateDirMissing path => "Template directory " ++ path ++ " does not exist"

/-- The log output. A verbose log has every record with its level and logger; otherwise only the
messages from level `warning` up are printed. -/
def lines (verbose : Bool) (events : List Event) : String :=
  String.join <| events.filterMap fun e =>
    if verbose then some (e.level.word ++ " " ++ e.origin ++ ": " ++ e.message ++ "\n")
    else if e.level = .debug then none
    else some (e.message ++ "\n")

end Event

end GraphCodec
