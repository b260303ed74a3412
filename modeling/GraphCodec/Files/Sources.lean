import GraphCodec.Document.Basic
import GraphCodec.Files.Entry
import GraphCodec.Log
import GraphCodec.Text.Lines

/-!
# Source files

Which files are read, and what they hold. The path of a regular file stands for that file, the path
of a directory for all GraphQL files below it, in the order of their full paths.

The parser of GraphQL documents is a parameter here. The programs use `Document.parse?`.
-/

set_option autoImplicit false

namespace GraphCodec

/-- The paths to read: types come from the schema, operations from the documents. -/
structure Sources where
  schema : String
  documents : List String

/-- A file to read: its path in the tree, its POSIX path as it was found, and its bytes. -/
structure SourceFile where
  path : List String
  shown : String
  content : ByteArray

/-- Why a file cannot be read. -/
inductive ReadError where
  /-- The file of this path is not UTF-8. -/
  | notText (path : String)
  /-- The file of this path is no GraphQL document. -/
  | notDocument (path : String)
  /-- A path holds the character U+0000. -/
  | zeroByte
  deriving DecidableEq, Repr

def ReadError.message : ReadError → String
  | .zeroByte => FileError.message .zeroByte
  | .notText path => "Could not read " ++ path ++ " as UTF-8"
  | .notDocument _ => "Syntax Error"

namespace Sources

/-- The file name extensions of GraphQL files. -/
def extensions : List String := [".graphql", ".graphqls", ".gql"]

def isGraphQL (name : String) : Bool := extensions.any fun e => e.toList.isSuffixOf name.toList

/-- The files that a path stands for, sorted by their POSIX paths. -/
def collect (place : Place) (path : String) : List SourceFile :=
  match place.follow path with
  | .error _ => []
  | .ok here =>
    match place.top.get? here with
    | none | some .device => []
    | some (.file content) => [⟨here, path, content⟩]
    | some (.directory es) =>
      let found := (Entry.directory es).files.filter fun (rel, _) => isGraphQL (rel.getLastD "")
      (found.map fun (rel, content) => ⟨here ++ rel, Path.below path rel, content⟩).mergeSort
        fun a b => a.shown ≤ b.shown

variable (parse : String → Option Document)

/-- Parses a file. -/
def readFile (f : SourceFile) : Except ReadError Document :=
  match String.fromUTF8? f.content with
  | none => .error (.notText f.shown)
  | some text =>
    match parse (String.ofList (Text.unifyLineEnds text.toList)) with
    | none => .error (.notDocument f.shown)
    | some doc => .ok doc

/-- Parses the files that a path stands for. -/
def readPath (place : Place) (path : String) : Except ReadError (List Document) := do
  if Path.hasZero path then throw .zeroByte
  (collect place path).mapM (readFile parse)

/-- Reads the types of the schema and the operations of the documents. -/
def read (s : Sources) (place : Place) :
    Except ReadError (List Definition × List Operation) := do
  let schema ← readPath parse place s.schema
  let documents ← s.documents.mapM (readPath parse place)
  return (schema.flatMap Document.types, documents.flatten.flatMap Document.operations)

/-- The log entries of parsing files, up to the first that fails. -/
def fileEvents : List SourceFile → List Event
  | [] => []
  | f :: rest =>
    match readFile parse f with
    | .ok doc => doc.filterMap (fun i => i.skipped?.map .skipped) ++ fileEvents rest
    | .error (.notDocument _) => [.parseFailed (Path.baseName f.shown)]
    | .error _ => []

/-- The log entries of reading. -/
def events (s : Sources) (place : Place) : List Event :=
  fileEvents parse
    (((s.schema :: s.documents).takeWhile fun p => !Path.hasZero p).flatMap (collect place))

end Sources

end GraphCodec
