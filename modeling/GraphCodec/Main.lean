import GraphCodec.Cli.Run
import GraphCodec.Formatter.Machine

/-!
# The program

Loads the path arguments from the disk, runs the command line on them, prints its output and writes
the files of its result. Formatters run on the programs of `Formatter`. There is no template
engine: a custom template is an error.
-/

set_option autoImplicit false

open GraphCodec

namespace GraphCodec.Disk

def isDirectory (path : List String) : IO Bool := do
  ((← IO.currentDir) / Path.absolute path).isDir

/-- The directory entry at a path. Below a directory only GraphQL files and templates are read. -/
partial def load? (path : List String) : IO (Option Entry) := do
  let place := (← IO.currentDir) / Path.absolute path
  if ← place.isDir then
    let entries ← (← place.readDir).toList.filterMapM fun e => do
      let inner := path ++ [e.fileName]
      let isRead := Sources.isGraphQL e.fileName || e.fileName == Template.mainName
      if isRead || (← isDirectory inner) then
        return (← load? inner).map (e.fileName, ·)
      else return none
    return some (.directory entries)
  else if !(← place.pathExists) then return none
  else if (← place.metadata).type == .file then return some (.file (← IO.FS.readBinFile place))
  else return some .device

/-- Loads a path into a tree, with the directories that lead to it. -/
def add (top : Entry) (here : List String) : List String → IO Entry
  | [] => do
    match ← load? here with
    | some e => return top.put here e
    | none => return top
  | part :: rest => do
    let inner := Path.normalize (here ++ [part])
    if (top.get? here).isSome then add top inner rest
    else if ← isDirectory here then add (top.put here (.directory [])) inner rest
    else
      match ← load? here with
      | some e => return top.put here e
      | none => return top

/-- Loads the path arguments into a tree. Files come last, for a directory is loaded without the
files in it that are not GraphQL files. -/
def tree (paths : List (List String)) : IO Entry := do
  let directories ← paths.filterM fun p => isDirectory (Path.normalize p)
  let others ← paths.filterM fun p => return !(← isDirectory (Path.normalize p))
  (directories ++ others).foldlM (fun top p => add top [] p) (.directory [])

/-- Writes files and makes their parent directories. -/
def save (files : List (List String × ByteArray)) : IO Unit :=
  files.forM fun (path, content) => do
    IO.FS.createDirAll (Path.absolute path.dropLast)
    IO.FS.writeBinFile (Path.absolute path) content

/-- The template engine that fails on every custom template. -/
def noEngine : TemplateEngine := fun _ _ _ _ _ =>
  .error (.failed (Template.mainName ++ ": custom templates are not supported"))

end GraphCodec.Disk

def main (args : List String) : IO UInt32 := do
  let here := Path.normalize (Path.parts (toString (← IO.currentDir)))
  let place : Place := ⟨.directory [], here⟩
  let top ← Disk.tree ((Cli.namedPaths args).map fun p => place.start p ++ Path.parts p)
  let result := Cli.run Disk.noEngine (Formatter.runner here) { place with top := top } args
  IO.print result.stdout
  IO.eprint result.stderr
  if let some crash := result.crash then IO.eprintln crash.message
  Disk.save (result.top.newFiles top)
  return result.exitCode.toUInt32
