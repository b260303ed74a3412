import GraphCodec.Formatter.Shell.Run
import GraphCodec.Hook

/-!
# Running formatters without an operating system

A `Runner` that stands in for the operating system: the programs of this directory, in the file
system of a place. Beside what a place holds, some directories, files and devices are there on
every machine.
-/

set_option autoImplicit false

namespace GraphCodec

namespace Formatter

/-! ## The file system as programs see it -/

/-- A path in the tree as programs see it. -/
def Trail.ofPath (path : List String) : Trail := path.map Bytes.ofText

/-- The path in the tree that programs see as this one, if its names are UTF-8. -/
def Trail.toPath? (trail : Trail) : Option (List String) := trail.mapM Bytes.toText?

namespace Desk

/-- A file system as the programs that run in a directory of it see it. Special files are known by
their names (`standing?`). -/
def ofTree (top : GraphCodec.Entry) (here : List String) : Desk where
  here := Trail.ofPath here
  files := (top.files.filter fun (path, _) => (top.get? path).any GraphCodec.Entry.isFile).map
    fun (path, content) => (Trail.ofPath path, Bytes.ofByteArray content)
  directories := top.directories.map Trail.ofPath

/-- The file system after programs have written files. -/
def apply (desk : Desk) (top : GraphCodec.Entry) (here : List String) : GraphCodec.Entry :=
  let before := (ofTree top here).files
  desk.files.reverse.foldl (fun top (trail, bytes) =>
    if before.lookup trail == some bytes then top
    else
      match Trail.toPath? trail with
      | some path => top.put path (.file (Bytes.toByteArray bytes))
      | none => top) top

end Desk

/-! ## Starting programs -/

/-- The search path for programs. -/
def programDirectories : String :=
  "/usr/local/bin:/usr/local/sbin:/usr/local/bin:/usr/sbin:/usr/bin:/sbin:/bin"

/-- The environment variables that programs start with. -/
def environment (here : List String) : List (Bytes × Bytes) :=
  [("PATH".toList, programDirectories.toList), ("HOME".toList, "/root".toList),
    ("LANG".toList, "C.UTF-8".toList), ("PWD".toList, Bytes.ofText (Path.absolute here))]

/-- The program that a name stands for, or why none is started. -/
def program (desk : Desk) (name : String) : Except StartFault Program :=
  let bytes := Bytes.ofText name
  let candidates := if bytes.contains '/' then [bytes]
    else Shell.Lookup.candidates programDirectories.toList bytes
  match candidates.findSome? desk.programOf? with
  | some title =>
    match (programs Shell.shell).lookup title with
    | some p => .ok p
    | none => .error .notFound
  | none =>
    let found := candidates.map desk.find
    if found.any Found.isThere then .error .notAllowed
    else if found.contains .tooLong then .error (.other Found.tooLong.reason)
    else if found.getLast? == some .notDirectory then .error .notDirectory
    else .error .notFound

/-- Runs the programs of this directory in a working directory. -/
def runner (here : List String) : Runner := fun top title args input =>
  let desk := Desk.ofTree top here
  match program desk title with
  | .error fault => (.error fault, top)
  | .ok run =>
    let name := Bytes.ofText title
    let args := args.map Bytes.ofText
    if (name :: args).any fun a => Shell.longestArgument < a.length then
      (.error (.other "Argument list too long"), top)
    else
      let outcome := run
        { name, args, desk, input := Bytes.ofByteArray input, settings := environment here }
      (.ok ⟨outcome.ending.code, Bytes.toByteArray (outcome.on .out),
        Bytes.toByteArray (outcome.on .err)⟩, (desk.putAll outcome.files).apply top here)

end Formatter

/-! ## What every machine has -/

/-- The tree of the directories, files and devices that are there on every machine. -/
def Entry.standing : Entry :=
  let add (top : Entry) (trail : Formatter.Trail) : Entry :=
    match trail.toPath?, Formatter.Desk.standing? trail with
    | some path, none => if (top.get? path).isSome then top else top.put path (.directory [])
    | some path, some (.content _) => top.put path (.file ByteArray.empty)
    | some path, some _ => top.put path .device
    | none, _ => top
  (Formatter.Desk.standingDirectories ++ Formatter.Desk.links.map (·.1) ++
    Formatter.Desk.devices ++ Formatter.Desk.plainFiles).foldl add (.directory [])

/-- A machine with one more directory at its root, which is the working directory. -/
def Place.around (tree : Entry) (name : String) : Place := ⟨Entry.standing.put [name] tree, [name]⟩

end GraphCodec
