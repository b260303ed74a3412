import GraphCodec.Assoc

/-!
# Directory trees

The file system as a value: a tree of directories, regular files and special files, without
links. A path in the tree is a list of names from its root. A path as a program is given it is a
string in POSIX syntax, which may also hold empty parts, `.` and `..`.
-/

set_option autoImplicit false

namespace GraphCodec

/-- A node of the file system: a regular file with its bytes, a directory with its entries in the
order in which the disk lists them, or a special file. -/
inductive Entry where
  | file (content : ByteArray)
  | directory (entries : List (String × Entry))
  /-- A special file that behaves like `/dev/null`: reading it gives no bytes, and what is written
  to it is dropped. -/
  | device

namespace Path

/-- The parts of a POSIX path between its slashes. -/
def parts (path : String) : List String :=
  (path.toList.splitOn '/').map String.ofList

/-- The base name: the part behind the last slash, empty if the path ends in a slash. -/
def baseName (path : String) : String := (parts path).getLastD ""

/-- The parts of the directory name: all before the last slash. -/
def parent (path : String) : List String := (parts path).dropLast

/-- The path in the tree that parts stand for, with `.` and `..` resolved without looking at the
tree; `..` at the root is the root. -/
def normalize (ps : List String) : List String :=
  ps.foldl (fun done p =>
    if p = "" || p = "." then done else if p = ".." then done.dropLast else done ++ [p]) []

/-- The absolute POSIX path of a path in the tree. -/
def absolute (path : List String) : String := "/" ++ String.intercalate "/" path

/-- The POSIX path of what lies at `path` below the directory `outer`. -/
def below (outer : String) (path : List String) : String :=
  let rel := String.intercalate "/" path
  if outer.toList.getLast? == some '/' then outer ++ rel else outer ++ "/" ++ rel

def isAbsolute (path : String) : Bool := path.toList.head? == some '/'

/-- The root that an absolute path starts with: `/`, or `//` if it starts with exactly two
slashes. -/
def rootText (path : String) : String :=
  match path.toList with
  | '/' :: '/' :: '/' :: _ => "/"
  | '/' :: '/' :: _ => "//"
  | '/' :: _ => "/"
  | _ => ""

/-- A path without its empty parts and `.` parts; the empty path becomes `.`. Other than by
`normalize`, `..` is kept. -/
def tidy (path : String) : String :=
  let kept := (parts path).filter fun p => p ≠ "" && p ≠ "."
  let written := rootText path ++ String.intercalate "/" kept
  if written = "" then "." else written

end Path

namespace Entry

/-- The node at a path in the tree. -/
def get? : Entry → List String → Option Entry
  | e, [] => some e
  | directory es, n :: ns =>
    match es.lookup n with
    | some e => e.get? ns
    | none => none
  | file _, _ :: _ => none
  | device, _ :: _ => none

/-- Replaces or adds the node at a path. Missing directories on the way are made; a way through a
file leads nowhere, and the tree stays as it is. -/
def put : Entry → List String → Entry → Entry
  | _, [], new => new
  | directory es, n :: ns, new =>
    directory (Assoc.set n (put ((es.lookup n).getD (directory [])) ns new) es)
  | file content, _ :: _, _ => file content
  | device, _ :: _, _ => device

def isDirectory : Entry → Bool
  | directory _ => true
  | _ => false

def isFile : Entry → Bool
  | file _ => true
  | _ => false

/-- The bytes that reading a file gives. A directory cannot be read. -/
def read? : Entry → Option ByteArray
  | file content => some content
  | device => some ByteArray.empty
  | directory _ => none

mutual

/-- All that can be read in a tree, by path, in the order in which the disk lists it: the regular
and the special files. -/
def files : Entry → List (List String × ByteArray)
  | file content => [([], content)]
  | directory es => entryFiles es
  | device => [([], ByteArray.empty)]

def entryFiles : List (String × Entry) → List (List String × ByteArray)
  | [] => []
  | (name, e) :: es => (e.files.map fun (path, content) => (name :: path, content)) ++ entryFiles es

end

mutual

/-- The paths of the directories in a tree, its top included. -/
def directories : Entry → List (List String)
  | directory es => [] :: entryDirectories es
  | _ => []

def entryDirectories : List (String × Entry) → List (List String)
  | [] => []
  | (name, e) :: es => e.directories.map (name :: ·) ++ entryDirectories es

end

/-- The files of a tree that are not in another one with the same bytes. -/
def newFiles (after before : Entry) : List (List String × ByteArray) :=
  after.files.filter fun (path, content) => (before.get? path).bind read? != some content

end Entry

/-! ## Following paths -/

/-- The errors of file system calls: `ENOENT`, `ENOTDIR`, `EISDIR`, `EEXIST` and `ENAMETOOLONG`. -/
inductive FileError where
  | notFound
  | notDirectory
  | isDirectory
  | alreadyThere
  | tooLong
  /-- The path holds the character U+0000, and no call is made. -/
  | zeroByte
  deriving DecidableEq, Repr

def FileError.message : FileError → String
  | .notFound => "No such file or directory"
  | .notDirectory => "Not a directory"
  | .isDirectory => "Is a directory"
  | .alreadyThere => "File exists"
  | .tooLong => "File name too long"
  | .zeroByte => "embedded null byte"

namespace Path

/-- Whether a path holds the character U+0000, which ends a path for the operating system. -/
def hasZero (path : String) : Bool := path.toList.contains (Char.ofNat 0)

/-- Whether a part of a path exceeds `NAME_MAX`. -/
def isLong (part : String) : Bool := 255 < part.utf8ByteSize

/-- Whether a path exceeds `PATH_MAX`. -/
def isTooLong (path : String) : Bool := 4096 ≤ path.utf8ByteSize

end Path

namespace Entry

/-- Resolves the parts of a POSIX path, one after the other, from a directory of the tree. Every
part but the last must lead to a directory, and the last to something. -/
def follow (top : Entry) (here : List String) : List String → Except FileError (List String)
  | [] => if (top.get? here).isSome then .ok here else .error .notFound
  | p :: ps =>
    match top.get? here with
    | some (directory _) =>
      if p = "" || p = "." then top.follow here ps
      else if p = ".." then top.follow here.dropLast ps
      else if Path.isLong p then .error .tooLong
      else top.follow (here ++ [p]) ps
    | some _ => .error .notDirectory
    | none => .error .notFound

/-- The node that the parts of a POSIX path lead to. -/
def at? (top : Entry) (here path : List String) : Option Entry :=
  (top.follow here path).toOption.bind top.get?

end Entry

/-! ## Places -/

/-- Where a program runs: the file system and the working directory in it. -/
structure Place where
  top : Entry
  here : List String

namespace Place

/-- The directory from which a path is resolved: the root, or the working directory. -/
def start (place : Place) (path : String) : List String :=
  if Path.isAbsolute path then [] else place.here

/-- The path in the tree that a POSIX path stands for, whether or not there is anything. -/
def resolve (place : Place) (path : String) : List String :=
  Path.normalize (place.start path ++ Path.parts path)

/-- Resolves a path as file system calls do. The empty path leads nowhere. -/
def follow (place : Place) (path : String) : Except FileError (List String) :=
  if path = "" then .error .notFound
  else if Path.isTooLong path then .error .tooLong
  else place.top.follow (place.start path) (Path.parts path)

/-- The node that a path leads to. -/
def find? (place : Place) (path : String) : Option Entry :=
  (place.follow path).toOption.bind place.top.get?

/-- The tree of the working directory. -/
def tree (place : Place) : Entry := (place.top.get? place.here).getD (.directory [])

end Place

/-! ## Writing -/

namespace Entry

/-- Makes one directory (`mkdir`). The directory it lies in must be there. -/
def makeDir (top : Entry) (start outer : List String) (name : String) : Except FileError Entry := do
  let path := String.intercalate "/" (outer ++ [name])
  if Path.hasZero path then throw .zeroByte
  if Path.isTooLong path then throw .tooLong
  let here ← top.follow start outer
  match top.get? here with
  | some (directory _) =>
    if Path.isLong name then throw .tooLong
    else if name = "." || name = ".." || (top.get? (here ++ [name])).isSome then throw .alreadyThere
    else return top.put (here ++ [name]) (directory [])
  | _ => throw .notDirectory

/-- Makes a directory and those it lies in, unless they are there (`mkdir -p`). The path is given by
its parts, the last one first, and is resolved from `start`. What was made before a failure
stays. -/
def makeDirs (top : Entry) (start : List String) : List String → Except FileError Unit × Entry
  | [] => (.ok (), top)
  | name :: outer =>
    if name = "" then top.makeDirs start outer
    else
      let missing := (top.at? start (outer.dropWhile (· = "")).reverse).isNone
      let (made, top) := if missing then top.makeDirs start outer else (.ok (), top)
      match made with
      | .error e => (.error e, top)
      | .ok () =>
        if missing && name = "." then (.ok (), top)
        else
          match top.makeDir start outer.reverse name with
          | .ok top => (.ok (), top)
          | .error e =>
            let there := top.at? start (outer.reverse ++ [name])
            if there.any isDirectory then (.ok (), top) else (.error e, top)

/-- Writes a whole file, which is made or truncated. The directory it lies in must be there. -/
def writeFile (top : Entry) (start : List String) (path : String) (content : ByteArray) :
    Except FileError Entry := do
  let name := Path.baseName path
  if Path.hasZero path then throw .zeroByte
  if path = "" then throw .notFound
  if Path.isTooLong path then throw .tooLong
  let here ← top.follow start (Path.parent path)
  if name = "" || name = "." || name = ".." then throw .isDirectory
  if Path.isLong name then throw .tooLong
  match top.get? (here ++ [name]) with
  | some (directory _) => throw .isDirectory
  | some device => return top
  | _ => return top.put (here ++ [name]) (file content)

end Entry

end GraphCodec
