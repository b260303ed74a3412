import GraphCodec.Formatter.Bytes

/-!
# The file system of the utilities

Resolves paths from the working directory. Some directories, files and devices are on every
machine.
-/

set_option autoImplicit false

namespace GraphCodec.Formatter

/-- An absolute path, as a list of file names. -/
abbrev Trail := List Bytes

/-- The result of resolving a path. -/
inductive Found where
  | content (bytes : Bytes)
  /-- The device `/dev/null`. -/
  | null
  /-- The device `/dev/zero`. -/
  | zeros
  /-- The device `/dev/full`. -/
  | full
  /-- An entry of `/dev/fd`: a file descriptor of the calling process. -/
  | channel (number : Nat)
  | directory
  | missing
  | notDirectory
  | tooLong
  deriving DecidableEq, Repr

namespace Found

/-- The error message of opening the file for reading. -/
def reason : Found → String
  | .directory => "Is a directory"
  | .notDirectory => "Not a directory"
  | .tooLong => "File name too long"
  | _ => "No such file or directory"

/-- Whether the path exists. -/
def isThere : Found → Bool
  | .missing | .notDirectory | .tooLong => false
  | _ => true

end Found

/-! ## The files of every machine -/

namespace Desk

/-- Splits a path at its slashes. -/
def trailOf (text : String) : Trail := (text.toList.splitOn '/').filter (· ≠ [])

/-- The directories of every machine. -/
def standingDirectories : List Trail :=
  (["dev", "dev/fd", "etc", "home", "media", "mnt", "opt", "proc", "root", "run", "srv", "sys",
    "tmp", "usr", "usr/bin", "usr/games", "usr/include", "usr/lib", "usr/lib64", "usr/local",
    "usr/local/bin", "usr/local/lib", "usr/local/sbin", "usr/local/share", "usr/sbin", "usr/share",
    "usr/src", "var", "var/cache", "var/lib", "var/log", "var/tmp", "boot"].map trailOf)

/-- The symbolic links of every machine, with their targets. -/
def links : List (Trail × Trail) :=
  [("bin", "usr/bin"), ("sbin", "usr/sbin"), ("lib", "usr/lib"), ("lib64", "usr/lib64")].map
    fun (a, b) => (trailOf a, trailOf b)

/-- The device files. -/
def devices : List Trail :=
  (["dev/full", "dev/null", "dev/stderr", "dev/stdin", "dev/stdout", "dev/zero"].map trailOf)

/-- The regular files of every machine, without their contents. -/
def plainFiles : List Trail :=
  (["etc/passwd", "etc/group", "etc/hosts", "etc/hostname", "etc/os-release",
    "etc/debian_version", "etc/shadow", "etc/resolv.conf", "etc/fstab", "etc/profile"].map trailOf)

/-- The utilities. -/
def programNames : List String :=
  ["cat", "dash", "echo", "false", "head", "printf", "sed", "sh", "sleep", "tr", "true", "wc"]

/-- The executable at a path. -/
def programAt? (trail : Trail) : Option String :=
  match trail with
  | [usr, bin, name] =>
    if usr == "usr".toList && bin == "bin".toList then
      programNames.find? fun n => n.toList == name
    else none
  | _ => none

/-- The device or regular file that every machine has at a path. -/
def standing? (trail : Trail) : Option Found :=
  match trail with
  | [a, b] =>
    match String.ofList a, String.ofList b with
    | "dev", "null" => some .null
    | "dev", "zero" => some .zeros
    | "dev", "full" => some .full
    | "dev", "stdin" => some (.channel 0)
    | "dev", "stdout" => some (.channel 1)
    | "dev", "stderr" => some (.channel 2)
    | _, _ => if plainFiles.contains trail then some (.content []) else none
  | [a, b, n] =>
    if a == "dev".toList && b == "fd".toList && !n.isEmpty && n.all Char.isDigit then
      some (.channel (n.foldl (fun k c => 10 * k + (c.toNat - '0'.toNat)) 0))
    else if (programAt? trail).isSome then some (.content ('\x7f' :: "ELF".toList))
    else none
  | _ => none

end Desk

/-! ## Path resolution -/

/-- The file system as the utilities see it: the working directory, the files with their contents,
and the directories beyond those of every machine. -/
structure Desk where
  here : Trail := []
  files : List (Trail × Bytes) := []
  directories : List Trail := []
  deriving DecidableEq, Repr

namespace Desk

/-- Whether a path is a directory. -/
def isDirectory (d : Desk) (trail : Trail) : Bool :=
  trail.isEmpty || trail == d.here || d.directories.contains trail ||
    standingDirectories.contains trail

/-- The file at an absolute path. -/
def foundAt (d : Desk) (trail : Trail) : Found :=
  if d.isDirectory trail then .directory
  else
    match d.files.lookup trail with
    | some bytes => .content bytes
    | none => (standing? trail).getD .missing

/-- Resolves one component of a path. -/
def enter (here : Trail) (name : Bytes) : Trail :=
  let there := here ++ [name]
  (links.lookup there).getD there

/-- Resolves components from a directory. The last one may not exist; all others must be
directories. -/
def follow (d : Desk) (here : Trail) : List Bytes → Except Found Trail
  | [] => .ok here
  | name :: rest =>
    match d.foundAt here with
    | .directory =>
      if name.isEmpty || name == ['.'] then d.follow here rest
      else if name == ['.', '.'] then d.follow here.dropLast rest
      else if 255 < name.length then .error .tooLong
      else d.follow (enter here name) rest
    | .missing => .error .missing
    | _ => .error .notDirectory

/-- The absolute path of a path. -/
def trail (d : Desk) (name : Bytes) : Except Found Trail :=
  if name.isEmpty then .error .missing
  else if 4096 ≤ name.length then .error .tooLong
  else d.follow (if name.head? == some '/' then [] else d.here) (name.splitOn '/')

/-- The file at a path. -/
def find (d : Desk) (name : Bytes) : Found :=
  match d.trail name with
  | .ok trail => d.foundAt trail
  | .error fault => fault

/-- The file at a path that is to be created. With a trailing slash it is a directory, even if it
does not exist. -/
def findToMake (d : Desk) (name : Bytes) : Found :=
  if name.getLast? != some '/' then d.find name
  else
    let front := (name.reverse.dropWhile (· == '/')).reverse
    match d.trail (if front.isEmpty then ['/'] else front) with
    | .ok _ => .directory
    | .error fault => fault

/-- Whether the parent directory of a path exists. -/
def hasRoom (d : Desk) (name : Bytes) : Bool :=
  match d.trail name with
  | .ok trail => d.isDirectory trail.dropLast
  | .error _ => false

/-- Creates or truncates the file at an absolute path. Devices do not change. -/
def putAt (d : Desk) (trail : Trail) (bytes : Bytes) : Desk :=
  match standing? trail with
  | some (.content _) | none =>
    { d with files := (trail, bytes) :: d.files.filter fun f => f.1 ≠ trail }
  | _ => d

/-- Creates or truncates the file at a path. -/
def put (d : Desk) (name bytes : Bytes) : Desk :=
  match d.trail name with
  | .ok trail => d.putAt trail bytes
  | .error _ => d

/-- Creates or truncates several files in order. -/
def putAll (d : Desk) (files : List (Bytes × Bytes)) : Desk :=
  files.foldl (fun d f => d.put f.1 f.2) d

/-- Lists a directory. -/
def entries (d : Desk) (directory : Trail) : List Bytes :=
  let places := d.files.map (·.1) ++ d.directories ++ standingDirectories ++ links.map (·.1) ++
    devices
  ((places.filter fun t => t ≠ [] && t.dropLast == directory).map fun t => t.getLastD []).eraseDups

/-- Whether a path is a symbolic link. -/
def isLink (d : Desk) (name : Bytes) : Bool :=
  let last := (name.reverse.takeWhile (· != '/')).reverse
  let front := name.take (name.length - last.length)
  match if front.isEmpty then .ok d.here else d.trail front with
  | .ok trail =>
    let there := trail ++ [last]
    links.any (fun l => l.1 == there) || there == trailOf "dev/fd" ||
      ["dev/stdin", "dev/stdout", "dev/stderr"].any fun l => trailOf l == there
  | .error _ => false

/-- An absolute path as bytes. -/
def nameOf (trail : Trail) : Bytes := '/' :: ['/'].intercalate trail

/-- The utility at a path. -/
def programOf? (d : Desk) (name : Bytes) : Option String :=
  match d.trail name with
  | .ok trail => if name.getLast? == some '/' then none else programAt? trail
  | .error _ => none

end Desk

end GraphCodec.Formatter
