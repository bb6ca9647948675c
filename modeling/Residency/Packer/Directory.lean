import Residency.Device.HostFile

/-!
# Directories of the host

A `Directory` is what the program sees of the host from the directory in which it runs: files,
there and in the directories above it.

* `Directory.follow` goes along the parts of a path;
* `Directory.lookup` finds the file to which a path leads;
* `Directory.placeOf` finds the place where a path makes a file;
* `HostError` is why a path leads nowhere.
-/

namespace Residency

/-- Why the host refuses a path. -/
inductive HostError where
  | notFound
  | notDirectory
  | isDirectory
  | nameTooLong
deriving DecidableEq

namespace HostError

def code : HostError → Nat
  | .notFound => 2
  | .notDirectory => 20
  | .isDirectory => 21
  | .nameTooLong => 36

def kind : HostError → String
  | .notFound => "NotFound"
  | .notDirectory => "NotADirectory"
  | .isDirectory => "IsADirectory"
  | .nameTooLong => "InvalidFilename"

def message : HostError → String
  | .notFound => "No such file or directory"
  | .notDirectory => "Not a directory"
  | .isDirectory => "Is a directory"
  | .nameTooLong => "File name too long"

end HostError

/-- A directory that a path leads through.  How deep the program runs is not known, so that the
    directories above it and the root are kept apart. -/
inductive Location where
  /-- So many steps above the directory in which the program runs. -/
  | above (steps : Nat)
  | root
deriving DecidableEq

namespace Location

def here : Location := .above 0

/-- The directory above, which is the root itself for the root. -/
def parent : Location → Location
  | .above steps => .above (steps + 1)
  | .root => .root

/-- The shortest path to a name in the directory. -/
def pathTo (location : Location) (name : String) : String :=
  match location with
  | .above steps => String.join (List.replicate steps "../") ++ name
  | .root => "/" ++ name

end Location

inductive Target where
  | directory
  /-- To a name in a directory, whether or not there is a file of that name. -/
  | entry (location : Location) (name : String)
deriving DecidableEq

/-- The files that the program can reach, each under the shortest path to it. -/
structure Directory where
  files : Std.ExtTreeMap String HostFile := ∅

namespace Directory

/-- The greatest length of a name in bytes. -/
def maxName : Nat := 255

/-- The greatest length of a path in bytes. -/
def maxPath : Nat := 4095

def ensureName (name : String) : Except HostError Unit :=
  if maxName < name.utf8ByteSize then .error .nameTooLong else .ok ()

def find? (directory : Directory) (path : String) : Option HostFile :=
  directory.files[path]?

def insert (directory : Directory) (path : String) (file : HostFile) : Directory :=
  { files := directory.files.insert path file }

/-- Follows the parts of a path.  A name before the last part would have to be a directory, and
    there are files only. -/
def follow (directory : Directory) (location : Location) : List String → Except HostError Target
  | [] => .ok .directory
  | "." :: rest => directory.follow location rest
  | ".." :: rest => directory.follow location.parent rest
  | [name] => .ok (.entry location name)
  | name :: _ => do
    ensureName name
    if (directory.find? (location.pathTo name)).isSome then .error .notDirectory
    else .error .notFound

def resolve (directory : Directory) (path : String) : Except HostError Target := do
  if path.isEmpty then throw .notFound
  if maxPath < path.utf8ByteSize then throw .nameTooLong
  let start : Location := if path.startsWith "/" then .root else .here
  directory.follow start ((path.splitOn "/").filter (· ≠ ""))

/-- The shortest path to the file to which a path leads, and the file.  A path that ends in a slash
    asks for a directory. -/
def lookup (directory : Directory) (path : String) : Except HostError (String × HostFile) := do
  match ← directory.resolve path with
  | .directory => throw .isDirectory
  | .entry location name =>
    ensureName name
    match directory.find? (location.pathTo name) with
    | none => throw .notFound
    | some file =>
      if path.endsWith "/" then throw .notDirectory else return (location.pathTo name, file)

/-- The shortest path to the place where a path makes a file.  That a path ends in a slash is
    noticed before its last name is looked at. -/
def placeOf (directory : Directory) (path : String) : Except HostError String := do
  match ← directory.resolve path with
  | .directory => throw .isDirectory
  | .entry location name =>
    if path.endsWith "/" then throw .isDirectory
    ensureName name
    return location.pathTo name

end Directory

end Residency
