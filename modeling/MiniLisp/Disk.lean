import MiniLisp.Disk.Path
import MiniLisp.Text.Quoted

namespace MiniLisp

/-!
# Files

What the interpreter sees of a file system: files, directories and devices, each
at a place.  A path is followed step by step from the working directory or from
the root, and every step has to start in a directory.
-/

/-- Something that has a path. -/
inductive Entry where
  | file (content : List UInt8)
  | directory
  /-- Gives the same bytes to every reader, and drops what is written to it. -/
  | device (content : List UInt8)
  deriving DecidableEq

/-- The entries at their places, and the directory from which paths are followed. -/
structure Disk where
  working : Place
  entries : List (Place × Entry)

/-- Why a path cannot be opened. -/
inductive DiskError where
  | missing
  | notDirectory
  | isDirectory
  | nameTooLong
  deriving Repr, DecidableEq

/-- The wording of a failure to open a path. -/
def DiskError.message (path : String) (error : DiskError) : String :=
  let cause :=
    match error with
    | .missing => "[Errno 2] No such file or directory: "
    | .notDirectory => "[Errno 20] Not a directory: "
    | .isDirectory => "[Errno 21] Is a directory: "
    | .nameTooLong => "[Errno 36] File name too long: "
  cause ++ Text.quoted path

namespace Disk

/-- A disk with nothing on it but its working directory and the null device. -/
def blank (working : Place) : Disk :=
  ⟨working, [(["dev"], .directory), (["dev", "null"], .device [])]⟩

/-- What stands at a place.  The way to the working directory is always there. -/
def entry? (disk : Disk) (place : Place) : Option Entry :=
  if place.isPrefixOf disk.working then some .directory else disk.entries.lookup place

/-- The place from which a path is followed. -/
def start (disk : Disk) (path : String) : Place :=
  if path.toList.head? = some '/' then [] else disk.working

/-- Takes one step from a place, which has to be a directory. -/
def step (disk : Disk) (place : Place) (name : String) : Except DiskError Place :=
  match disk.entry? place with
  | none => .error .missing
  | some (.file _) => .error .notDirectory
  | some (.device _) => .error .notDirectory
  | some .directory =>
      if name.utf8ByteSize ≤ maxNameBytes then .ok (place.step name) else .error .nameTooLong

/-- Takes steps from the start of a path, if the path is not too long to be followed at all. -/
def follow (disk : Disk) (path : String) (steps : List String) : Except DiskError Place :=
  if path.utf8ByteSize ≤ maxPathBytes then
    steps.foldlM disk.step (disk.start path)
  else
    .error .nameTooLong

/-- The place to which a path leads. -/
def locate (disk : Disk) (path : String) : Except DiskError Place :=
  disk.follow path (pathSteps path)

/-- The directory in which the last step of a path is taken. -/
def locateParent (disk : Disk) (path : String) : Except DiskError Place :=
  disk.follow path ((pathSteps path).dropLast ++ ["."])

/-- The content of the file or device at a path. -/
def read (disk : Disk) (path : String) : Except DiskError (List UInt8) :=
  let opened (content : List UInt8) : Except DiskError (List UInt8) :=
    if endsInDirectory path then .error .notDirectory else .ok content
  match disk.locate path with
  | .error error => .error error
  | .ok place =>
      match disk.entry? place with
      | none => .error .missing
      | some .directory => .error .isDirectory
      | some (.file content) => opened content
      | some (.device content) => opened content

/-- Puts an entry at a place, instead of what stood there. -/
def put (disk : Disk) (place : Place) (entry : Entry) : Disk :=
  { disk with entries := (place, entry) :: disk.entries.filter fun old => old.1 ≠ place }

/-- Puts an entry at a path, and directories on the way to it. -/
def create (disk : Disk) (path : String) (entry : Entry) : Disk :=
  let places := (disk.start path).along (pathSteps path)
  let base := places.dropLast.foldl (fun current place => current.put place .directory) disk
  match places.getLast? with
  | some place => base.put place entry
  | none => base

/--
Adds bytes at the end of the file at a path; a file that is missing is made.  A
path that by its form leads to a directory is refused before its last step.
-/
def append (disk : Disk) (path : String) (bytes : List UInt8) : Except DiskError Disk :=
  if endsInDirectory path then
    match disk.locateParent path with
    | .error error => .error error
    | .ok _ => .error .isDirectory
  else
    match disk.locate path with
    | .error error => .error error
    | .ok place =>
        match disk.entry? place with
        | none => .ok (disk.put place (.file bytes))
        | some (.file content) => .ok (disk.put place (.file (content ++ bytes)))
        | some .directory => .error .isDirectory
        | some (.device _) => .ok disk

end Disk

end MiniLisp
