import SurveyReport.Disk.Path
import SurveyReport.Picture

/-!
# Files and directories

A disk maps paths to directories and files. A path is read name by name from the root or from the
working directory: empty names and single dots stay, two dots go up, and all but the last name must be
directories. A path holds no zero character, and paths and names have a bounded length.

Results:
* `file?_put_self`, `file?_put_of_ne`: a file holds what was put there last.
-/

namespace SurveyReport

/-- The names that lead to a file or a directory. -/
abbrev Trail := List String

/-- What a file holds. -/
inductive Contents where
  | bytes (data : ByteArray)
  | drawing (picture : Picture)

/-- The text that the contents encode. -/
def Contents.text? : Contents → Option String
  | .bytes data => String.fromUTF8? data
  | .drawing _ => none

/-- The contents that encode a text. -/
def Contents.ofText (s : String) : Contents := .bytes s.toUTF8

/-- The directories and the files of a disk, the latest first, and the working directory. The root is
    always there. -/
structure Disk where
  directories : List Trail
  files : List (Trail × Contents)
  working : Trail

namespace Disk

/-- A disk with nothing on it, working at its root. -/
def empty : Disk := ⟨[], [], []⟩

/-- Whether there is a directory at the end of a trail. -/
def isDirectory (d : Disk) (t : Trail) : Bool := t.isEmpty || d.directories.contains t

/-- The contents of the file at the end of a trail. -/
def file? (d : Disk) (t : Trail) : Option Contents := d.files.lookup t

/-! ## Paths -/

/-- Where a path starts. -/
def start (d : Disk) (path : String) : Trail :=
  if Path.isAbsolute path then [] else d.working

/-- Follows the names from a directory. The last name need not exist. -/
def follow (d : Disk) (here : Trail) : List String → Except DiskError Trail
  | [] => .ok here
  | ".." :: rest => follow d here.dropLast rest
  | [name] => .ok (here ++ [name])
  | name :: rest =>
    let next := here ++ [name]
    if Path.isTooLong name then .error .nameTooLong
    else if d.isDirectory next then follow d next rest
    else if (d.file? next).isSome then .error .notADirectory
    else .error .notFound

/-- The trail of a path. -/
def trail (d : Disk) (path : String) : Except DiskError Trail :=
  match Path.fault? path with
  | some cause => .error cause
  | none => if path = "" then .error .notFound else d.follow (d.start path) (Path.names path)

/-! ## Reading and writing -/

/-- Whether the last name of a trail is too long. -/
def endsTooLong (t : Trail) : Bool := t.getLast?.any Path.isTooLong

/-- The text of a file. -/
def readText (d : Disk) (path : String) : Except DiskError String := do
  let t ← d.trail path
  if d.isDirectory t then throw .isADirectory
  if endsTooLong t then throw .nameTooLong
  let some contents := d.file? t | throw .notFound
  if Path.wantsDirectory path then throw .notADirectory
  let some text := contents.text? | throw .notText
  return text

/-- The disk with a file at the end of a trail. -/
def put (d : Disk) (t : Trail) (c : Contents) : Disk := { d with files := (t, c) :: d.files }

theorem file?_put_self (d : Disk) (t : Trail) (c : Contents) : (d.put t c).file? t = some c := by
  simp [put, file?]

theorem file?_put_of_ne (d : Disk) {t u : Trail} (h : u ≠ t) (c : Contents) :
    (d.put t c).file? u = d.file? u := by
  simp [put, file?, List.lookup_cons, beq_false_of_ne h]

/-- Writes a file, in place of one that is there already. -/
def write (d : Disk) (path : String) (c : Contents) : Except DiskError Disk := do
  let t ← d.trail path
  if d.isDirectory t then throw .isADirectory
  if Path.wantsDirectory path ∧ ¬ Path.endsWithDot path then throw .isADirectory
  if endsTooLong t then throw .nameTooLong
  if Path.endsWithDot path then throw (if (d.file? t).isSome then .notADirectory else .notFound)
  return d.put t c

/-- Makes the directory that names lead to and all directories on the way. -/
def makeAll (d : Disk) (here : Trail) : List String → Except DiskError Disk
  | [] => .ok d
  | ".." :: rest => makeAll d here.dropLast rest
  | name :: rest =>
    let next := here ++ [name]
    if Path.isTooLong name then .error .nameTooLong
    else if d.isDirectory next then makeAll d next rest
    else if (d.file? next).isSome then
      .error (if rest.isEmpty then .alreadyThere else .notADirectory)
    else makeAll { d with directories := next :: d.directories } next rest

/-- Makes a directory unless it is there. -/
def makeDirectory (d : Disk) (path : String) : Except DiskError Disk :=
  match Path.fault? path with
  | some cause => .error cause
  | none => d.makeAll (d.start path) (Path.names path)

end Disk

end SurveyReport
