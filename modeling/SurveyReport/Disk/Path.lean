/-!
# Paths

A path is cut into parts at its slashes. Empty parts and single dots lead nowhere, so that the other
parts, its names, say where a path leads; how it starts and ends is looked at on its own. What can go
wrong on the way has the text and the number that the operating system gives it.

Results:
* `mem_names`: no name is empty or a single dot.
-/

namespace SurveyReport

/-! ## What can go wrong -/

/-- Why a file or a directory could not be used. -/
inductive DiskError where
  | notFound
  | alreadyThere
  | notADirectory
  | isADirectory
  | nameTooLong
  | zeroInPath
  | notText
  deriving DecidableEq, Repr

/-- The text of a disk error. -/
def DiskError.message : DiskError → String
  | .notFound => "No such file or directory (os error 2)"
  | .alreadyThere => "File exists (os error 17)"
  | .notADirectory => "Not a directory (os error 20)"
  | .isADirectory => "Is a directory (os error 21)"
  | .nameTooLong => "File name too long (os error 36)"
  | .zeroInPath => "file name contained an unexpected NUL byte"
  | .notText => "stream did not contain valid UTF-8"

namespace Path

/-! ## Parts and names -/

/-- What stands between the slashes of a path. -/
def parts (path : String) : List String := (path.toList.splitOn '/').map .ofList

/-- The names in a path. -/
def names (path : String) : List String := (parts path).filter fun part => part ≠ "" ∧ part ≠ "."

/-- Whether a path starts at the root. -/
def isAbsolute (path : String) : Bool := path.toList.head? == some '/'

/-- Whether a path can lead to a directory only: a slash or a single dot ends it. -/
def wantsDirectory (path : String) : Bool :=
  (parts path).getLast? == some "" || (parts path).getLast? == some "."

/-- Whether the last part that is not empty is a single dot. -/
def endsWithDot (path : String) : Bool := ((parts path).filter (· ≠ "")).getLast? == some "."

/-- Whether no file or directory can have the name: it takes more than 255 bytes. -/
def isTooLong (name : String) : Bool := 255 < name.utf8ByteSize

/-- Why a path cannot be followed anywhere: it holds a zero character, or it takes 4096 bytes or
    more. -/
def fault? (path : String) : Option DiskError :=
  if path.toList.contains '\x00' then some .zeroInPath
  else if 4096 ≤ path.utf8ByteSize then some .nameTooLong
  else none

/-- The path of a name in a directory. -/
def join (directory name : String) : String :=
  if directory = "" then name
  else if directory.toList.getLast? = some '/' then directory ++ name
  else directory ++ "/" ++ name

/-- What counts when two paths are compared: where they start, a single dot included, and their
    names. -/
def key (path : String) : Bool × Bool × List String :=
  (isAbsolute path, (parts path).head? == some ".", names path)

theorem mem_names {path name : String} (h : name ∈ names path) : name ≠ "" ∧ name ≠ "." := by
  simpa using (List.mem_filter.mp h).2

end Path

end SurveyReport
