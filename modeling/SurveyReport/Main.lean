import SurveyReport.CommandLine
import SurveyReport.Picture.Png

/-!
# The program at work

The program runs on a copy of the files that its arguments name. What it wrote there is then written
to the real disk.
-/

namespace SurveyReport

/-- What a path leads to. -/
inductive Found where
  | nothing
  | directory
  | file (data : ByteArray)

/-- The number of the error that reading a directory gives. -/
def directoryError : UInt32 := 21

/-- Looks where a path leads. -/
def look (path : String) : IO Found := do
  try
    return .file (← IO.FS.readBinFile path)
  catch
    | .inappropriateType _ code _ => return if code = directoryError then .directory else .nothing
    | _ => return .nothing

/-- All beginnings of a path that end with a name. -/
def beginnings (path : String) : List String :=
  let parts := path.toList.splitOn '/'
  ((List.range parts.length).map fun i => ['/'].intercalate (parts.take (i + 1))).map String.ofList

/-- Copies what lies on a path. -/
def copyPath (d : Disk) (path : String) : IO Disk := do
  let mut d := d
  for beginning in beginnings path do
    if let .ok t := d.trail beginning then
      match ← look beginning with
      | .nothing => pure ()
      | .directory => d := { d with directories := t :: d.directories }
      | .file data => d := d.put t (.bytes data)
  return d

/-- The paths that a report reads or writes. -/
def Arguments.paths (a : Arguments) : List String :=
  let named := a.options.toList ++ [a.survey, a.template] ++ a.output.toList
  named ++ a.imageDirectory.toList

/-- Copies what the arguments name. -/
def copyAll (arguments : List String) : IO Disk := do
  let working := Path.names (← IO.currentDir).toString
  let above := (List.range working.length).map fun i => working.take (i + 1)
  match Request.read arguments with
  | .report a =>
    let d ← a.paths.foldlM copyPath ⟨above, [], working⟩
    let directory := match CommandLine.optionsOf d a.options with
      | .ok o => o.imageDirectory
      | .error _ => Options.initial.imageDirectory
    copyPath d directory
  | _ => return ⟨above, [], working⟩

/-- The bytes of a file. -/
def Contents.encoded : Contents → ByteArray
  | .bytes data => data
  | .drawing picture => Png.encode picture

/-- The path of a trail. -/
def pathOf (t : Trail) : String := "/" ++ "/".intercalate t

/-- Writes what is new. -/
def writeNew (before after : Disk) : IO Unit := do
  let directories := after.directories.take (after.directories.length - before.directories.length)
  for t in directories.reverse do
    IO.FS.createDirAll (pathOf t)
  let files := after.files.take (after.files.length - before.files.length)
  for (t, contents) in files.reverse do
    IO.FS.writeBinFile (pathOf t) contents.encoded

end SurveyReport

open SurveyReport in
/-- Runs the program. -/
def main (arguments : List String) : IO UInt32 := do
  let before ← copyAll arguments
  let ending := CommandLine.run arguments before
  IO.eprint ending.err
  writeNew before ending.disk
  IO.print ending.out
  return UInt32.ofNat ending.code
