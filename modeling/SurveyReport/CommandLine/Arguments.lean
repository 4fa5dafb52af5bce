/-!
# Arguments

Two arguments are paths: the survey and the template. All others are switches, in any order and between
the paths. A switch may be given once; three of them take a value, which follows or is attached. Two
dashes alone end the switches.
-/

namespace SurveyReport

/-- What the program is asked to do. Without an output the document goes to the standard output. -/
structure Arguments where
  survey : String
  template : String
  output : Option String
  options : Option String
  imageDirectory : Option String
  strict : Bool
  listing : Bool
  deriving DecidableEq, Repr

/-- What arguments ask for. -/
inductive Request where
  | report (arguments : Arguments)
  | help
  | refused
  deriving DecidableEq, Repr

/-- The switches that take a value. -/
inductive Valued where
  | output
  | options
  | imageDirectory
  deriving DecidableEq, Repr

/-- The switches that take none. -/
inductive Plain where
  | strict
  | listing
  deriving DecidableEq, Repr

/-- What one argument is. -/
inductive Argument where
  | path (text : String)
  | ending
  | valued (switch : Valued) (value : Option String)
  | plain (switch : Plain)
  | help
  | unknown
  deriving DecidableEq, Repr

/-- The arguments read so far: the paths, the values and the plain switches. -/
structure Gathered where
  paths : List String
  values : List (Valued × String)
  plain : List Plain
  deriving DecidableEq, Repr

namespace Argument

/-! ## One argument -/

/-- A long switch without its dashes. Only an equals sign attaches a value. -/
def ofLong (s : List Char) : Argument :=
  let name := String.ofList (s.takeWhile (· ≠ '='))
  let value := ((s.dropWhile (· ≠ '=')).tail?).map String.ofList
  match name, value with
  | "output", _ => .valued .output value
  | "config", _ => .valued .options value
  | "image-dir", _ => .valued .imageDirectory value
  | "strict", none => .plain .strict
  | "dump-series", none => .plain .listing
  | "help", none => .help
  | _, _ => .unknown

/-- A short switch without its dash. All behind the letter is its value, less one equals sign. -/
def ofShort : List Char → Argument
  | ['o'] => .valued .output none
  | 'o' :: '=' :: value => .valued .output (some (.ofList value))
  | 'o' :: value => .valued .output (some (.ofList value))
  | 'h' :: _ => .help
  | _ => .unknown

/-- What an argument is, as long as the switches have not ended. A single dash is a path. -/
def ofText (s : String) : Argument :=
  match s.toList with
  | ['-', '-'] => .ending
  | '-' :: '-' :: name => ofLong name
  | '-' :: letter :: rest => ofShort (letter :: rest)
  | _ => .path s

end Argument

namespace Gathered

/-! ## All arguments -/

def empty : Gathered := ⟨[], [], []⟩

/-- With one more path. There are two of them, and a path is not empty. -/
def path? (g : Gathered) (text : String) : Option Gathered :=
  if text = "" ∨ 2 ≤ g.paths.length then none else some { g with paths := g.paths ++ [text] }

/-- With one more value. A switch has one value, and it is not empty. -/
def value? (g : Gathered) (switch : Valued) (text : String) : Option Gathered :=
  if text = "" ∨ (g.values.lookup switch).isSome then none
  else some { g with values := g.values ++ [(switch, text)] }

/-- With one more plain switch. -/
def plain? (g : Gathered) (switch : Plain) : Option Gathered :=
  if g.plain.contains switch then none else some { g with plain := g.plain ++ [switch] }

/-- What is asked for when all arguments are read. -/
def finish (g : Gathered) : Request :=
  match g.paths with
  | [survey, template] =>
    .report
      { survey, template
        output := g.values.lookup .output
        options := g.values.lookup .options
        imageDirectory := g.values.lookup .imageDirectory
        strict := g.plain.contains .strict
        listing := g.plain.contains .listing }
  | _ => .refused

/-- Reads arguments that are all paths. -/
def readPaths (g : Gathered) : List String → Request
  | [] => g.finish
  | text :: rest =>
    match g.path? text with
    | some g => readPaths g rest
    | none => .refused

/-- Reads arguments. A switch may be waiting for its value. -/
def read (g : Gathered) (waiting : Option Valued) : List String → Request
  | [] => if waiting.isSome then .refused else g.finish
  | text :: rest =>
    match waiting, Argument.ofText text with
    | some switch, .path value =>
      match g.value? switch value with
      | some g => read g none rest
      | none => .refused
    | some _, _ => .refused
    | none, .path text =>
      match g.path? text with
      | some g => read g none rest
      | none => .refused
    | none, .ending => readPaths g rest
    | none, .valued switch none => read g (some switch) rest
    | none, .valued switch (some value) =>
      match g.value? switch value with
      | some g => read g none rest
      | none => .refused
    | none, .plain switch =>
      match g.plain? switch with
      | some g => read g none rest
      | none => .refused
    | none, .help => .help
    | none, .unknown => .refused

end Gathered

namespace Request

/-- What arguments ask for. -/
def read (arguments : List String) : Request := Gathered.empty.read none arguments

end Request

end SurveyReport
