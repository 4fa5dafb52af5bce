import SurveyReport.Disk.Path
import SurveyReport.Json.Reader
import SurveyReport.Palette

/-!
# Options

An options file is a JSON object, or an array of the same values in their fixed order, from the first
one on. What it does not set keeps its default. Unknown names are skipped, but a known name may
occur once only.
-/

namespace SurveyReport

/-- What can be set for all charts of a report. -/
structure Options where
  width : Option Nat
  height : Option Nat
  palette : Option (List Colour)
  imageDirectory : String
  strict : Bool
  deriving DecidableEq, Repr

namespace Options

/-- The options when nothing is set. -/
def initial : Options := ⟨none, none, none, "charts", false⟩

/-- Whether the options are those when nothing is set; the spelling of the directory may differ. -/
def isInitial (o : Options) : Bool :=
  Path.key o.imageDirectory == Path.key initial.imageDirectory &&
    { o with imageDirectory := initial.imageDirectory } == initial

/-- The palette of a report at its start. A palette without colours is as good as none. -/
def initialPalette (o : Options) : Palette := (o.palette.bind Palette.ofList?).getD .initial

/-- The size of all pictures, if both sides are set. -/
def pictureSize? (o : Options) : Option (Nat × Nat) := do return (← o.width, ← o.height)

/-! ## Values -/

/-- A value that may be null. -/
def orNull? {α : Type} (read : Json → Option α) : Json → Option (Option α)
  | .null => some none
  | v => (read v).map some

/-- A whole number up to a bound. -/
def upTo? (bound : Nat) (v : Json) : Option Nat :=
  v.nat?.bind fun n => if n ≤ bound then some n else none

/-- One side of a picture, which fits 32 bits. -/
def side? (v : Json) : Option Nat := upTo? (UInt32.size - 1) v

/-- A colour as an array of its three parts. -/
def colour? : Json → Option Colour
  | .array [red, green, blue] => do
    let part (v : Json) : Option UInt8 := (upTo? 255 v).map UInt8.ofNat
    return ⟨← part red, ← part green, ← part blue⟩
  | _ => none

/-- The colours of an array. -/
def colours? (v : Json) : Option (List Colour) := v.items?.bind (·.mapM colour?)

/-! ## Files -/

/-- The names of the options in their fixed order. -/
def names : List String := ["width", "height", "palette", "image_dir", "strict"]

/-- The options with one more value set. -/
def set? (o : Options) (name : String) (v : Json) : Option Options :=
  if name = "width" then (orNull? side? v).map fun width => { o with width }
  else if name = "height" then (orNull? side? v).map fun height => { o with height }
  else if name = "palette" then (orNull? colours? v).map fun palette => { o with palette }
  else if name = "image_dir" then v.text?.map fun imageDirectory => { o with imageDirectory }
  else if name = "strict" then v.bool?.map fun strict => { o with strict }
  else some o

/-- The options with named values set, one after the other. -/
def setAll? (o : Options) (values : List (String × Json)) : Option Options :=
  values.foldlM (fun o (name, v) => o.set? name v) o

/-- Whether no known name occurs twice. -/
def isDistinct (used : List String) : Bool := names.all fun name => used.count name ≤ 1

/-- The options that a value sets. -/
def ofJson? : Json → Option Options
  | .object fields => do
    let values ← fields.mapM fun (name, v) => name.map (·, v)
    if isDistinct (values.map (·.1)) then initial.setAll? values else none
  | .array items => if items.length ≤ names.length then initial.setAll? (names.zip items) else none
  | _ => none

/-- The options that a text sets. -/
def parse? (text : String) : Option Options := (Json.read? text).bind ofJson?

end Options

end SurveyReport
