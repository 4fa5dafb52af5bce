import SurveyReport.Directive
import SurveyReport.Disk.Path
import SurveyReport.Table.Import

/-!
# What can go wrong

Each way to fail is a cause of its own; its wording is in one place. A fault is not the fault of a
directive: the chart that it asks for cannot be drawn or be written, or the document cannot be changed.

Results:
* `chain_ne_nil`: a fault always has something to say.
-/

namespace SurveyReport

/-! ## Faults -/

/-- Why a chart could not be drawn or a document not be changed. -/
inductive Fault where
  | nothingPending
  | badSize (width height : Nat)
  | tooLarge (width height : Nat)
  | noBars
  | noSeries
  | noShares
  | makeDirectory (path : String) (cause : DiskError)
  | writeChart (path : String) (cause : DiskError)
  | refused (told : String) (because : List String)
  deriving DecidableEq, Repr

namespace Fault

/-- What a fault says, the outermost circumstance first. -/
def chain : Fault → List String
  | .nothingPending => ["no directive is pending replacement"]
  | .badSize width height => [s!"Cannot create a {width}x{height} canvas"]
  | .tooLarge width height => [s!"Canvas size {width}x{height} is too large"]
  | .noBars => ["Cannot create bar chart with no data"]
  | .noSeries => ["Cannot create pie chart with no series"]
  | .noShares => ["Cannot create pie chart with no values"]
  | .makeDirectory path cause => [s!"Failed to create image directory '{path}'", cause.message]
  | .writeChart path cause => [s!"Failed to write chart '{path}'", cause.message]
  | .refused told because => told :: because

theorem chain_ne_nil (f : Fault) : f.chain ≠ [] := by cases f <;> simp [chain]

/-- All that a fault says, on one line. -/
def message (f : Fault) : String := ": ".intercalate f.chain

end Fault

/-! ## Failures -/

/-- Why a directive, or the import before it, failed. -/
inductive Failure where
  | missingHeader (row : HeaderRow)
  | invalid (cause : Malformed) (source : String)
  | noColumns (source : String)
  | noNumbers (statistic : Statistic) (source : String)
  | noValues (column : String)
  | notCharted (statistic : Statistic) (source : String)
  | crowdedPie (columns : Nat) (source : String)
  | fault (cause : Fault)
  deriving DecidableEq, Repr

/-- The text of a failure. -/
def Failure.message : Failure → String
  | .missingHeader row => s!"format error: missing {row.name} header row"
  | .invalid cause source => s!"format error: {cause.message} in '{source}'"
  | .noColumns source => s!"no columns found for directive '{source}'"
  | .noNumbers statistic source =>
    s!"cannot compute {statistic.name} for '{source}': no category converts to a number"
  | .noValues column => s!"column '{column}' has no values"
  | .notCharted statistic source =>
    s!"invalid chart request: graphs support count or percentage, not {statistic.name} ('{source}')"
  | .crowdedPie columns source =>
    s!"invalid chart request: a pie chart takes exactly one column, got {columns} ('{source}')"
  | .fault cause => s!"render error: {cause.message}"

end SurveyReport
