import SurveyReport.Decimal.Layout
import SurveyReport.Directive
import SurveyReport.Palette

/-!
# Charts

A chart is what is to be drawn: labelled values in series, each value with its colour, and hints for
the size and the shape of the drawing. A series that is not visible only keeps a place free.

Results:
* `labels_paint`, `labels_push`: painting keeps the labels of a series, pushing adds one.
-/

namespace SurveyReport

/-- A labelled value of a series. Its colour is open until it is given. -/
structure Point where
  label : String
  value : Float
  colour : Option Colour

/-- A sequence of labelled values. -/
structure Series where
  name : String
  points : List Point
  kind : ChartKind
  visible : Bool

/-- Hints for the drawing. Without `axisMax` the values choose the end of the axis; a font size of 0
    is chosen by the drawing. -/
structure Layout where
  width : Nat
  height : Nat
  axisMax : Option Float
  showLegend : Bool
  fontSize : Nat

/-- A chart to be drawn. `categories` are the places along its axis. -/
structure Chart where
  title : String
  kind : ChartKind
  statistic : Statistic
  categories : List String
  series : List Series
  layout : Layout
  warnings : List Warning

namespace Series

/-- A visible series without points. -/
def start (name : String) (kind : ChartKind) : Series := ⟨name, [], kind, true⟩

/-- The series with one more point. -/
def push (s : Series) (label : String) (value : Float) : Series :=
  { s with points := s.points ++ [⟨label, value, none⟩] }

/-- The series in one colour. -/
def paint (s : Series) (c : Colour) : Series :=
  { s with points := s.points.map fun p => { p with colour := some c } }

/-- The labels of the points. -/
def labels (s : Series) : List String := s.points.map (·.label)

/-- The greater one of two floats. -/
def greater (a b : Float) : Float := if a < b then b else a

/-- The greatest value, and 0 if none is above it. -/
def maxValue (s : Series) : Float := (s.points.map (·.value)).foldl greater 0

@[simp] theorem labels_paint (s : Series) (c : Colour) : (s.paint c).labels = s.labels := by
  simp [paint, labels, Function.comp_def]

@[simp] theorem labels_push (s : Series) (label : String) (value : Float) :
    (s.push label value).labels = s.labels ++ [label] := by
  simp [push, labels]

end Series

/-- The layout of a chart over a number of columns. Percentages have an axis up to 100. -/
def Layout.of (kind : ChartKind) (statistic : Statistic) (columns fontSize : Nat) : Layout :=
  let size : Nat × Nat :=
    match kind with
    | .pie => (720, 560)
    | .bar => if 1 < columns then (1200, 600) else (1000, 400)
  { width := size.1
    height := size.2
    axisMax := if statistic = .percentage then some 100 else none
    showLegend := kind = .pie || 1 < columns
    fontSize }

/-- The series of a chart that are visible. -/
def Chart.visibleSeries (c : Chart) : List Series := c.series.filter (·.visible)

/-- A value as it is written on a chart: percentages have one decimal place. -/
def Statistic.valueText (statistic : Statistic) (value : Float) : String :=
  if statistic = .percentage then Decimal.oneDecimal value else Decimal.plain value

end SurveyReport
