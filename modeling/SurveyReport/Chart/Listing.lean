import SurveyReport.Chart
import SurveyReport.Json.Writer

/-!
# Charts as data

A chart is listed as JSON, with all its series, so that it can be looked at without being drawn.
-/

namespace SurveyReport

/-- The word for a statistic in a listing. -/
def Statistic.key (statistic : Statistic) : String :=
  if statistic = .value then "raw_value" else statistic.name

/-- A colour as its three parts. -/
def Colour.listing (c : Colour) : Json :=
  .array [.nat c.red.toNat, .nat c.green.toNat, .nat c.blue.toNat]

/-- A warning under its name. -/
def Warning.listing : Warning → Json
  | .paletteInsufficient needed available =>
    .fields [("PaletteInsufficient",
      .fields [("needed", .nat needed), ("available", .nat available)])]

/-- A value, or null. -/
def listFloat (x : Float) : Json := .number (Decimal.listed x)

/-- A labelled value. -/
def Point.listing (p : Point) : Json :=
  .fields [("label", .text p.label), ("value", listFloat p.value),
    ("color", .orNull (p.colour.map Colour.listing))]

/-- A series with its points. -/
def Series.listing (s : Series) : Json :=
  .fields [("name", .text s.name), ("points", .array (s.points.map Point.listing)),
    ("chart_type", .text s.kind.name), ("visible", .bool s.visible)]

/-- The hints for the drawing. -/
def Layout.listing (l : Layout) : Json :=
  .fields [("width", .nat l.width), ("height", .nat l.height),
    ("value_axis_max", .orNull (l.axisMax.map listFloat)), ("show_legend", .bool l.showLegend),
    ("font_size", .nat l.fontSize)]

/-- A whole chart. -/
def Chart.listing (c : Chart) : Json :=
  .fields [("title", .text c.title), ("kind", .text c.kind.name), ("stat", .text c.statistic.key),
    ("categories", .array (c.categories.map .text)),
    ("series", .array (c.series.map Series.listing)), ("layout", c.layout.listing),
    ("warnings", .array (c.warnings.map Warning.listing))]

/-- The text of a listed chart. -/
def Chart.listingText (c : Chart) : String := .ofList (c.listing.indented 0 ++ ['\n'])

end SurveyReport
