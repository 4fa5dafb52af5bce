import SurveyReport.Chart
import SurveyReport.Decimal.Exact
import SurveyReport.Picture

/-!
# Drawing charts

A bar chart is drawn as one block for each point of a visible series. Every series, visible or not, has
its slot in the place of each category. A pie chart is drawn as a disc whose slices are the points of
the first series.

Results:
* `le_column`, `le_row`: bars stay below the title and to the right of the labels.
* `drawBars_isOk_iff`: bars are drawn exactly when there are places and series.
-/

namespace SurveyReport

/-- The colour of a point in a picture. -/
def Point.paint (p : Point) : Colour := p.colour.getD .pureBlue

namespace Chart

/-! ## Slots -/

/-- The width of a slot, as a part of the place of a category, when there are so many series. -/
def slotWidth (series : Nat) : Float := if series ≤ 1 then 0.8 else 1 / Float.ofNat series

/-- How far the middle of the slot of a series lies from the middle of the place. -/
def slotOffset (series index : Nat) : Float :=
  (Float.ofNat index - (Float.ofNat series - 1) / 2) * slotWidth series

/-! ## The plane of the bars -/

/-- The end of the axis of values. -/
def axisEnd (c : Chart) : Float :=
  let tallest := (c.visibleSeries.map Series.maxValue).foldl Series.greater 0
  c.layout.axisMax.getD (Series.greater (tallest * 1.1) 1)

/-- What takes places and values to the columns and the rows of a sheet. -/
structure Plane where
  width : Nat
  height : Nat
  places : Nat
  top : Float

/-- The column of a position along the places, or the end of the plot that is nearer. The margin and
    the labels take 60 columns on the left and 11 on the right. Columns and rows are counted in 32
    bits. -/
def Plane.column (p : Plane) (x : Float) : Int :=
  let steps := Float.ofInt (p.width - 71) * (x / Float.ofNat p.places) + 0.001
  max 60 (min (p.width - 10) (60 + Decimal.floor32 steps).toInt)

/-- The row of a value, or the end of the plot that is nearer. The title and the margin take 36 rows at
    the top, the margin and the labels 51 at the bottom. -/
def Plane.row (p : Plane) (value : Float) : Int :=
  let steps := -(Float.ofInt (p.height - 87)) * (value / p.top) - 0.001
  max 36 (min (p.height - 50) (Int32.ofInt (p.height - 51) + Decimal.ceil32 steps).toInt)

theorem Plane.le_column (p : Plane) (x : Float) : 60 ≤ p.column x := by
  simp only [column]
  omega

theorem Plane.le_row (p : Plane) (value : Float) : 36 ≤ p.row value := by
  simp only [row]
  omega

/-- The lowest row of the bars on a sheet with so many rows. -/
def baseRow (height : Nat) : Int := height - 52

/-! ## Bars -/

/-- The bar of a point at a place. -/
def bar (plane : Plane) (series index : Nat) (place : Nat) (p : Point) : Block :=
  let centre := Float.ofNat place + 0.5 + slotOffset series index
  let half := slotWidth series / 2
  { left := plane.column (centre - half)
    right := plane.column (centre + half)
    top := plane.row p.value
    bottom := baseRow plane.height + 1
    colour := p.paint }

/-- The bars of a series. -/
def barsOf (plane : Plane) (series index : Nat) (s : Series) : List Block :=
  if s.visible then s.points.mapIdx (bar plane series index) else []

/-- The colour of a series in the legend, which is that of its first point. -/
def legendColour (s : Series) : Colour := (s.points.head?.map Point.paint).getD .pureBlue

/-- Draws bars on a sheet. -/
def drawBars (c : Chart) (sheet : Picture) : Except Fault Picture :=
  if c.categories = [] ∨ c.series.isEmpty then .error .noBars
  else
    let plane : Plane := ⟨sheet.width, sheet.height, c.categories.length, c.axisEnd⟩
    .ok { sheet with
      ground := .white
      blocks := (c.series.mapIdx (barsOf plane c.series.length)).flatten
      legend := if c.layout.showLegend then some (c.visibleSeries.map legendColour) else none }

theorem drawBars_isOk_iff (c : Chart) (sheet : Picture) :
    (c.drawBars sheet).isOk ↔ c.categories ≠ [] ∧ c.series ≠ [] := by
  unfold drawBars
  split
  · rename_i h
    rcases h with h | h <;> simp_all [Except.isOk, Except.toBool]
  · simp_all [Except.isOk, Except.toBool]

/-! ## Pies -/

/-- The rows that the title takes from a pie. -/
def titleRows : Nat := 26

/-- Draws a pie on a sheet. -/
def drawPie (c : Chart) (sheet : Picture) : Except Fault Picture :=
  match c.series with
  | [] => .error .noSeries
  | s :: _ =>
    let height := sheet.height - titleRows
    let pie : Pie :=
      { centreX := sheet.width / 2
        centreY := height / 2
        radius := Float.ofNat (min sheet.width height) * 0.35
        slices := s.points.map fun p => (p.value, p.paint) }
    if pie.total ≤ 0 then .error .noShares
    else .ok { sheet with ground := .white, pie := some pie }

/-! ## All charts -/

/-- The picture of a chart. -/
def draw (c : Chart) (width height : Nat) : Except Fault Picture := do
  let sheet ← Picture.sheet? width height
  match c.kind with
  | .bar => c.drawBars sheet
  | .pie => c.drawPie sheet

end Chart

end SurveyReport
