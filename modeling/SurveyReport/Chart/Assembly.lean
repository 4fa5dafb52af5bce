import SurveyReport.Chart
import SurveyReport.Chart.Arrange
import SurveyReport.Column.Alignment
import SurveyReport.Failure
import SurveyReport.Summary

/-!
# Assembling charts

A chart over one column has one series with a point for each answer. A chart over several columns has
one place for each column and one series for each answer of the reference column, with spacers around
and between them. Colours are given by the place in the arranged chart.

Results:
* `length_spaced`: how many series a chart with spacers has.
* `colourAll_labels`: colours change no labels.
-/

namespace SurveyReport

namespace Chart

/-- The value of a count in a chart. -/
def valueOf (statistic : Statistic) (count total : Nat) : Float :=
  if statistic = .percentage then Summary.percent count total else Summary.floatOf count

/-! ## Spacers -/

/-- A series that keeps a place free in each category. -/
def spacer (categories : List String) (kind : ChartKind) (suffix : String) : Series where
  name := "filler" ++ suffix
  points := categories.map (⟨·, 0, none⟩)
  kind := kind
  visible := false

/-- The series with a spacer before each of them, named after it. -/
def behindSpacers (categories : List String) (kind : ChartKind) (series : List Series) :
    List Series :=
  series.flatMap fun s => [spacer categories kind s.name, s]

/-- The series with one spacer between each two of them. -/
def separated (categories : List String) (kind : ChartKind) : List Series → List Series
  | [] => []
  | s :: rest => s :: behindSpacers categories kind rest

/-- The series with spacers between them and two more at each end. -/
def spaced (categories : List String) (kind : ChartKind) (series : List Series) : List Series :=
  [spacer categories kind "beginning", spacer categories kind "beginning1"] ++
    separated categories kind series ++
    [spacer categories kind "end", spacer categories kind "end1"]

theorem length_behindSpacers (categories : List String) (kind : ChartKind) (series : List Series) :
    (behindSpacers categories kind series).length = 2 * series.length := by
  induction series with
  | nil => rfl
  | cons s rest ih => simp_all [behindSpacers]; omega

theorem length_spaced (categories : List String) (kind : ChartKind) (s : Series)
    (rest : List Series) : (spaced categories kind (s :: rest)).length = 5 + 2 * rest.length := by
  simp [spaced, separated, length_behindSpacers]
  omega

/-! ## Several columns -/

/-- The series of one answer over all columns. -/
def answerSeries (statistic : Statistic) (kind : ChartKind) (columns : List Column)
    (answer : String) : Series where
  name := answer
  points := columns.map fun c => ⟨c.name, valueOf statistic (c.countOf answer) c.answered, none⟩
  kind := kind
  visible := true

/-- Gives the first series the first colour, and so on. -/
def paintAll (palette : Palette) (series : List Series) : List Series :=
  List.zipWith Series.paint series (palette.assign series.length)

/-- The places, the series and the warning of a chart over several columns. -/
def grouped (aligned : Aligned) (kind : ChartKind) (statistic : Statistic) (s : Setting) :
    List String × List Series × Option Warning :=
  let categories := aligned.columns.map (·.name)
  let answers := ((aligned.columns[aligned.reference]?.map (·.categories)).getD []).map (·.name)
  let series := arrange s.order (·.name) (answers.map (answerSeries statistic kind aligned.columns))
  (categories, spaced categories kind (paintAll s.palette series), s.palette.warning? series.length)

/-! ## One column -/

/-- The points of the known answers. -/
def knownPoints (c : Column) (statistic : Statistic) : List Point :=
  c.categories.map fun a => ⟨a.name, valueOf statistic a.count (c.answered + c.unknown), none⟩

/-- The point of the unknown answers, if there are any. -/
def unknownPoints (c : Column) (statistic : Statistic) : List Point :=
  if c.unknown = 0 then []
  else [⟨unknownLabel, valueOf statistic c.unknown (c.answered + c.unknown), none⟩]

/-- The points of a chart over one column. In a pie the greater slices come first, and the order
    counts among equal slices only. -/
def pointsOf (c : Column) (kind : ChartKind) (statistic : Statistic) (order : List String) :
    List Point :=
  let known := knownPoints c statistic
  let unknown := unknownPoints c statistic
  match kind with
  | .bar => arrange order (·.label) (known ++ unknown)
  | .pie =>
    (arrange order (·.label) known ++ unknown).mergeSort fun a b =>
      Decimal.orderKey b.value ≤ Decimal.orderKey a.value

/-- Gives the first point the first colour, and so on. -/
def colourAll (palette : Palette) (points : List Point) : List Point :=
  List.zipWith (fun p c => { p with colour := some c }) points (palette.assign points.length)

theorem colourAll_labels (palette : Palette) (points : List Point) :
    (colourAll palette points).map (·.label) = points.map (·.label) := by
  apply List.ext_getElem <;> simp [colourAll, Palette.assign_length]

/-- The places, the series and the warning of a chart over one column. -/
def single (c : Column) (kind : ChartKind) (statistic : Statistic) (s : Setting) :
    List String × List Series × Option Warning :=
  let points := pointsOf c kind statistic s.order
  (points.map (·.label), [⟨c.name, colourAll s.palette points, kind, true⟩],
    s.palette.warning? points.length)

/-! ## All charts -/

/-- The chart that a request asks for over aligned columns. -/
def assemble (aligned : Aligned) (r : ChartRequest) (s : Setting) : Except Failure Chart :=
  let columns := aligned.columns.length
  if r.statistic ≠ .count ∧ r.statistic ≠ .percentage then
    .error (.notCharted r.statistic r.source)
  else if r.kind = .pie ∧ 1 < columns then .error (.crowdedPie columns r.source)
  else
    let finish (parts : List String × List Series × Option Warning) : Chart :=
      { title := r.title
        kind := r.kind
        statistic := r.statistic
        categories := parts.1
        series := parts.2.1
        layout := .of r.kind r.statistic columns r.fontSize
        warnings := parts.2.2.toList }
    match aligned.columns with
    | [] => .error (.noColumns r.source)
    | [c] => .ok (finish (single c r.kind r.statistic s))
    | _ => .ok (finish (grouped aligned r.kind r.statistic s))

end Chart

end SurveyReport
