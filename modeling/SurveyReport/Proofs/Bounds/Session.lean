import SurveyReport.Proofs.Bounds.Access
import SurveyReport.Proofs.Pass.Substitution

/-!
# Sessions stay within bounds

Directives are worked off in turn with checked accesses only, over the columns of a survey export, and
with any list of colours to start from. A session that starts with one colour at least comes to all
its results: no access is ever out of bounds, whatever the export and the directives say.

Results:
* `assemble?_eq`: charts are put together within bounds.
* `comesTo?_eq`: so is whatever a directive comes to.
* `session?_eq`: whole sessions give the results and the setting that unchecked ones give.
-/

namespace SurveyReport

/-- The colours and the order in force. There may be no colours. -/
structure Choices where
  colours : List Colour
  order : List String
  deriving DecidableEq, Repr

/-- A setting without the knowledge that it has colours. -/
def Setting.choices (s : Setting) : Choices := ⟨s.palette.colours, s.order⟩

/-- The choices after a directive. No colours change nothing. -/
def Choices.declare (s : Choices) : Directive → Choices
  | .palette colours => if colours.isEmpty then s else { s with colours }
  | .order names => { s with order := names }
  | _ => s

theorem Choices.declare_choices (s : Setting) (d : Directive) :
    s.choices.declare d = (s.declare d).choices := by
  cases d with
  | palette colours => cases colours <;> rfl
  | order names => rfl
  | text r => rfl
  | chart r => rfl
  | invalid cause source => rfl

/-! ## Charts -/

namespace Chart

/-- The colours for a number of items, and the warning if they repeat. -/
def coloursFor? (colours : List Colour) (count : Nat) : Option (List Colour × Option Warning) := do
  let assigned ← Palette.assign? colours count
  return (assigned,
    if colours.length < count then some (.paletteInsufficient count colours.length) else none)

theorem coloursFor?_eq (p : Palette) (count : Nat) :
    coloursFor? p.colours count = some (p.assign count, p.warning? count) := by
  rw [coloursFor?, Palette.assign?_eq]
  rfl

/-- The places, the series and the warning of a chart over several columns, the reference column
    looked up. -/
def grouped? (aligned : Aligned) (kind : ChartKind) (statistic : Statistic) (s : Choices) :
    Option (List String × List Series × Option Warning) := do
  let categories := aligned.columns.map (·.name)
  let reference ← aligned.columns[aligned.reference]?
  let answers := reference.categories.map (·.name)
  let series ← arrange? s.order (·.name) (answers.map (answerSeries statistic kind aligned.columns))
  let (colours, warning) ← coloursFor? s.colours series.length
  return (categories, spaced categories kind (List.zipWith Series.paint series colours), warning)

theorem grouped?_eq {aligned : Aligned} (h : aligned.reference < aligned.columns.length)
    (kind : ChartKind) (statistic : Statistic) (s : Setting) :
    grouped? aligned kind statistic s.choices = some (grouped aligned kind statistic s) := by
  have hreference := List.getElem?_eq_getElem h
  simp [grouped?, grouped, Setting.choices, hreference, arrange?_eq, coloursFor?_eq, paintAll]

/-- The points of a chart over one column. -/
def pointsOf? (c : Column) (kind : ChartKind) (statistic : Statistic) (order : List String) :
    Option (List Point) := do
  let known := knownPoints c statistic
  let unknown := unknownPoints c statistic
  match kind with
  | .bar => arrange? order (·.label) (known ++ unknown)
  | .pie =>
    let arranged ← arrange? order (·.label) known
    return (arranged ++ unknown).mergeSort fun a b =>
      Decimal.orderKey b.value ≤ Decimal.orderKey a.value

theorem pointsOf?_eq (c : Column) (kind : ChartKind) (statistic : Statistic) (order : List String) :
    pointsOf? c kind statistic order = some (pointsOf c kind statistic order) := by
  cases kind <;> simp [pointsOf?, pointsOf, arrange?_eq]

/-- The places, the series and the warning of a chart over one column. -/
def single? (c : Column) (kind : ChartKind) (statistic : Statistic) (s : Choices) :
    Option (List String × List Series × Option Warning) := do
  let points ← pointsOf? c kind statistic s.order
  let (colours, warning) ← coloursFor? s.colours points.length
  let coloured := List.zipWith (fun (p : Point) c => { p with colour := some c }) points colours
  return (points.map (·.label), [⟨c.name, coloured, kind, true⟩], warning)

theorem single?_eq (c : Column) (kind : ChartKind) (statistic : Statistic) (s : Setting) :
    single? c kind statistic s.choices = some (single c kind statistic s) := by
  simp [single?, single, Setting.choices, pointsOf?_eq, coloursFor?_eq, colourAll]

/-- The chart that a request asks for over aligned columns. One column alone is looked up. -/
def assemble? (aligned : Aligned) (r : ChartRequest) (s : Choices) :
    Option (Except Failure Chart) :=
  let columns := aligned.columns.length
  if r.statistic ≠ .count ∧ r.statistic ≠ .percentage then
    some (.error (.notCharted r.statistic r.source))
  else if r.kind = .pie ∧ 1 < columns then some (.error (.crowdedPie columns r.source))
  else do
    let (categories, series, warning) ←
      if 1 < columns then grouped? aligned r.kind r.statistic s
      else do
        let c ← aligned.columns[0]?
        single? c r.kind r.statistic s
    return .ok
      { title := r.title
        kind := r.kind
        statistic := r.statistic
        categories
        series
        layout := .of r.kind r.statistic columns r.fontSize
        warnings := warning.toList }

theorem assemble?_eq {aligned : Aligned} (h : aligned.reference < aligned.columns.length)
    (r : ChartRequest) (s : Setting) :
    assemble? aligned r s.choices = some (assemble aligned r s) := by
  obtain ⟨columns, reference⟩ := aligned
  unfold assemble? assemble
  dsimp only
  split
  · rfl
  · split
    · rfl
    · match columns with
      | [] => simp at h
      | [c] => simp [single?_eq]
      | _ :: _ :: _ => simp [grouped?_eq h]

end Chart

/-! ## Directives -/

namespace Directive

/-- The columns that references name, aligned. -/
def columnsOf? (columns : List Column) (references : List String) (source : String) :
    Option (Except Failure Aligned) :=
  match Column.resolve columns references source with
  | .error failure => some (.error failure)
  | .ok used => (Column.align? used).map .ok

theorem columnsOf?_eq (columns : List Column) (references : List String) (source : String) :
    columnsOf? columns references source = some (columnsOf columns references source) := by
  unfold columnsOf? columnsOf
  cases Column.resolve columns references source with
  | error failure => rfl
  | ok used => simp [Column.align?_eq, Except.map]

/-- The reference of resolved columns is one of them. -/
theorem reference_lt_of_columnsOf {columns : List Column} {references : List String}
    {source : String} {aligned : Aligned} (h : columnsOf columns references source = .ok aligned) :
    aligned.reference < aligned.columns.length := by
  unfold columnsOf at h
  cases hused : Column.resolve columns references source with
  | error failure => simp [hused, Except.map] at h
  | ok used =>
    obtain rfl : Column.align used = aligned := by simpa [hused, Except.map] using h
    rw [Column.length_align]
    exact Column.referenceIndex_lt (Column.resolve_ne_nil hused)

/-- What a directive comes to. -/
def comesTo? (columns : List Column) (s : Choices) : Directive → Option (Except Failure Outcome)
  | .invalid cause source => some (.error (.invalid cause source))
  | .palette _ | .order _ => some (.ok .declaration)
  | .text r => do
    match ← columnsOf? columns r.references r.source with
    | .error failure => return .error failure
    | .ok aligned => return (Summary.text aligned.columns r.statistic r.source).map .text
  | .chart r => do
    match ← columnsOf? columns r.references r.source with
    | .error failure => return .error failure
    | .ok aligned =>
      let chart ← Chart.assemble? aligned r s
      return chart.map .chart

theorem comesTo?_eq (columns : List Column) (s : Setting) (d : Directive) :
    comesTo? columns s.choices d = some (outcome columns s d).1 := by
  cases d with
  | invalid cause source => rfl
  | palette colours => rfl
  | order names => rfl
  | text r =>
    simp only [comesTo?, outcome, columnsOf?_eq, Option.bind_eq_bind, Option.bind_some]
    cases columnsOf columns r.references r.source with
    | error failure => rfl
    | ok aligned =>
      change some ((Summary.text aligned.columns r.statistic r.source).map Outcome.text) =
        some (Summary.text aligned.columns r.statistic r.source >>= fun text => .ok (Outcome.text text))
      cases Summary.text aligned.columns r.statistic r.source <;> rfl
  | chart r =>
    simp only [comesTo?, outcome, columnsOf?_eq, Option.bind_eq_bind, Option.bind_some]
    cases haligned : columnsOf columns r.references r.source with
    | error failure => rfl
    | ok aligned =>
      simp only [Chart.assemble?_eq (reference_lt_of_columnsOf haligned), Option.bind_some]
      change some ((Chart.assemble aligned r s).map Outcome.chart) =
        some (Chart.assemble aligned r s >>= fun chart => .ok (Outcome.chart chart))
      cases Chart.assemble aligned r s <;> rfl

/-- The directive of a text that may still have its braces. -/
def ofMarked? (raw : String) : Option Directive :=
  let source : String := .ofList (Field.stripMarkers raw.toList)
  ofFields? source (Field.split source.toList)

theorem ofMarked?_eq (raw : String) : ofMarked? raw = some (ofMarked raw) := ofFields?_eq _ _

end Directive

/-- What a written directive comes to, and the choices behind it. -/
def outcomeOf? (columns : List Column) (s : Choices) (raw : String) :
    Option (Except Failure Outcome × Choices) := do
  let d ← Directive.ofMarked? raw
  let result ← d.comesTo? columns s
  return (result, s.declare d)

theorem outcomeOf?_eq (columns : List Column) (s : Setting) (raw : String) :
    outcomeOf? columns s.choices raw =
      some ((outcomeOf columns s raw).1, (outcomeOf columns s raw).2.choices) := by
  simp only [outcomeOf?, Directive.ofMarked?_eq, Directive.comesTo?_eq, Option.bind_eq_bind,
    Option.bind_some, Choices.declare_choices, Option.pure_def, outcomeOf, Directive.snd_outcome]

/-! ## Sessions -/

/-- What written directives come to in turn, and the choices behind them. -/
def results? (columns : List Column) : Choices → List String → Option (List Result × Choices)
  | s, [] => some ([], s)
  | s, raw :: raws => do
    let (result, s) ← outcomeOf? columns s raw
    let (results, s) ← results? columns s raws
    return (result :: results, s)

theorem results?_eq (columns : List Column) (s : Setting) (raws : List String) :
    results? columns s.choices raws =
      some (resultsOf columns s raws, (settingAfter columns s raws).choices) := by
  induction raws generalizing s with
  | nil => simp [results?, resultsOf, settingAfter]
  | cons raw raws ih => simp [results?, outcomeOf?_eq, ih, resultsOf_cons, settingAfter]

/-- A session over a survey export: the directives in turn over its columns. -/
def session? (text : String) (s : Choices) (raws : List String) :
    Option (Except HeaderRow (List Result × Choices)) :=
  match Table.ofCsv text with
  | .error row => some (.error row)
  | .ok t => do
    let columns ← t.columns?
    let results ← results? columns s raws
    return .ok results

/-- **Sessions stay within bounds.** Over every survey export that can be read, with every list of
    colours that is not empty and every order to start from, all checked accesses of all directives
    come to something: the results are those of the unchecked session. -/
theorem session?_eq {colours : List Colour} (h : colours ≠ []) (order : List String) (text : String)
    (raws : List String) :
    session? text ⟨colours, order⟩ raws =
      some ((Table.ofCsv text).map fun t =>
        (resultsOf t.columns ⟨⟨colours, h⟩, order⟩ raws,
          (settingAfter t.columns ⟨⟨colours, h⟩, order⟩ raws).choices)) := by
  unfold session?
  cases Table.ofCsv text with
  | error row => rfl
  | ok t =>
    have hresults := results?_eq t.columns ⟨⟨colours, h⟩, order⟩ raws
    simp only [Setting.choices] at hresults ⊢
    simp [Table.columns?_eq, hresults, Except.map]

/-- The answers share one colour, the order swaps them, and the second chart is over two columns, one
    of which lacks an answer. -/
theorem session?_eq_two_columns :
    ∃ t, Table.ofCsv "Tea,Milk\nTea,Milk\nno,yes\nyes\n" = .ok t ∧
      session? "Tea,Milk\nTea,Milk\nno,yes\nyes\n" ⟨[.black], ["yes", "no"]⟩
          ["bar;count;Tea;Drinks", "bar;count;a;b;Drinks"] =
        some (.ok (resultsOf t.columns ⟨⟨[.black], by simp⟩, ["yes", "no"]⟩
          ["bar;count;Tea;Drinks", "bar;count;a;b;Drinks"], ⟨[.black], ["yes", "no"]⟩)) :=
  ⟨_, rfl, session?_eq (by simp) ["yes", "no"] _ _⟩

end SurveyReport
