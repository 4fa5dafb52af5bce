import SurveyReport.Outcome
import SurveyReport.Proofs.Chart.Data
import SurveyReport.Proofs.Column.Tally

/-!
# Directives over one column

Over one column alone nothing is aligned, and a chart has one series of points. A text and a chart work
out a percentage in one way, `Summary.percent`, and write it in one way, `Decimal.oneDecimal`, but they
take it of different totals: a text of the total of the column, a chart of the answers that are known and
the unknown ones. The entries are the same because these two totals are.

Results:
* `outcome_text_singleton`, `outcome_chart_singleton`: what directives over one column come to.
* `map_entry_points`: the points of a column are written as its text has them.
* `outcome_percentages`: a chart of percentages has the entries of the text.
-/

namespace SurveyReport

/-! ## Entries -/

/-- A point of percentages as it is written: its label and its value. -/
def Point.entry (p : Point) : String := s!"{p.label}: {Statistic.percentage.valueText p.value}%"

/-- The labels of a chart. -/
def Chart.labels (chart : Chart) : List String := chart.visibleSeries.flatMap Series.labels

/-- The percentages of a chart as they are written. -/
def Chart.entries (chart : Chart) : List String :=
  chart.visibleSeries.flatMap fun s => s.points.map Point.entry

namespace Chart

/-- Colours do not show in what is written. -/
theorem map_entry_colourAll (palette : Palette) (points : List Point) :
    (colourAll palette points).map Point.entry = points.map Point.entry :=
  map_zipWith_left (fun (p : Point) (c : Colour) => { p with colour := some c }) Point.entry
    (fun _ _ => rfl) _ _ (Palette.assign_length _ _).symm

/-- The points of a column are written as its text has them. -/
theorem map_entry_points {c : Column} (h : c.total = c.answered + c.unknown) :
    (knownPoints c .percentage ++ unknownPoints c .percentage).map Point.entry =
      Summary.sharesOf c := by
  have hknown : (knownPoints c .percentage).map Point.entry =
      c.categories.map fun a => Summary.shareOf a.name a.count c.total := by
    rw [knownPoints, ← h, List.map_map]
    rfl
  have hunknown : (unknownPoints c .percentage).map Point.entry =
      if c.unknown = 0 then [] else [Summary.shareOf unknownLabel c.unknown c.total] := by
    rw [unknownPoints, ← h]
    split <;> rfl
  rw [List.map_append, hknown, hunknown, Summary.sharesOf]

/-- The labels of the points of a column: its answers, and one more for the unknown ones. -/
theorem map_label_points (c : Column) (statistic : Statistic) :
    (knownPoints c statistic ++ unknownPoints c statistic).map (·.label) =
      c.categories.map (·.name) ++ if c.unknown = 0 then [] else [unknownLabel] := by
  rw [List.map_append, knownPoints, unknownPoints, List.map_map]
  congr 1
  split <;> rfl

theorem pointsOf_bar_nil (c : Column) (statistic : Statistic) :
    pointsOf c .bar statistic [] = knownPoints c statistic ++ unknownPoints c statistic :=
  arrange_nil _ _

end Chart

/-! ## What directives come to -/

theorem Column.columns_align_singleton (c : Column) : (align [c]).columns = [c] := rfl

/-- The chart that a request asks for over one column. -/
def Chart.ofColumn (c : Column) (r : ChartRequest) (s : Setting) : Chart where
  title := r.title
  kind := r.kind
  statistic := r.statistic
  categories := (single c r.kind r.statistic s).1
  series := (single c r.kind r.statistic s).2.1
  layout := .of r.kind r.statistic 1 r.fontSize
  warnings := (single c r.kind r.statistic s).2.2.toList

theorem Chart.assemble_align_singleton (c : Column) {r : ChartRequest}
    (hstat : r.statistic = .count ∨ r.statistic = .percentage) (s : Setting) :
    assemble (Column.align [c]) r s = .ok (ofColumn c r s) := by
  have hcharted : ¬ (r.statistic ≠ .count ∧ r.statistic ≠ .percentage) := by
    rintro ⟨hcount, hpercentage⟩
    exact hstat.elim hcount hpercentage
  have hcrowded : ¬ (r.kind = .pie ∧ 1 < (Column.align [c]).columns.length) := by
    simp [Column.length_align]
  unfold assemble
  dsimp only
  rw [if_neg hcharted, if_neg hcrowded]
  rfl

/-- A chart over one column has one series with the points of the column. -/
theorem Chart.exists_assemble_singleton (c : Column) {r : ChartRequest}
    (hstat : r.statistic = .count ∨ r.statistic = .percentage) (s : Setting) :
    ∃ chart, assemble (Column.align [c]) r s = .ok chart ∧
      chart.series =
        [⟨c.name, colourAll s.palette (pointsOf c r.kind r.statistic s.order), r.kind, true⟩] :=
  ⟨_, assemble_align_singleton c hstat s, rfl⟩

theorem Chart.assemble_singleton (c : Column) {r : ChartRequest}
    (hstat : r.statistic = .count ∨ r.statistic = .percentage) (s : Setting) :
    ∃ chart, assemble (Column.align [c]) r s = .ok chart ∧
      chart.visibleSeries =
        [⟨c.name, colourAll s.palette (pointsOf c r.kind r.statistic s.order), r.kind, true⟩] := by
  obtain ⟨chart, hchart, hseries⟩ := exists_assemble_singleton c hstat s
  exact ⟨chart, hchart, by rw [visibleSeries, hseries]; rfl⟩

namespace Directive

variable {columns : List Column} {c : Column}

theorem columnsOf_singleton {references : List String} {source : String}
    (h : Column.resolve columns references source = .ok [c]) :
    columnsOf columns references source = .ok (Column.align [c]) := by
  rw [columnsOf, h]
  rfl

/-- A text over one column is that of the column. -/
theorem outcome_text_singleton {q : TextRequest}
    (h : Column.resolve columns q.references q.source = .ok [c]) (s : Setting) :
    outcome columns s (.text q) = ((Summary.text [c] q.statistic q.source).map .text, s) := by
  have hcolumns := columnsOf_singleton h
  simp only [outcome, hcolumns]
  simp only [bind, Except.bind, pure, Except.pure, Column.columns_align_singleton, Setting.declare]
  cases Summary.text [c] q.statistic q.source <;> rfl

/-- A chart over one column is that of the column. -/
theorem outcome_chart_ofColumn {r : ChartRequest}
    (h : Column.resolve columns r.references r.source = .ok [c])
    (hstat : r.statistic = .count ∨ r.statistic = .percentage) (s : Setting) :
    outcome columns s (.chart r) = (.ok (.chart (.ofColumn c r s)), s) := by
  have hcolumns := columnsOf_singleton h
  have hchart := Chart.assemble_align_singleton c hstat s
  simp only [outcome, hcolumns]
  simp only [bind, Except.bind, hchart, pure, Except.pure, Setting.declare]

/-- A chart over one column has one series with the points of the column. -/
theorem outcome_chart_singleton {r : ChartRequest}
    (h : Column.resolve columns r.references r.source = .ok [c])
    (hstat : r.statistic = .count ∨ r.statistic = .percentage) (s : Setting) :
    ∃ chart, outcome columns s (.chart r) = (.ok (.chart chart), s) ∧
      chart.visibleSeries = [⟨c.name,
        Chart.colourAll s.palette (Chart.pointsOf c r.kind r.statistic s.order), r.kind, true⟩] :=
  ⟨_, outcome_chart_ofColumn h hstat s, rfl⟩

/-- **Texts and charts agree.** A text of percentages over one column that was counted, and a chart of
    percentages over it, have the same entries: each answer with its percentage, and one more entry
    exactly if there are empty cells. In a bar chart without an order they stand in the order of the
    text; a pie and an order move them, and lose and add none. -/
theorem outcome_percentages {t : Table} {position : Nat} (hc : t.columns[position]? = some c)
    {q : TextRequest} (hq : q.statistic = .percentage)
    (hqc : Column.resolve columns q.references q.source = .ok [c])
    {r : ChartRequest} (hr : r.statistic = .percentage)
    (hrc : Column.resolve columns r.references r.source = .ok [c]) (s u : Setting) :
    let labels := c.categories.map (·.name) ++ if "" ∈ t.cells position then [unknownLabel] else []
    ∃ entries chart,
      outcome columns s (.text q) = (.ok (.text (", ".intercalate entries)), s) ∧
      outcome columns u (.chart r) = (.ok (.chart chart), u) ∧
      chart.entries.Perm entries ∧ chart.labels.Perm labels ∧
      (r.kind = .bar → u.order = [] → chart.entries = entries ∧ chart.labels = labels) := by
  intro labels
  obtain ⟨chart, hchart, hvisible⟩ := outcome_chart_singleton hrc (.inr hr) u
  obtain ⟨header, -, hcolumn⟩ := Column.exists_eq_ofCells hc
  have htotal := Column.Aggregated.total_eq ⟨position, header, t.cells position, hcolumn⟩
  have hpoints := Chart.map_entry_points htotal
  have hlabels : (Chart.knownPoints c .percentage ++ Chart.unknownPoints c .percentage).map
      (·.label) = labels := by
    have hunknown : c.unknown = 0 ↔ "" ∉ t.cells position := by
      rw [hcolumn]
      exact List.count_eq_zero
    rw [Chart.map_label_points]
    by_cases hempty : "" ∈ t.cells position <;> simp [labels, hunknown, hempty]
  have hentries : chart.entries = (Chart.pointsOf c r.kind .percentage u.order).map Point.entry := by
    rw [Chart.entries, hvisible, hr]
    simp [Chart.map_entry_colourAll]
  have hlabelled : chart.labels = (Chart.pointsOf c r.kind .percentage u.order).map (·.label) := by
    rw [Chart.labels, hvisible, hr]
    simp [Series.labels, Chart.colourAll_labels]
  refine ⟨Summary.sharesOf c, chart, ?_, hchart, ?_, ?_, ?_⟩
  · rw [outcome_text_singleton hqc, hq, Summary.text_percentage]
    simp [Except.map, Summary.shares]
  · rw [hentries, ← hpoints]
    exact (Chart.pointsOf_perm _ _ _ _).map _
  · rw [hlabelled, ← hlabels]
    exact (Chart.pointsOf_perm _ _ _ _).map _
  · intro hbar horder
    rw [hentries, hlabelled, hbar, horder, Chart.pointsOf_bar_nil]
    exact ⟨hpoints, hlabels⟩

theorem outcome_percentages_pie :
    let t := Table.ofRows ["Tea"] [["yes"], [""], ["no"], ["yes"]]
    ∃ entries chart,
      outcome t.columns .initial (.text ⟨.percentage, ["Tea"], "text"⟩) =
        (.ok (.text (", ".intercalate entries)), .initial) ∧
      outcome t.columns ⟨.initial, ["yes"]⟩ (.chart ⟨.pie, .percentage, ["Tea"], 0, "", "pie"⟩) =
        (.ok (.chart chart), ⟨.initial, ["yes"]⟩) ∧
      chart.entries.Perm entries ∧ chart.labels.Perm ["no", "yes", "Unknown"] := by
  intro t
  have hc : t.columns[0]? = some (.ofCells 0 "Tea" ["yes", "", "no", "yes"]) := rfl
  have hresolve : ∀ source, Column.resolve t.columns ["Tea"] source =
      .ok [.ofCells 0 "Tea" ["yes", "", "no", "yes"]] := fun _ => rfl
  obtain ⟨entries, chart, htext, hchart, hentries, hlabels, -⟩ :=
    outcome_percentages hc (q := ⟨.percentage, ["Tea"], "text"⟩) rfl (hresolve "text")
      (r := ⟨.pie, .percentage, ["Tea"], 0, "", "pie"⟩) rfl (hresolve "pie") .initial
      ⟨.initial, ["yes"]⟩
  exact ⟨entries, chart, htext, hchart, hentries, hlabels⟩

end Directive

end SurveyReport
