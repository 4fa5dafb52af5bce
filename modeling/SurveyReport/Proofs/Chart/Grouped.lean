import Mathlib.Algebra.BigOperators.Ring.Finset
import SurveyReport.Outcome
import SurveyReport.Proofs.Chart.Data
import SurveyReport.Proofs.Column.Alignment
import SurveyReport.Proofs.Decimal.Whole

/-!
# The numbers of a chart over several columns

A chart over several columns shows the numbers of the columns as they were before they were aligned:
a place for each column, and a visible series for each answer of the reference. Of the answers of a
column, just those are missing that the reference does not have.

Results:
* `shows_assemble`: the places and the series of the chart, in terms of the columns.
* `totals_of_shows`: what the values at one place come to.
* `outcome_grouped`: the chart that a directive comes to.
-/

namespace SurveyReport

namespace Chart

/-! ## What a chart shows -/

/-- The chart shows the numbers of some columns: each column has its place, and each answer of the
    reference has a visible series with its numbers at these places. -/
structure Shows (chart : Chart) (statistic : Statistic) (used : List Column) (reference : Column) :
    Prop where
  isReference : Column.IsReference used reference
  places : chart.categories = used.map (·.name)
  series : (chart.visibleSeries.map Series.data).Perm (reference.categories.map fun a =>
    (a.name, used.map fun c => (c.name, valueOf statistic (c.countOf a.name) c.answered)))

/-- The visible values at a place of a chart. -/
def valuesAt (chart : Chart) (place : Nat) : List Float :=
  chart.visibleSeries.filterMap fun s => s.points[place]?.map (·.value)

/-- The answers of a column that the reference does not have. -/
def lacking (reference c : Column) : List Category :=
  c.categories.filter fun a => a.name ∉ reference.categories.map (·.name)

/-- The visible values at the place of a column come to its rows with an answer, apart from the
    answers that the reference does not have. -/
structure Totals (chart : Chart) (reference c : Column) (place : Nat) : Prop where
  sum : ((chart.valuesAt place).map Decimal.rational).sum =
    c.answered - Column.countAll (lacking reference c)
  complete : ((chart.valuesAt place).map Decimal.rational).sum = c.answered ↔
    ∀ a ∈ c.categories, a.name ∈ reference.categories.map (·.name)

/-! ## The series -/

/-- The series of an answer shows the numbers that the columns had before they were aligned. -/
theorem data_answerSeries {used : List Column}
    (hnodup : ∀ c ∈ used, (c.categories.map (·.name)).Nodup) (statistic : Statistic)
    (kind : ChartKind) (answer : String) :
    (answerSeries statistic kind (Column.align used).columns answer).data =
      (answer, used.map fun c => (c.name, valueOf statistic (c.countOf answer) c.answered)) := by
  have hpoints := Column.map_align
    (fun c => (c.name, valueOf statistic (c.countOf answer) c.answered)) hnodup ?_
  · rw [← hpoints]
    simp [answerSeries, Series.data, Point.datum, Function.comp_def]
  · intro c hc names hnames
    have hcount : Column.countOf { c with categories := Column.alignCategories names c.categories }
        answer = c.countOf answer :=
      Column.countIn_alignCategories hnames (hnodup c hc) answer
    have hanswered : Column.answered
        { c with categories := Column.alignCategories names c.categories } = c.answered :=
      Column.countAll_alignCategories hnames (hnodup c hc)
    rw [hcount, hanswered]

theorem shows_assemble {used : List Column}
    (hnodup : ∀ c ∈ used, (c.categories.map (·.name)).Nodup) (htwo : 2 ≤ used.length)
    {r : ChartRequest} (hkind : r.kind = .bar)
    (hstat : r.statistic = .count ∨ r.statistic = .percentage) (s : Setting) :
    ∃ chart reference, assemble (Column.align used) r s = .ok chart ∧
      chart.Shows r.statistic used reference := by
  have hlength := Column.length_align used
  have hne : used ≠ [] := by
    rintro rfl
    simp at htwo
  obtain ⟨reference, hindex, hreference⟩ := Column.reference_align hne
  have hnames : (Column.align used).columns.map (·.name) = used.map (·.name) :=
    Column.map_align (·.name) hnodup fun _ _ _ _ => rfl
  unfold assemble
  dsimp only
  rw [if_neg (by rcases hstat with h | h <;> simp [h]), if_neg (by simp [hkind])]
  split
  · rename_i h
    simp [h] at hlength
    omega
  · rename_i h
    simp [h] at hlength
    omega
  · refine ⟨_, reference, rfl, hreference, hnames, ?_⟩
    refine (visible_grouped_perm _ _ _ _).trans (List.Perm.of_eq ?_)
    rw [answersOf, hindex]
    simp [data_answerSeries hnodup, Function.comp_def]

/-! ## The values at one place -/

/-- The values at a place are those of the answers of the reference. -/
theorem valuesAt_perm {chart : Chart} {statistic : Statistic} {used : List Column}
    {reference : Column} (h : chart.Shows statistic used reference) {place : Nat} {c : Column}
    (hplace : used[place]? = some c) :
    (chart.valuesAt place).Perm
      (reference.categories.map fun a => valueOf statistic (c.countOf a.name) c.answered) := by
  have hdata : ∀ s : Series, s.points[place]?.map (·.value) = s.data.2[place]?.map (·.2) := by
    intro s
    simp [Series.data, Point.datum, Function.comp_def]
  have hperm := h.series.filterMap fun d => d.2[place]?.map (·.2)
  rw [List.filterMap_map, List.filterMap_map] at hperm
  simpa [valuesAt, hdata, Function.comp_def, hplace] using hperm

/-- The values of counts are the counts. -/
theorem rational_valueOf {c : Column} (hnodup : (c.categories.map (·.name)).Nodup)
    (hsmall : ∀ a ∈ c.categories, a.count < 2 ^ 53) (answer : String) :
    Decimal.rational (valueOf .count (c.countOf answer) c.answered) = c.countOf answer := by
  have hcount : c.countOf answer < 2 ^ 53 := by
    by_cases hmem : answer ∈ c.categories.map (·.name)
    · obtain ⟨a, ha, rfl⟩ := List.mem_map.mp hmem
      exact (Column.countIn_of_mem hnodup ha).trans_lt (hsmall a ha)
    · exact (Column.countIn_eq_zero hmem).trans_lt (by decide)
  exact Decimal.rational_ofNat hcount

theorem totals_of_shows {chart : Chart} {used : List Column} {reference : Column}
    (h : chart.Shows .count used reference) (haggregated : ∀ c ∈ used, c.Aggregated) {place : Nat}
    {c : Column} (hplace : used[place]? = some c) (hsmall : ∀ a ∈ c.categories, a.count < 2 ^ 53) :
    chart.Totals reference c place := by
  have hc := haggregated c (List.mem_of_getElem? hplace)
  have hreference : reference ∈ used := by
    obtain ⟨before, behind, hused, -, -⟩ := h.isReference
    simp [hused]
  have hvalues : ((chart.valuesAt place).map Decimal.rational).sum =
      (((reference.categories.map (·.name)).map (Column.countIn c.categories)).sum : ℕ) := by
    rw [((valuesAt_perm h hplace).map _).sum_eq, Nat.cast_list_sum, List.map_map, List.map_map,
      List.map_map]
    exact congrArg List.sum (List.map_congr_left fun a _ => rational_valueOf hc.nodup hsmall a.name)
  have hall : _ + Column.countAll (lacking reference c) = c.answered :=
    Column.sum_countIn (haggregated reference hreference).nodup hc.nodup
  have hlacking : Column.countAll (lacking reference c) = 0 ↔
      ∀ a ∈ c.categories, a.name ∈ reference.categories.map (·.name) := by
    have hpos : ∀ a ∈ lacking reference c, 0 < a.count :=
      fun a ha => hc.count_pos (List.mem_of_mem_filter ha)
    rw [Column.countAll_eq_zero_iff hpos, lacking, List.filter_eq_nil_iff]
    simp
  refine ⟨?_, ?_⟩
  · rw [hvalues, ← hall]
    simp
  · rw [hvalues, ← hlacking, ← hall, Nat.cast_inj]
    omega

end Chart

/-! ## Directives -/

/-- **A chart shows the numbers of the survey.** A bar chart of counts or percentages over several
    columns has a place for each column in the order of the references, and a visible series for each
    answer of the first column with the most answers. Its values are worked out of the numbers of the
    columns as they were counted. As far as counts are exact floats, they come to the rows with an
    answer, apart from the answers that the reference does not have. -/
theorem Directive.outcome_grouped {columns : List Column} (haggregated : ∀ c ∈ columns, c.Aggregated)
    {r : ChartRequest} (hkind : r.kind = .bar)
    (hstat : r.statistic = .count ∨ r.statistic = .percentage) {used : List Column}
    (hused : Column.resolve columns r.references r.source = .ok used) (htwo : 2 ≤ used.length)
    (s : Setting) :
    ∃ chart reference, (Directive.chart r).outcome columns s = (.ok (.chart chart), s) ∧
      chart.Shows r.statistic used reference ∧
      (r.statistic = .count → ∀ place c, used[place]? = some c →
        (∀ a ∈ c.categories, a.count < 2 ^ 53) → chart.Totals reference c place) := by
  have hall : ∀ c ∈ used, c.Aggregated := fun c hc => haggregated c (Column.mem_of_resolve hused c hc)
  obtain ⟨chart, reference, hchart, hshows⟩ :=
    Chart.shows_assemble (fun c hc => (hall c hc).nodup) htwo hkind hstat s
  refine ⟨chart, reference, ?_, hshows, fun hcount place c hplace hsmall => ?_⟩
  · have hcolumns : columnsOf columns r.references r.source = .ok (Column.align used) := by
      rw [columnsOf, hused]
      rfl
    simp only [outcome, hcolumns]
    simp [bind, Except.bind, hchart, pure, Except.pure, Setting.declare]
  · rw [hcount] at hshows
    exact Chart.totals_of_shows hshows hall hplace hsmall

theorem Directive.outcome_grouped_two_columns :
    ∃ chart reference,
      (Directive.chart ⟨.bar, .count, ["Tea", "Coffee"], 0, "", "drinks"⟩).outcome
          [Column.ofCells 0 "Tea" ["no", "yes"], Column.ofCells 1 "Coffee" ["yes", "late", "late"]]
          .initial = (.ok (.chart chart), .initial) ∧
        chart.Shows .count
          [Column.ofCells 0 "Tea" ["no", "yes"], Column.ofCells 1 "Coffee" ["yes", "late", "late"]]
          reference ∧
        chart.Totals reference (Column.ofCells 1 "Coffee" ["yes", "late", "late"]) 1 := by
  have haggregated : ∀ c ∈ [Column.ofCells 0 "Tea" ["no", "yes"],
      Column.ofCells 1 "Coffee" ["yes", "late", "late"]], c.Aggregated := by
    simp only [List.mem_cons, List.not_mem_nil, or_false]
    rintro c (rfl | rfl) <;> exact ⟨_, _, _, rfl⟩
  obtain ⟨chart, reference, hchart, hshows, htotals⟩ :=
    Directive.outcome_grouped haggregated
      (r := ⟨.bar, .count, ["Tea", "Coffee"], 0, "", "drinks"⟩) rfl (.inl rfl) rfl (by decide)
      .initial
  exact ⟨chart, reference, hchart, hshows, htotals rfl 1 _ rfl (by decide)⟩

end SurveyReport
