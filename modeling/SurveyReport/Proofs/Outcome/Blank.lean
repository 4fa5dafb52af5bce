import SurveyReport.Proofs.Decimal.Sign
import SurveyReport.Proofs.Outcome.OneColumn
import SurveyReport.Proofs.Pass.Substitution

/-!
# Charts with nothing to show

A chart in its own size is drawn unless it has nothing to show. Only a chart over one column can have
nothing to show: bars or slices of counts where no row counts at all, or slices of percentages that are
all rounded to 0. Which charts these are does not depend on the setting.

Results:
* `forall_value_le_zero_iff`: when all slices of a column are empty.
* `of_assemble`, `sheet?_of_layout`: what an assembled chart is, and that its size gives a sheet.
* `refusal?_single`, `refusal?_grouped`: which assembled charts are not drawn.
* `refusal?_outcome`: which directives ask for them.
-/

namespace SurveyReport

/-! ## What is blank -/

/-- The numbers of a column: those of its answers, and that of the unknown ones. -/
def Column.numbers (c : Column) : List Nat := c.categories.map (·.count) ++ [c.unknown]

/-- A chart over the column has nothing to show: no row counts, or no percentage of a pie is above 0
    once it is rounded. -/
def Column.IsBlank (c : Column) (kind : ChartKind) (statistic : Statistic) : Prop :=
  if kind = .pie ∧ statistic = .percentage then
    ∀ n ∈ c.numbers, 0 < n → Summary.percent n c.total ≤ 0
  else c.total = 0

instance (c : Column) (kind : ChartKind) (statistic : Statistic) :
    Decidable (c.IsBlank kind statistic) := by
  unfold Column.IsBlank
  infer_instance

/-- The fault of a chart with nothing to show. -/
def ChartKind.blankFault : ChartKind → Fault
  | .bar => .noBars
  | .pie => .noShares

/-- Why the picture of a chart cannot be drawn. -/
def Gallery.refusal? (f : Frame) (c : Chart) : Option Fault :=
  match drawn f c with
  | .error fault => some fault
  | .ok _ => none

/-- The fault of the chart that a directive asks for, when it has nothing to show. -/
def Directive.refusal? (columns : List Column) : Directive → Option Fault
  | .chart r =>
    match Column.resolve columns r.references r.source with
    | .ok [c] =>
      if (r.statistic = .count ∨ r.statistic = .percentage) ∧ c.IsBlank r.kind r.statistic then
        some r.kind.blankFault
      else none
    | _ => none
  | _ => none

/-! ## Slices -/

namespace Column

theorem Aggregated.numbers_eq_zero_iff {c : Column} (h : c.Aggregated) :
    (∀ n ∈ c.numbers, n = 0) ↔ c.total = 0 := by
  have htotal : c.total = c.numbers.sum := by
    rw [h.total_eq, answered, countAll_eq_sum, numbers]
    simp
  rw [htotal, List.sum_eq_zero_iff]

end Column

namespace Chart

section Points

variable {c : Column} (h : c.Aggregated) {palette : Palette} {kind : ChartKind}
  {statistic : Statistic} {order : List String}
include h

/-- The points of a column stand for its numbers, apart from 0. -/
theorem forall_mem_points (P : Float → Prop) :
    (∀ p ∈ pointsOf c kind statistic order, P p.value) ↔
      ∀ n ∈ c.numbers, 0 < n → P (valueOf statistic n c.total) := by
  have hperm := pointsOf_perm c kind statistic order
  simp only [hperm.mem_iff, Column.numbers, List.forall_mem_append, knownPoints, unknownPoints,
    ← h.total_eq, List.forall_mem_map, List.mem_singleton, forall_eq]
  refine and_congr ?_ ?_
  · exact ⟨fun hall a ha _ => hall a ha, fun hall a ha => hall a ha (h.count_pos ha)⟩
  · split <;> simp_all [Nat.pos_iff_ne_zero]

theorem forall_mem_colourAll (P : Float → Prop) :
    (∀ p ∈ colourAll palette (pointsOf c kind statistic order), P p.value) ↔
      ∀ n ∈ c.numbers, 0 < n → P (valueOf statistic n c.total) := by
  have hdata := map_datum_colourAll palette (pointsOf c kind statistic order)
  have hvalues : (colourAll palette (pointsOf c kind statistic order)).map (·.value) =
      (pointsOf c kind statistic order).map (·.value) := by
    simpa [Point.datum, Function.comp_def] using congrArg (List.map Prod.snd) hdata
  rw [← forall_mem_points h, ← List.forall_mem_map (f := Point.value) (P := P), hvalues,
    List.forall_mem_map]

/-- A column gives no points just when no row counts. -/
theorem pointsOf_eq_nil_iff : pointsOf c kind statistic order = [] ↔ c.total = 0 := by
  rw [List.eq_nil_iff_forall_not_mem, ← h.numbers_eq_zero_iff]
  refine (forall_mem_points h fun _ => False).trans (forall₂_congr fun n _ => ?_)
  rw [imp_false, Nat.not_lt, Nat.le_zero]

theorem notNegative_of_mem_colourAll :
    ∀ p ∈ colourAll palette (pointsOf c kind statistic order), Decimal.NotNegative p.value :=
  (forall_mem_colourAll h _).mpr fun n _ _ => Decimal.notNegative_valueOf statistic n c.total

/-- The slices of a column are all empty just when a pie of them is blank. -/
theorem forall_value_le_zero_iff :
    (∀ p ∈ colourAll palette (pointsOf c kind statistic order), p.value ≤ 0) ↔
      c.IsBlank .pie statistic := by
  rw [forall_mem_colourAll h (· ≤ 0), Column.IsBlank]
  by_cases hpercentage : statistic = .percentage
  · simp [hpercentage, valueOf]
  · rw [if_neg (by simp [hpercentage]), ← h.numbers_eq_zero_iff]
    refine forall₂_congr fun n _ => ?_
    rw [valueOf, if_neg hpercentage, Summary.floatOf, Decimal.ofNat_le_zero_iff]
    omega

end Points

/-! ## Bars and slices -/

/-- Bars of a series are drawn as soon as there is a place. -/
theorem exists_drawBars {chart : Chart} (hseries : chart.series ≠ []) (sheet : Picture) :
    ∃ picture, chart.drawBars sheet =
      if chart.categories = [] then .error .noBars else .ok picture := by
  simp only [drawBars, List.isEmpty_iff, hseries, or_false]
  exact ⟨_, rfl⟩

/-- A pie of points without a minus sign is drawn as soon as one of them is above 0. -/
theorem exists_drawPie {chart : Chart} {s : Series} (hseries : chart.series = [s])
    (hs : ∀ p ∈ s.points, Decimal.NotNegative p.value) (sheet : Picture) :
    ∃ picture, chart.drawPie sheet =
      if ∀ p ∈ s.points, p.value ≤ 0 then .error .noShares else .ok picture := by
  have htotal : ∀ pie : Pie, pie.slices = s.points.map (fun p => (p.value, p.paint)) →
      (pie.total ≤ 0 ↔ ∀ p ∈ s.points, p.value ≤ 0) := by
    intro pie hslices
    have hvalues : pie.slices.map (·.1) = s.points.map (·.value) := by
      simp [hslices, Function.comp_def]
    rw [Pie.total, hvalues, Decimal.foldl_add_le_zero_iff (List.forall_mem_map.mpr hs),
      List.forall_mem_map]
  simp only [drawPie, hseries]
  exact ⟨_, if_congr (htotal _ rfl) rfl rfl⟩

/-! ## What is assembled -/

/-- An assembled chart is one over one column, or it has bars for several columns. -/
theorem of_assemble {aligned : Aligned} {r : ChartRequest} {s : Setting} {chart : Chart}
    (h : assemble aligned r s = .ok chart) :
    (r.statistic = .count ∨ r.statistic = .percentage) ∧ chart.kind = r.kind ∧
      chart.layout = .of r.kind r.statistic aligned.columns.length r.fontSize ∧
      ((∃ c, aligned.columns = [c] ∧
          chart.categories = (single c r.kind r.statistic s).1 ∧
          chart.series = (single c r.kind r.statistic s).2.1) ∨
        (1 < aligned.columns.length ∧ r.kind = .bar ∧
          chart.categories = (grouped aligned r.kind r.statistic s).1 ∧
          chart.series = (grouped aligned r.kind r.statistic s).2.1)) := by
  unfold assemble at h
  dsimp only at h
  split_ifs at h with hcharted hcrowded
  have hstat : r.statistic = .count ∨ r.statistic = .percentage := by
    by_contra hne
    exact hcharted (not_or.mp hne)
  split at h
  · cases h
  · rename_i c hone
    cases h
    exact ⟨hstat, rfl, rfl, .inl ⟨c, hone, rfl, rfl⟩⟩
  · rename_i hnil hone
    have hseveral : 1 < aligned.columns.length := by
      match hcolumns : aligned.columns with
      | [] => exact absurd hcolumns hnil
      | [c] => exact absurd hcolumns (hone c)
      | _ :: _ :: _ => simp
    have hbar : r.kind = .bar := by
      cases hkind : r.kind with
      | bar => rfl
      | pie => exact absurd ⟨hkind, hseveral⟩ hcrowded
    cases h
    exact ⟨hstat, rfl, rfl, .inr ⟨hseveral, hbar, rfl, rfl⟩⟩

/-- The size of every layout is one of three, and has pixels. -/
theorem sheet?_of_layout (kind : ChartKind) (statistic : Statistic) (columns fontSize : Nat) :
    ∃ sheet, Picture.sheet? (Layout.of kind statistic columns fontSize).width
      (Layout.of kind statistic columns fontSize).height = .ok sheet := by
  have hsheet : ∀ {width height : Nat}, width ∈ [720, 1000, 1200] → height ∈ [400, 560, 600] →
      ∃ sheet, Picture.sheet? width height = .ok sheet := by
    intro width height hwidth hheight
    simp only [List.mem_cons, List.not_mem_nil, or_false] at hwidth hheight
    have hbytes : width * height * 3 ≤ 1200 * 600 * 3 :=
      Nat.mul_le_mul_right 3 (Nat.mul_le_mul (by omega) (by omega))
    have hcountable : ¬ UInt64.size ≤ width * height * 3 := by
      rw [UInt64.size]
      omega
    rw [Picture.sheet?, if_neg (by omega), if_neg hcountable]
    exact ⟨_, rfl⟩
  cases kind with
  | pie => exact hsheet (by simp [Layout.of]) (by simp [Layout.of])
  | bar =>
    unfold Layout.of
    dsimp only
    split <;> exact hsheet (by simp) (by simp)

end Chart

/-! ## What is drawn -/

namespace Gallery

variable {f : Frame} {aligned : Aligned} {r : ChartRequest} {s : Setting} {chart : Chart}

/-- In its own size, only the bars or the slices of a chart can be refused. -/
theorem exists_drawn (hf : f.size = none) (h : Chart.assemble aligned r s = .ok chart) :
    ∃ sheet, (r.kind = .bar → drawn f chart = chart.drawBars sheet) ∧
      (r.kind = .pie → drawn f chart = chart.drawPie sheet) := by
  obtain ⟨-, hkind, hlayout, -⟩ := Chart.of_assemble h
  obtain ⟨sheet, hsheet⟩ :=
    Chart.sheet?_of_layout r.kind r.statistic aligned.columns.length r.fontSize
  rw [← hlayout] at hsheet
  refine ⟨sheet, fun hbar => ?_, fun hpie => ?_⟩
  · rw [hbar] at hkind
    simp [drawn, hf, Chart.draw, hsheet, hkind, bind, Except.bind]
  · rw [hpie] at hkind
    simp [drawn, hf, Chart.draw, hsheet, hkind, bind, Except.bind]

/-- A chart over several columns has a place for each of them. -/
theorem refusal?_grouped (hf : f.size = none) (h : Chart.assemble aligned r s = .ok chart)
    (hseveral : 1 < aligned.columns.length) : refusal? f chart = none := by
  obtain ⟨sheet, hdrawn⟩ := exists_drawn hf h
  obtain ⟨-, -, -, ⟨c, hone, -⟩ | ⟨-, hbar, hcategories, hseries⟩⟩ := Chart.of_assemble h
  · simp [hone] at hseveral
  · have hplaces : chart.categories ≠ [] := by
      rw [hcategories, Chart.grouped]
      intro hnil
      simp [List.map_eq_nil_iff.mp hnil] at hseveral
    have hnonempty : chart.series ≠ [] := by
      rw [hseries, Chart.grouped]
      simp [Chart.spaced]
    obtain ⟨picture, hbars⟩ := Chart.exists_drawBars hnonempty sheet
    simp [refusal?, hdrawn.1 hbar, hbars, hplaces]

/-- A chart over one column is drawn just when the column is not blank. -/
theorem refusal?_single (hf : f.size = none) {c : Column} (hc : c.Aggregated)
    (h : Chart.assemble (Column.align [c]) r s = .ok chart) :
    refusal? f chart = if c.IsBlank r.kind r.statistic then some r.kind.blankFault else none := by
  obtain ⟨sheet, hdrawn⟩ := exists_drawn hf h
  obtain ⟨-, -, -, ⟨d, hone, hcategories, hseries⟩ | ⟨hseveral, -⟩⟩ := Chart.of_assemble h
  · obtain rfl : c = d := by simpa [Column.columns_align_singleton] using hone
    cases hkind : r.kind with
    | bar =>
      have hblank : chart.categories = [] ↔ c.IsBlank .bar r.statistic := by
        rw [hcategories, Chart.single, List.map_eq_nil_iff]
        exact Chart.pointsOf_eq_nil_iff hc
      have hnonempty : chart.series ≠ [] := by simp [hseries, Chart.single]
      obtain ⟨picture, hbars⟩ := Chart.exists_drawBars hnonempty sheet
      simp only [refusal?, hdrawn.1 hkind, hbars, hblank]
      split_ifs <;> rfl
    | pie =>
      obtain ⟨picture, hpie⟩ :=
        Chart.exists_drawPie hseries (Chart.notNegative_of_mem_colourAll hc) sheet
      simp only [refusal?, hdrawn.2 hkind, hpie, Chart.forall_value_le_zero_iff hc]
      split_ifs <;> rfl
  · simp [Column.length_align] at hseveral

end Gallery

/-! ## What is asked for -/

/-- Whether a directive asks for a chart that is not drawn depends on the columns alone, not on the
    setting. -/
theorem Directive.refusal?_outcome {columns : List Column} (haggregated : ∀ c ∈ columns, c.Aggregated)
    {f : Frame} (hf : f.size = none) (s : Setting) (d : Directive) :
    (Result.chart? (outcome columns s d).1).bind (Gallery.refusal? f) = d.refusal? columns := by
  cases d with
  | palette colours => rfl
  | order names => rfl
  | invalid cause source => rfl
  | text r =>
    simp only [outcome, bind, Except.bind, pure, Except.pure, refusal?]
    repeat' split
    all_goals rfl
  | chart r =>
    simp only [outcome, columnsOf, refusal?]
    cases hused : Column.resolve columns r.references r.source with
    | error failure => rfl
    | ok used =>
      simp only [Except.map, bind, Except.bind, pure, Except.pure]
      obtain ⟨c, others, rfl⟩ := List.exists_cons_of_ne_nil (Column.resolve_ne_nil hused)
      cases others with
      | nil =>
        have hc := haggregated c (Column.mem_of_resolve hused c (by simp))
        by_cases hstat : r.statistic = .count ∨ r.statistic = .percentage
        · obtain ⟨chart, hchart, -⟩ := Chart.assemble_singleton c hstat s
          simp [hchart, Gallery.refusal?_single hf hc hchart, hstat]
        · cases hchart : Chart.assemble (Column.align [c]) r s with
          | error failure => simp [hstat]
          | ok chart => exact absurd (Chart.of_assemble hchart).1 hstat
      | cons d others =>
        cases hchart : Chart.assemble (Column.align (c :: d :: others)) r s with
        | error failure => rfl
        | ok chart => exact Gallery.refusal?_grouped hf hchart (by simp [Column.length_align])

end SurveyReport
