import SurveyReport.Outcome
import SurveyReport.Proofs.Chart.Data

/-!
# The setting changes no data

A palette and an order decide how the data of a chart are arranged and coloured, and nothing else. In
any two settings a directive comes to the same text, to the same failure, or to two charts of the same
data.

Results:
* `assemble_sameData`: two charts of one request over the same columns.
* `outcomeOf_sameData`: the same for every written directive.
-/

namespace SurveyReport

/-- Charts over a number of columns that show the same data. Over several columns the places are the
    same and the visible series the same up to their order; over one column there is one series, with
    the same points up to their order, and the slices of a pie have the same sizes one by one. -/
structure Chart.SameData (columns : Nat) (c d : Chart) : Prop where
  title : c.title = d.title
  kind : c.kind = d.kind
  statistic : c.statistic = d.statistic
  layout : c.layout = d.layout
  several : 1 < columns → c.categories = d.categories ∧
    (c.visibleSeries.map Series.data).Perm (d.visibleSeries.map Series.data)
  one : columns ≤ 1 → ∃ s t, c.visibleSeries = [s] ∧ d.visibleSeries = [t] ∧ s.name = t.name ∧
    (s.points.map Point.datum).Perm (t.points.map Point.datum) ∧
    (c.kind = .pie → s.points.map (·.value) = t.points.map (·.value))

/-- Results of one kind: equal failures, equal texts, two declarations, or charts of the same data. -/
inductive Outcome.SameData (columns : Nat) :
    Except Failure Outcome → Except Failure Outcome → Prop
  | failure (f : Failure) : SameData columns (.error f) (.error f)
  | text (t : String) : SameData columns (.ok (.text t)) (.ok (.text t))
  | declaration : SameData columns (.ok .declaration) (.ok .declaration)
  | chart {c d : Chart} (h : c.SameData columns d) :
    SameData columns (.ok (.chart c)) (.ok (.chart d))

/-- How many columns the references of a directive name. -/
def Directive.columnsNamed (columns : List Column) : Directive → Nat
  | .chart r => (r.references.filterMap (Column.find? columns)).length
  | .text r => (r.references.filterMap (Column.find? columns)).length
  | _ => 0

/-! ## Charts -/

namespace Chart

theorem map_value_colourAll (palette : Palette) (points : List Point) :
    (colourAll palette points).map (·.value) = points.map (·.value) := by
  have h := congrArg (List.map Prod.snd) (map_datum_colourAll palette points)
  simpa [Point.datum, Function.comp_def] using h

theorem single_sameData (c : Column) (kind : ChartKind) (statistic : Statistic) (s t : Setting) :
    ∃ u v : Series, (single c kind statistic s).2.1.filter (·.visible) = [u] ∧
      (single c kind statistic t).2.1.filter (·.visible) = [v] ∧ u.name = v.name ∧
      (u.points.map Point.datum).Perm (v.points.map Point.datum) ∧
      (kind = .pie → u.points.map (·.value) = v.points.map (·.value)) := by
  refine ⟨_, _, rfl, rfl, rfl, ?_, ?_⟩
  · dsimp only
    rw [map_datum_colourAll, map_datum_colourAll]
    exact ((pointsOf_perm _ _ _ _).trans (pointsOf_perm _ _ _ _).symm).map _
  · rintro rfl
    dsimp only
    rw [map_value_colourAll, map_value_colourAll]
    exact values_pie_eq _ _ _ _

theorem grouped_sameData (aligned : Aligned) (kind : ChartKind) (statistic : Statistic)
    (s t : Setting) :
    (((grouped aligned kind statistic s).2.1.filter (·.visible)).map Series.data).Perm
      (((grouped aligned kind statistic t).2.1.filter (·.visible)).map Series.data) :=
  (visible_grouped_perm _ _ _ _).trans (visible_grouped_perm _ _ _ _).symm

theorem assemble_sameData (aligned : Aligned) (r : ChartRequest) (s t : Setting) :
    Outcome.SameData aligned.columns.length ((assemble aligned r s).map Outcome.chart)
      ((assemble aligned r t).map Outcome.chart) := by
  unfold assemble
  dsimp only
  split_ifs with hstat hpie
  · exact .failure _
  · exact .failure _
  · split
    · exact .failure _
    · rename_i c hc
      refine .chart ⟨rfl, rfl, rfl, rfl, fun h => ?_, fun _ => single_sameData c _ _ s t⟩
      simp [hc] at h
    · rename_i hnil hone
      refine .chart ⟨rfl, rfl, rfl, rfl, fun _ => ⟨rfl, grouped_sameData _ _ _ s t⟩, fun h => ?_⟩
      -- a list of one item at most is one of the cases before
      match hcs : aligned.columns, h with
      | [], _ => exact absurd hcs hnil
      | [c], _ => exact absurd hcs (hone c)
      | _ :: _ :: _, h => simp at h

end Chart

/-! ## Directives -/

namespace Directive

theorem length_columnsOf {columns : List Column} {references : List String} {source : String}
    {aligned : Aligned} (h : columnsOf columns references source = .ok aligned) :
    aligned.columns.length = (references.filterMap (Column.find? columns)).length := by
  unfold columnsOf Column.resolve at h
  split at h
  · cases h
  · cases h
    exact Column.length_align _

theorem outcome_sameData (columns : List Column) (s t : Setting) (d : Directive) :
    Outcome.SameData (d.columnsNamed columns) (outcome columns s d).1 (outcome columns t d).1 := by
  cases d with
  | invalid cause source => exact .failure _
  | palette colours => exact .declaration
  | order names => exact .declaration
  | text r =>
    simp only [outcome]
    cases columnsOf columns r.references r.source with
    | error f => exact .failure f
    | ok aligned =>
      cases ht : Summary.text aligned.columns r.statistic r.source with
      | error f => simpa [bind, Except.bind, ht] using .failure f
      | ok text => simpa [bind, Except.bind, ht, pure, Except.pure] using .text text
  | chart r =>
    simp only [outcome]
    cases h : columnsOf columns r.references r.source with
    | error f => exact .failure f
    | ok aligned =>
      have hsame := Chart.assemble_sameData aligned r s t
      rw [length_columnsOf h] at hsame
      exact hsame

end Directive

/-- **The setting changes no data.** In any two settings a written directive comes to results of one
    kind with the same data. -/
theorem outcomeOf_sameData (columns : List Column) (raw : String) (s t : Setting) :
    Outcome.SameData ((Directive.ofMarked raw).columnsNamed columns) (outcomeOf columns s raw).1
      (outcomeOf columns t raw).1 :=
  Directive.outcome_sameData columns s t (Directive.ofMarked raw)

end SurveyReport
