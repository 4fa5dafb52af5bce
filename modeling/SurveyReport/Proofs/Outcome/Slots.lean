import SurveyReport.Proofs.Outcome.OneColumn
import SurveyReport.Proofs.Table.Answers

/-!
# The places of a chart over one column

A chart over one column has a place for each answer, and if there are empty cells, one more for these
under a fixed label. An answer may be this label as well, and then two places have it. No other label
is there twice, in whatever order the places stand.

Results:
* `categories_ofColumn_perm`: the places of a chart, up to their order.
* `outcome_slots`: how many places have a label, and when no two of them have the same.
-/

namespace SurveyReport

variable {t : Table} {position : Nat} {c : Column}

/-! ## Empty cells -/

/-- Some row has an empty cell at a position. -/
def Table.HasBlank (t : Table) (position : Nat) : Prop := ∃ row ∈ t.rows, row[position]? = some ""

instance (t : Table) (position : Nat) : Decidable (t.HasBlank position) :=
  inferInstanceAs (Decidable (∃ row ∈ t.rows, row[position]? = some ""))

theorem Table.unknown_eq_zero_iff (hc : t.columns[position]? = some c) :
    c.unknown = 0 ↔ ¬ t.HasBlank position := by
  obtain ⟨header, hheader, rfl⟩ := Column.exists_eq_ofCells hc
  rw [HasBlank, ← mem_cells (List.getElem?_eq_some_iff.mp hheader).1]
  exact List.count_eq_zero

/-! ## Labels -/

/-- The places are those of the answers, and one more for the unknown ones. -/
theorem Chart.categories_ofColumn_perm (c : Column) (r : ChartRequest) (s : Setting) :
    (ofColumn c r s).categories.Perm
      (c.categories.map (·.name) ++ if c.unknown = 0 then [] else [unknownLabel]) := by
  rw [← map_label_points c r.statistic]
  exact (pointsOf_perm _ _ _ _).map _

theorem Table.count_name_categories (hc : t.columns[position]? = some c) (label : String) :
    (c.categories.map (·.name)).count label = if t.IsAnswer position label then 1 else 0 := by
  have hnodup := (Column.aggregated_of_mem_columns t c (List.mem_of_getElem? hc)).nodup
  have hmem : label ∈ c.categories.map (·.name) ↔ t.IsAnswer position label := by
    rw [List.mem_map, isAnswer_iff hc]
  simp only [hnodup.count, hmem]

/-- Each answer has one place, and the empty cells have one under their label. -/
theorem Table.count_categories_ofColumn (hc : t.columns[position]? = some c) (r : ChartRequest)
    (s : Setting) (label : String) :
    (Chart.ofColumn c r s).categories.count label =
      (if t.IsAnswer position label then 1 else 0) +
        if t.HasBlank position ∧ label = unknownLabel then 1 else 0 := by
  have hblank := unknown_eq_zero_iff hc
  rw [(Chart.categories_ofColumn_perm c r s).count_eq, List.count_append, count_name_categories hc]
  by_cases hunknown : c.unknown = 0
  · simp [hunknown, hblank.mp hunknown]
  · have hsome : t.HasBlank position := Classical.not_not.mp fun hnone => hunknown (hblank.mpr hnone)
    by_cases hlabel : label = unknownLabel
    · simp [hunknown, hsome, hlabel]
    · simp [hunknown, hlabel, List.count_cons_of_ne (Ne.symm hlabel)]

/-- **Places of a chart.** A chart over one column that was counted has one place for each answer, and
    one more under the label of unknown answers just when there are empty cells. So no two places have
    one label, and a name in an order is that of one place at most, unless the label is an answer and
    there are empty cells. Then two places have it. -/
theorem Directive.outcome_slots (hc : t.columns[position]? = some c) {r : ChartRequest}
    (hrc : Column.resolve t.columns r.references r.source = .ok [c])
    (hstat : r.statistic = .count ∨ r.statistic = .percentage) (s : Setting) :
    ∃ chart, outcome t.columns s (.chart r) = (.ok (.chart chart), s) ∧
      (∀ label, chart.categories.count label =
        (if t.IsAnswer position label then 1 else 0) +
          if t.HasBlank position ∧ label = unknownLabel then 1 else 0) ∧
      (chart.categories.Nodup ↔ ¬ (t.IsAnswer position unknownLabel ∧ t.HasBlank position)) := by
  have hcount := Table.count_categories_ofColumn hc r s
  refine ⟨_, outcome_chart_ofColumn hrc hstat s, hcount, ?_⟩
  rw [List.nodup_iff_count_le_one]
  constructor
  · rintro hone ⟨hanswer, hblank⟩
    have htwo := hone unknownLabel
    rw [hcount] at htwo
    simp [hanswer, hblank] at htwo
  · intro hapart label
    rw [hcount]
    split_ifs with hanswer hblank
    · obtain ⟨hblank, rfl⟩ := hblank
      exact absurd ⟨hanswer, hblank⟩ hapart
    all_goals omega

/-- A pie over a column with the answer "Unknown" and an empty cell: the two have one label, and the
    other answer has its own. -/
theorem Directive.outcome_slots_unknown :
    let t := Table.ofRows ["Tea"] [["Unknown"], [""], ["yes"]]
    ∃ chart, outcome t.columns ⟨.initial, ["yes"]⟩ (.chart ⟨.pie, .percentage, ["Tea"], 0, "", "pie"⟩) =
        (.ok (.chart chart), ⟨.initial, ["yes"]⟩) ∧
      chart.categories.count "Unknown" = 2 ∧ chart.categories.count "yes" = 1 ∧
      ¬ chart.categories.Nodup := by
  intro t
  have hc : t.columns[0]? = some (.ofCells 0 "Tea" ["Unknown", "", "yes"]) := rfl
  obtain ⟨chart, hchart, hcount, hnodup⟩ := outcome_slots hc
    (r := ⟨.pie, .percentage, ["Tea"], 0, "", "pie"⟩) rfl (.inr rfl) ⟨.initial, ["yes"]⟩
  refine ⟨chart, hchart, ?_, ?_, ?_⟩
  · rw [hcount]
    decide
  · rw [hcount]
    decide
  · rw [hnodup]
    decide

/-- An answer has the label of the unknown answers, and the chart has it twice. -/
theorem Directive.outcome_label_twice :
    ∃ t chart, Table.ofCsv "Tea\n\nUnknown\n\nyes\n" = .ok t ∧
      outcomeOf t.columns .initial "bar;count;Tea;Cups" = (.ok (.chart chart), .initial) ∧
      chart.categories = ["Unknown", "yes", "Unknown"] ∧ ¬ chart.categories.Nodup := by
  have hok : (Table.ofCsv "Tea\n\nUnknown\n\nyes\n").toOption.map (fun t => (t.headers, t.rows)) =
      some (["Tea"], [["Unknown"], [""], ["yes"]]) := by decide
  obtain ⟨⟨headers, rows, width⟩, ht, rfl, rfl⟩ := Table.exists_ofCsv_eq hok
  have hread : ofMarked "bar;count;Tea;Cups" =
      .chart ⟨.bar, .count, ["Tea"], 0, "Cups", "bar;count;Tea;Cups"⟩ := by decide
  have hresolve : Column.resolve (Table.mk ["Tea"] [["Unknown"], [""], ["yes"]] width).columns
      ["Tea"] "bar;count;Tea;Cups" = .ok [.ofCells 0 "Tea" ["Unknown", "", "yes"]] := rfl
  have houtcome := outcome_chart_ofColumn
    (r := ⟨.bar, .count, ["Tea"], 0, "Cups", "bar;count;Tea;Cups"⟩) hresolve (.inl rfl) .initial
  refine ⟨_, _, ht, by rw [outcomeOf, hread]; exact houtcome, ?_⟩
  have hlabels : (Chart.ofColumn (.ofCells 0 "Tea" ["Unknown", "", "yes"])
      ⟨.bar, .count, ["Tea"], 0, "Cups", "bar;count;Tea;Cups"⟩ .initial).categories =
      ["Unknown", "yes", "Unknown"] := by
    have hpoints := Chart.map_label_points (.ofCells 0 "Tea" ["Unknown", "", "yes"]) .count
    rw [← Chart.pointsOf_bar_nil] at hpoints
    exact hpoints
  rw [hlabels]
  decide

end SurveyReport
