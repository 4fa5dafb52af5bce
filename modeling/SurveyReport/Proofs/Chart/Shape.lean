import SurveyReport.Proofs.Chart.Data
import SurveyReport.Proofs.Column.Alignment

/-!
# The shape of a chart

A chart can be drawn because each of its series has a value for each place along the axis. Over
several columns the series that are seen stand between spacers, which hold nothing, and over one
column there is one series without spacers. Colours are given in turn to what is seen, in the order in
which it stands.

Results:
* `map_visible_spaced`: where the spacers stand.
* `getElem?_paintAll`, `getElem?_colourAll`: the colour by the place.
* `assemble_wellShaped`: the shape of every chart that is assembled.
-/

namespace SurveyReport

/-! ## Colours in turn -/

namespace Palette

theorem getElem?_colours (p : Palette) (index : Nat) :
    p.colours[index % p.size]? = some (p.colourAt index) := by
  have hlt : index % p.size < p.colours.length := Nat.mod_lt _ p.size_pos
  rw [List.getElem?_eq_getElem hlt]
  rfl

theorem getElem?_assign (p : Palette) {count index : Nat} (h : index < count) :
    (p.assign count)[index]? = some (p.colourAt index) := by
  simp [assign, h]

end Palette

namespace Chart

theorem getElem?_zipWith_assign {α β : Type} (f : α → Colour → β) (palette : Palette)
    (items : List α) (index : Nat) :
    (List.zipWith f items (palette.assign items.length))[index]? =
      items[index]?.map fun item => f item (palette.colourAt index) := by
  rw [List.getElem?_zipWith]
  by_cases h : index < items.length
  · simp [List.getElem?_eq_getElem h, Palette.getElem?_assign palette h]
  · simp [List.getElem?_eq_none (Nat.le_of_not_lt h)]

theorem getElem?_paintAll (palette : Palette) (series : List Series) (index : Nat) :
    (paintAll palette series)[index]? = series[index]?.map (·.paint (palette.colourAt index)) :=
  getElem?_zipWith_assign Series.paint palette series index

theorem getElem?_colourAll (palette : Palette) (points : List Point) (index : Nat) :
    (colourAll palette points)[index]? =
      points[index]?.map fun p => { p with colour := some (palette.colourAt index) } := by
  unfold colourAll
  exact getElem?_zipWith_assign _ palette points index

theorem length_paintAll (palette : Palette) (series : List Series) :
    (paintAll palette series).length = series.length := by
  simp [paintAll, Palette.assign_length]

theorem length_colourAll (palette : Palette) (points : List Point) :
    (colourAll palette points).length = points.length := by
  simp [colourAll, Palette.assign_length]

/-! ## Spacers -/

section Spacers

variable (categories : List String) (kind : ChartKind)

theorem labels_spacer (suffix : String) : (spacer categories kind suffix).labels = categories := by
  simp [spacer, Series.labels, Function.comp_def]

theorem eq_or_spacer_of_mem_separated {series : List Series} {s : Series}
    (h : s ∈ separated categories kind series) :
    s ∈ series ∨ ∃ suffix, s = spacer categories kind suffix := by
  cases series with
  | nil => contradiction
  | cons first rest =>
    simp only [separated, behindSpacers, List.mem_cons, List.mem_flatMap, List.not_mem_nil,
      or_false] at h
    rcases h with rfl | ⟨t, ht, rfl | rfl⟩
    · exact .inl (by simp)
    · exact .inr ⟨_, rfl⟩
    · exact .inl (by simp [ht])

/-- What stands in a chart with spacers is what was put into it, or a spacer. -/
theorem eq_or_spacer_of_mem_spaced {series : List Series} {s : Series}
    (h : s ∈ spaced categories kind series) :
    s ∈ series ∨ ∃ suffix, s = spacer categories kind suffix := by
  simp only [spaced, List.mem_append, List.mem_cons, List.not_mem_nil, or_false] at h
  rcases h with ((rfl | rfl) | h) | (rfl | rfl)
  · exact .inr ⟨_, rfl⟩
  · exact .inr ⟨_, rfl⟩
  · exact eq_or_spacer_of_mem_separated categories kind h
  · exact .inr ⟨_, rfl⟩
  · exact .inr ⟨_, rfl⟩

theorem map_visible_separated {series : List Series} (h : ∀ s ∈ series, s.visible) :
    (separated categories kind series).map (·.visible) =
      (List.replicate series.length true).intersperse false := by
  cases series with
  | nil => rfl
  | cons first rest =>
    induction rest generalizing first with
    | nil => simp [separated, behindSpacers, h first]
    | cons second rest ih =>
      have hrest := ih second fun s hs => h s (by simp [hs])
      have hcons : separated categories kind (first :: second :: rest) =
          first :: spacer categories kind second.name ::
            separated categories kind (second :: rest) := rfl
      rw [hcons, List.map_cons, List.map_cons, hrest, h first (by simp)]
      rfl

/-- Two spacers stand at each end, and one between each two series. -/
theorem map_visible_spaced {series : List Series} (h : ∀ s ∈ series, s.visible) :
    (spaced categories kind series).map (·.visible) =
      [false, false] ++ (List.replicate series.length true).intersperse false ++
        [false, false] := by
  rw [spaced, List.map_append, List.map_append, map_visible_separated categories kind h]
  rfl

end Spacers

/-! ## Shapes -/

/-- The shape of a chart over a number of columns with a reference, in the colours of a palette. Every
    series has a value at each place. Of several columns there is a visible series for each answer of
    the reference, with two spacers at each end and one between each two; spacers have the value 0 and
    no colour, and the visible series have the colours in turn. Of one column there is one series with
    a point for each answer and one for the unknown ones, and the points have the colours in turn. A
    warning tells when the colours are not enough. -/
structure WellShaped (chart : Chart) (columns : Nat) (reference : Column) (palette : Palette) :
    Prop where
  labels : ∀ s ∈ chart.series, s.labels = chart.categories
  spacers : ∀ s ∈ chart.series, s.visible = false → ∀ p ∈ s.points, p.value = 0 ∧ p.colour = none
  several : 1 < columns →
    chart.visibleSeries.length = reference.categories.length ∧
    chart.series.map (·.visible) = [false, false] ++
      (List.replicate chart.visibleSeries.length true).intersperse false ++ [false, false] ∧
    (∀ j s, chart.visibleSeries[j]? = some s →
      ∀ p ∈ s.points, p.colour = palette.colours[j % palette.size]?) ∧
    chart.warnings = if palette.size < chart.visibleSeries.length then
      [.paletteInsufficient chart.visibleSeries.length palette.size] else []
  one : columns ≤ 1 → ∃ s, chart.series = [s] ∧ s.visible = true ∧
    s.points.length = reference.categories.length + (if reference.unknown = 0 then 0 else 1) ∧
    (∀ j p, s.points[j]? = some p → p.colour = palette.colours[j % palette.size]?) ∧
    chart.warnings = if palette.size < s.points.length then
      [.paletteInsufficient s.points.length palette.size] else []

theorem toList_warning? (palette : Palette) (count : Nat) :
    (palette.warning? count).toList =
      if palette.size < count then [.paletteInsufficient count palette.size] else [] := by
  unfold Palette.warning?
  split <;> rfl

section Grouped

variable (aligned : Aligned) (kind : ChartKind) (statistic : Statistic) (s : Setting)

/-- What stands in a chart over several columns is a spacer or the painted series of an answer. -/
theorem mem_grouped {t : Series} (h : t ∈ (grouped aligned kind statistic s).2.1) :
    (∃ answer colour, t = (answerSeries statistic kind aligned.columns answer).paint colour) ∨
      ∃ suffix, t = spacer (aligned.columns.map (·.name)) kind suffix := by
  rcases eq_or_spacer_of_mem_spaced _ _ h with h | h
  · obtain ⟨i, hi⟩ := List.getElem?_of_mem h
    rw [getElem?_paintAll, Option.map_eq_some_iff] at hi
    obtain ⟨u, hu, rfl⟩ := hi
    have hmem := (arrange_perm _ _ _).mem_iff.mp (List.mem_of_getElem? hu)
    obtain ⟨answer, -, rfl⟩ := List.mem_map.mp hmem
    exact .inl ⟨answer, _, rfl⟩
  · exact .inr h

theorem labels_grouped : ∀ t ∈ (grouped aligned kind statistic s).2.1,
    t.labels = (grouped aligned kind statistic s).1 := by
  intro t ht
  rcases mem_grouped aligned kind statistic s ht with ⟨answer, colour, rfl⟩ | ⟨suffix, rfl⟩
  · rw [Series.labels_paint]
    simp [answerSeries, Series.labels, grouped, Function.comp_def]
  · exact labels_spacer _ _ _

theorem spacers_grouped : ∀ t ∈ (grouped aligned kind statistic s).2.1, t.visible = false →
    ∀ p ∈ t.points, p.value = 0 ∧ p.colour = none := by
  intro t ht hvisible p hp
  rcases mem_grouped aligned kind statistic s ht with ⟨answer, colour, rfl⟩ | ⟨suffix, rfl⟩
  · exact absurd hvisible (by simp [answerSeries])
  · obtain ⟨category, -, rfl⟩ := List.mem_map.mp hp
    exact ⟨rfl, rfl⟩

theorem map_visible_grouped : (grouped aligned kind statistic s).2.1.map (·.visible) =
    [false, false] ++
      (List.replicate (answersOf aligned kind statistic).length true).intersperse false ++
      [false, false] := by
  have hvisible : ∀ t ∈ arrange s.order (·.name) (answersOf aligned kind statistic), t.visible := by
    refine visible_of_mem_arrange fun t ht => ?_
    obtain ⟨answer, -, rfl⟩ := List.mem_map.mp ht
    rfl
  have hlength := (arrange_perm s.order (·.name) (answersOf aligned kind statistic)).length_eq
  rw [← hlength, ← length_paintAll s.palette]
  exact map_visible_spaced _ _ (visible_of_mem_paintAll hvisible)

/-- The visible series have the colours of the palette in turn. -/
theorem colours_grouped : ∀ j t,
    ((grouped aligned kind statistic s).2.1.filter (·.visible))[j]? = some t →
      ∀ p ∈ t.points, p.colour = s.palette.colours[j % s.palette.size]? := by
  intro j t ht p hp
  rw [visible_grouped, getElem?_paintAll, Option.map_eq_some_iff] at ht
  obtain ⟨u, -, rfl⟩ := ht
  obtain ⟨q, -, rfl⟩ := List.mem_map.mp hp
  rw [Palette.getElem?_colours]

theorem length_visible_grouped :
    ((grouped aligned kind statistic s).2.1.filter (·.visible)).length =
      (answersOf aligned kind statistic).length := by
  rw [visible_grouped, length_paintAll, (arrange_perm _ _ _).length_eq]

end Grouped

/-! ## All charts -/

theorem length_pointsOf (c : Column) (kind : ChartKind) (statistic : Statistic)
    (order : List String) : (pointsOf c kind statistic order).length =
      c.categories.length + (if c.unknown = 0 then 0 else 1) := by
  rw [(pointsOf_perm c kind statistic order).length_eq, List.length_append, knownPoints,
    unknownPoints, List.length_map]
  split <;> rfl

theorem wellShaped_single (c : Column) (kind : ChartKind) (statistic : Statistic) (s : Setting)
    {chart : Chart} {columns : Nat} (hcolumns : columns ≤ 1)
    (hcategories : chart.categories = (single c kind statistic s).1)
    (hseries : chart.series = (single c kind statistic s).2.1)
    (hwarnings : chart.warnings = (single c kind statistic s).2.2.toList) :
    chart.WellShaped columns c s.palette where
  labels := by
    rw [hseries, hcategories]
    simp [single, Series.labels, colourAll_labels]
  spacers := by
    rw [hseries]
    simp [single]
  several htwo := absurd htwo (by omega)
  one _ := by
    refine ⟨_, hseries, rfl, ?_, fun j p hp => ?_, ?_⟩
    · exact (length_colourAll _ _).trans (length_pointsOf _ _ _ _)
    · rw [getElem?_colourAll, Option.map_eq_some_iff] at hp
      obtain ⟨q, -, rfl⟩ := hp
      rw [Palette.getElem?_colours]
    · rw [hwarnings, length_colourAll]
      exact toList_warning? _ _

theorem wellShaped_grouped {aligned : Aligned} (kind : ChartKind) (statistic : Statistic)
    (s : Setting) {chart : Chart} {columns : Nat} (hcolumns : 1 < columns) {reference : Column}
    (hreference : aligned.columns[aligned.reference]? = some reference)
    (hcategories : chart.categories = (grouped aligned kind statistic s).1)
    (hseries : chart.series = (grouped aligned kind statistic s).2.1)
    (hwarnings : chart.warnings = (grouped aligned kind statistic s).2.2.toList) :
    chart.WellShaped columns reference s.palette where
  labels := by
    rw [hseries, hcategories]
    exact labels_grouped aligned kind statistic s
  spacers := by
    rw [hseries]
    exact spacers_grouped aligned kind statistic s
  several _ := by
    have hvisible : chart.visibleSeries.length = (answersOf aligned kind statistic).length := by
      rw [visibleSeries, hseries, length_visible_grouped]
    refine ⟨?_, ?_, ?_, ?_⟩
    · simp [hvisible, answersOf, hreference]
    · rw [hvisible, hseries, map_visible_grouped]
    · rw [visibleSeries, hseries]
      exact colours_grouped aligned kind statistic s
    · have hlength : (answersOf aligned kind statistic).length =
          (arrange s.order (·.name) (answersOf aligned kind statistic)).length :=
        (arrange_perm _ _ _).length_eq.symm
      rw [hvisible, hlength, hwarnings]
      exact toList_warning? _ _
  one hone := absurd hone (by omega)

/-- **Every chart is well shaped.** Whatever chart a request comes to over aligned columns, in
    whatever setting, has the shape of a chart over so many columns. -/
theorem assemble_wellShaped {columns : List Column} (hne : columns ≠ []) {r : ChartRequest}
    {s : Setting} {chart : Chart} (h : assemble (Column.align columns) r s = .ok chart) :
    ∃ reference, Column.IsReference columns reference ∧
      chart.WellShaped columns.length reference s.palette := by
  obtain ⟨reference, hindex, hreference⟩ := Column.reference_align hne
  refine ⟨reference, hreference, ?_⟩
  rw [← Column.length_align columns]
  generalize Column.align columns = aligned at h hindex
  unfold assemble at h
  dsimp only at h
  split_ifs at h
  split at h
  · cases h
  · rename_i c hc
    cases h
    obtain rfl : c = reference := by
      rw [hc] at hindex
      exact (List.mem_singleton.mp (List.mem_of_getElem? hindex)).symm
    exact wellShaped_single c _ _ s (by simp [hc]) rfl rfl rfl
  · rename_i hnil hone
    cases h
    have htwo : 1 < aligned.columns.length := by
      match hcolumns : aligned.columns with
      | [] => exact absurd hcolumns hnil
      | [c] => exact absurd hcolumns (hone c)
      | _ :: _ :: _ => simp
    exact wellShaped_grouped _ _ s htwo hindex rfl rfl rfl

theorem assemble_wellShaped_drinks :
    let tea : Column := ⟨"Tea", "A", [⟨"no", 1⟩, ⟨"yes", 1⟩], 2, 0⟩
    let coffee : Column := ⟨"Coffee", "B", [⟨"late", 2⟩, ⟨"yes", 1⟩], 4, 1⟩
    let s : Setting := ⟨⟨[Colour.pureBlue], by simp⟩, ["yes"]⟩
    ∃ chart, assemble (Column.align [tea, coffee]) ⟨.bar, .count, ["A", "B"], 0, "Drinks", ""⟩ s =
        .ok chart ∧
      (∀ t ∈ chart.series, t.labels = chart.categories) ∧
      chart.series.map (·.visible) = [false, false, true, false, true, false, false] ∧
      chart.warnings = [.paletteInsufficient 2 1] := by
  intro tea coffee s
  have hne : [tea, coffee] ≠ [] := by simp
  obtain ⟨chart, hchart⟩ : ∃ chart, assemble (Column.align [tea, coffee])
      ⟨.bar, .count, ["A", "B"], 0, "Drinks", ""⟩ s = .ok chart := ⟨_, rfl⟩
  obtain ⟨reference, ⟨before, behind, hcolumns, -, -⟩, hshape⟩ := assemble_wellShaped hne hchart
  have htwo : reference.categories.length = 2 := by
    have hmem : reference ∈ [tea, coffee] := by simp [hcolumns]
    simp only [List.mem_cons, List.not_mem_nil, or_false] at hmem
    rcases hmem with rfl | rfl <;> rfl
  obtain ⟨hvisible, hseries, -, hwarnings⟩ := hshape.several (by simp)
  rw [hvisible, htwo] at hseries hwarnings
  exact ⟨chart, hchart, hshape.labels, hseries, hwarnings⟩

end Chart

end SurveyReport
