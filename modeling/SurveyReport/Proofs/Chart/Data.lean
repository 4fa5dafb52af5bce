import Mathlib.Data.List.Sort
import SurveyReport.Chart.Assembly

/-!
# The data of a chart

The data of a series are its labels and values, without the colours. Arranging, painting and spacing
move and decorate the data of a chart and change none of them.

Results:
* `orderKey_injective`: floats of one place in the order are one float.
* `filter_visible_spaced`: the visible series of a chart with spacers are those put into it.
* `visible_grouped_perm`, `pointsOf_perm`: the data of both kinds of charts, up to their order.
* `values_pie_eq`: the sizes of the slices of a pie, in their order, depend on the sizes only.
-/

namespace SurveyReport

/-! ## The order of floats -/

theorem Decimal.toBits_injective : Function.Injective Float.toBits := by
  intro x y h
  cases x with
  | ofModel x =>
    cases y with
    | ofModel y =>
      have hb : x.toBits = y.toBits := h
      cases x
      cases y
      cases hb
      rfl

theorem Decimal.orderKey_injective : Function.Injective orderKey := by
  intro x y h
  apply toBits_injective
  apply UInt64.toNat_inj.mp
  simp only [orderKey] at h
  split_ifs at h <;> omega

/-! ## Points and series -/

/-- What a point shows: its label and its value. -/
def Point.datum (p : Point) : String × Float := (p.label, p.value)

/-- What a series shows: its name, and the labels and values of its points. -/
def Series.data (s : Series) : String × List (String × Float) := (s.name, s.points.map Point.datum)

@[simp] theorem Series.data_paint (s : Series) (c : Colour) : (s.paint c).data = s.data := by
  simp [data, paint, Point.datum, Function.comp_def]

@[simp] theorem Series.visible_paint (s : Series) (c : Colour) : (s.paint c).visible = s.visible :=
  rfl

namespace Chart

theorem map_zipWith_left {α β γ : Type} (f : α → β → α) (g : α → γ) (hg : ∀ a b, g (f a b) = g a)
    (as : List α) (bs : List β) (h : as.length = bs.length) :
    (List.zipWith f as bs).map g = as.map g := by
  induction as generalizing bs with
  | nil => simp
  | cons a as ih =>
    cases bs with
    | nil => simp at h
    | cons b bs => simp [hg, ih bs (Nat.succ.inj h)]

theorem map_data_paintAll (palette : Palette) (series : List Series) :
    (paintAll palette series).map Series.data = series.map Series.data :=
  map_zipWith_left _ _ Series.data_paint _ _ (Palette.assign_length _ _).symm

theorem map_datum_colourAll (palette : Palette) (points : List Point) :
    (colourAll palette points).map Point.datum = points.map Point.datum :=
  map_zipWith_left (fun (p : Point) (c : Colour) => { p with colour := some c }) Point.datum
    (fun _ _ => rfl) _ _ (Palette.assign_length _ _).symm

theorem visible_of_mem_paintAll {palette : Palette} {series : List Series}
    (h : ∀ s ∈ series, s.visible) : ∀ s ∈ paintAll palette series, s.visible := by
  intro s hs
  have hmap : (paintAll palette series).map (·.visible) = series.map (·.visible) :=
    map_zipWith_left _ _ Series.visible_paint _ _ (Palette.assign_length _ _).symm
  obtain ⟨t, ht, hv⟩ := List.mem_map.mp (hmap ▸ List.mem_map_of_mem hs)
  exact hv ▸ h t ht

/-! ## Spacers -/

theorem filter_visible_behindSpacers (categories : List String) (kind : ChartKind)
    {series : List Series} (h : ∀ s ∈ series, s.visible) :
    (behindSpacers categories kind series).filter (·.visible) = series := by
  induction series with
  | nil => rfl
  | cons s rest ih =>
    have hs := h s (by simp)
    have hrest := ih fun t ht => h t (by simp [ht])
    simp only [behindSpacers, List.flatMap_cons, List.filter_append] at hrest ⊢
    rw [hrest]
    simp [spacer, hs]

theorem filter_visible_spaced (categories : List String) (kind : ChartKind) {series : List Series}
    (h : ∀ s ∈ series, s.visible) :
    (spaced categories kind series).filter (·.visible) = series := by
  cases series with
  | nil => simp [spaced, separated, spacer]
  | cons s rest =>
    have hs := h s (by simp)
    have hvisible : ∀ t ∈ rest, t.visible := fun t ht => h t (by simp [ht])
    have hrest := filter_visible_behindSpacers categories kind hvisible
    simp [spaced, separated, spacer, hs, hrest]

/-! ## Several columns -/

/-- The series of a chart over several columns before they are arranged. -/
def answersOf (aligned : Aligned) (kind : ChartKind) (statistic : Statistic) : List Series :=
  (((aligned.columns[aligned.reference]?.map (·.categories)).getD []).map (·.name)).map
    (answerSeries statistic kind aligned.columns)

theorem visible_of_mem_arrange {order : List String} {series : List Series}
    (h : ∀ s ∈ series, s.visible) : ∀ s ∈ arrange order (·.name) series, s.visible :=
  fun s hs => h s ((arrange_perm order (·.name) series).mem_iff.mp hs)

/-- The visible series are the answers, arranged by the order and painted. -/
theorem visible_grouped (aligned : Aligned) (kind : ChartKind) (statistic : Statistic) (s : Setting) :
    (grouped aligned kind statistic s).2.1.filter (·.visible) =
      paintAll s.palette (arrange s.order (·.name) (answersOf aligned kind statistic)) := by
  refine filter_visible_spaced _ _ (visible_of_mem_paintAll (visible_of_mem_arrange ?_))
  intro t ht
  obtain ⟨answer, -, rfl⟩ := List.mem_map.mp ht
  rfl

theorem visible_grouped_perm (aligned : Aligned) (kind : ChartKind) (statistic : Statistic)
    (s : Setting) :
    (((grouped aligned kind statistic s).2.1.filter (·.visible)).map Series.data).Perm
      ((answersOf aligned kind statistic).map Series.data) := by
  rw [visible_grouped, map_data_paintAll]
  exact (arrange_perm _ _ _).map _

/-! ## One column -/

theorem pointsOf_perm (c : Column) (kind : ChartKind) (statistic : Statistic) (order : List String) :
    (pointsOf c kind statistic order).Perm (knownPoints c statistic ++ unknownPoints c statistic) := by
  cases kind with
  | bar => exact arrange_perm _ _ _
  | pie => exact (List.mergeSort_perm _ _).trans ((arrange_perm _ _ _).append_right _)

theorem pairwise_orderKey_pie (c : Column) (statistic : Statistic) (order : List String) :
    ((pointsOf c .pie statistic order).map fun p => Decimal.orderKey p.value).Pairwise (· ≥ ·) := by
  rw [List.pairwise_map]
  refine (@List.pairwise_mergeSort Point
    (fun a b => decide (Decimal.orderKey b.value ≤ Decimal.orderKey a.value)) ?_ ?_ _).imp ?_
  · intro a b d hab hbd
    simp only [decide_eq_true_eq] at hab hbd ⊢
    omega
  · intro a b
    simp only [Bool.or_eq_true, decide_eq_true_eq]
    omega
  · intro a b hab
    simpa using hab

/-- A sorted list is determined by its items, and the items by their keys. -/
theorem values_pie_eq (c : Column) (statistic : Statistic) (order order' : List String) :
    (pointsOf c .pie statistic order).map (·.value) =
      (pointsOf c .pie statistic order').map (·.value) := by
  have hperm : (pointsOf c .pie statistic order).Perm (pointsOf c .pie statistic order') :=
    (pointsOf_perm _ _ _ _).trans (pointsOf_perm _ _ _ _).symm
  have hkeys := (hperm.map fun p => Decimal.orderKey p.value).eq_of_pairwise'
    (pairwise_orderKey_pie c statistic order) (pairwise_orderKey_pie c statistic order')
  apply List.map_injective_iff.mpr Decimal.orderKey_injective
  rw [List.map_map, List.map_map]
  exact hkeys

end Chart

end SurveyReport
