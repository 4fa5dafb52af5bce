import SurveyReport.Proofs.Chart.Arrange
import SurveyReport.Proofs.Decimal.Order
import SurveyReport.Proofs.Outcome.OneColumn

/-!
# The slices of a pie

A pie has one slice for each answer, and one more for the unknown answers if there are any. The answers
are arranged by the order first; then the unknown ones are put behind them and all are sorted by their
values. As sorting keeps the sequence of what is equal, the order decides between equal slices only.
Answers that were given differently often can be equal: percentages are rounded.

Results:
* `arrange_map`: arranging looks at nothing but the names.
* `filter_mergeSort_key`, `pair_sublist_mergeSort_iff`: sorting by keys keeps the sequence of equal keys.
* `map_datum_pie`: the slices of a pie, before and after they are sorted.
* `assemble_pie`: what a pie shows, and in which sequence.
-/

namespace SurveyReport

/-! ## Arranging -/

section Arranging

variable {α β : Type} (order : List String) (key : β → String) (f : α → β)

theorem moveToPlace_map (items : Array α) (i : Nat) :
    moveToPlace order key (items.map f) i = (moveToPlace order (key ∘ f) items i).map f := by
  have hplace : (items.map f)[i]?.bind (fun item => order.findIdx? (· == key item)) =
      items[i]?.bind fun item => order.findIdx? (· == (key ∘ f) item) := by
    rw [Array.getElem?_map, Option.bind_map]
    rfl
  rw [moveToPlace, moveToPlace, hplace]
  cases items[i]?.bind fun item => order.findIdx? (· == (key ∘ f) item) with
  | none => rfl
  | some place =>
    refine Array.ext (by simp) fun p hp _ => ?_
    grind

/-- Arranging looks at nothing but the names. -/
theorem arrange_map (items : List α) :
    arrange order key (items.map f) = (arrange order (key ∘ f) items).map f := by
  have hvisits (positions : List Nat) (items : Array α) :
      positions.foldl (moveToPlace order key) (items.map f) =
        (positions.foldl (moveToPlace order (key ∘ f)) items).map f := by
    induction positions generalizing items with
    | nil => rfl
    | cons i positions ih => rw [List.foldl_cons, List.foldl_cons, moveToPlace_map, ih]
  rw [arrange, arrange, List.length_map, ← List.map_toArray, hvisits, Array.toList_map]

end Arranging

/-! ## Sorting by keys -/

section Sorting

variable {α : Type} (key : α → Int) (items : List α)

/-- Sorting by keys, the greatest first, keeps the sequence of the items of each key. -/
theorem filter_mergeSort_key (k : Int) :
    (items.mergeSort fun a b => key b ≤ key a).filter (key · = k) = items.filter (key · = k) := by
  have hsub : (items.filter (key · = k)).Sublist (items.mergeSort fun a b => key b ≤ key a) := by
    refine List.sublist_mergeSort ?_ ?_ ?_ List.filter_sublist
    · intro a b c hab hbc
      simp only [decide_eq_true_eq] at hab hbc ⊢
      omega
    · intro a b
      simp only [Bool.or_eq_true, decide_eq_true_eq]
      omega
    · refine List.pairwise_of_forall_mem_list fun a ha b hb => ?_
      simp only [List.mem_filter, decide_eq_true_eq] at ha hb ⊢
      omega
  have hfiltered := hsub.filter (key · = k)
  simp only [List.filter_filter, Bool.and_self] at hfiltered
  refine (hfiltered.eq_of_length ?_).symm
  exact ((List.mergeSort_perm _ _).filter _).length_eq.symm

theorem pair_sublist_mergeSort_iff {a b : α} (h : key a = key b) :
    [a, b].Sublist (items.mergeSort fun a b => key b ≤ key a) ↔ [a, b].Sublist items := by
  have hpair (l : List α) : [a, b].Sublist l ↔ [a, b].Sublist (l.filter (key · = key b)) := by
    refine ⟨fun hl => ?_, fun hl => hl.trans List.filter_sublist⟩
    simpa [h] using hl.filter (key · = key b)
  rw [hpair, filter_mergeSort_key, ← hpair]

end Sorting

/-! ## Slices -/

namespace Chart

variable (c : Column) (statistic : Statistic) (order : List String)

/-- The slice of an answer: its name and its value. -/
def slice (a : Category) : String × Float :=
  (a.name, valueOf statistic a.count (c.answered + c.unknown))

/-- The slice of the unknown answers, if there are any. -/
def unknownSlices : List (String × Float) :=
  if c.unknown = 0 then []
  else [(unknownLabel, valueOf statistic c.unknown (c.answered + c.unknown))]

/-- The slices as the order arranges them, the unknown answers behind the others. -/
def arrangedSlices : List (String × Float) :=
  (arrange order (·.name) c.categories).map (slice c statistic) ++ unknownSlices c statistic

/-- The slices of a pie are sorted by their values. -/
theorem map_datum_pie :
    (pointsOf c .pie statistic order).map Point.datum =
      (arrangedSlices c statistic order).mergeSort fun p q =>
        Decimal.orderKey q.2 ≤ Decimal.orderKey p.2 := by
  have hknown : (arrange order (·.label) (knownPoints c statistic)).map Point.datum =
      (arrange order (·.name) c.categories).map (slice c statistic) := by
    rw [knownPoints, arrange_map, List.map_map]
    rfl
  have hunknown : (unknownPoints c statistic).map Point.datum = unknownSlices c statistic := by
    rw [unknownPoints, unknownSlices]
    split <;> rfl
  rw [arrangedSlices, ← hknown, ← hunknown, ← List.map_append]
  exact List.map_mergeSort fun _ _ _ _ => rfl

theorem arrangedSlices_perm :
    (arrangedSlices c statistic order).Perm
      (c.categories.map (slice c statistic) ++ unknownSlices c statistic) :=
  ((arrange_perm order (·.name) c.categories).map _).append_right _

theorem notNegative_of_mem_arrangedSlices {p : String × Float}
    (hp : p ∈ arrangedSlices c statistic order) : Decimal.NotNegative p.2 := by
  rcases List.mem_append.mp hp with hp | hp
  · obtain ⟨a, -, rfl⟩ := List.mem_map.mp hp
    exact Decimal.notNegative_valueOf statistic _ _
  · unfold unknownSlices at hp
    split_ifs at hp with hzero
    · contradiction
    · rw [List.mem_singleton.mp hp]
      exact Decimal.notNegative_valueOf statistic _ _

/-! ## The sequence of the slices -/

theorem pie_perm :
    ((pointsOf c .pie statistic order).map Point.datum).Perm (arrangedSlices c statistic order) := by
  rw [map_datum_pie]
  exact List.mergeSort_perm _ _

theorem notNegative_of_mem_pie {p : String × Float}
    (hp : p ∈ (pointsOf c .pie statistic order).map Point.datum) : Decimal.NotNegative p.2 :=
  notNegative_of_mem_arrangedSlices c statistic order
    ((pie_perm c statistic order).mem_iff.mp hp)

/-- No slice is followed by a greater one. -/
theorem pairwise_pie :
    ((pointsOf c .pie statistic order).map Point.datum).Pairwise fun p q => ¬ p.2 < q.2 := by
  have hkeys : ((pointsOf c .pie statistic order).map Point.datum).Pairwise fun p q =>
      Decimal.orderKey q.2 ≤ Decimal.orderKey p.2 :=
    List.pairwise_map.mpr (List.pairwise_map.mp (pairwise_orderKey_pie c statistic order))
  refine hkeys.imp_of_mem fun hp hq hle hlt => ?_
  have hless := Decimal.NotNegative.orderKey_lt (notNegative_of_mem_pie c statistic order hp)
    (notNegative_of_mem_pie c statistic order hq) hlt
  omega

variable {c statistic order}

/-- Equal slices stand as the order arranges them. -/
theorem pair_sublist_pie_iff {p q : String × Float} (h : (p.2 == q.2) = true) :
    [p, q].Sublist ((pointsOf c .pie statistic order).map Point.datum) ↔
      [p, q].Sublist (arrangedSlices c statistic order) := by
  have hsame (hp : p ∈ arrangedSlices c statistic order)
      (hq : q ∈ arrangedSlices c statistic order) :
      Decimal.orderKey p.2 = Decimal.orderKey q.2 := by
    rw [Decimal.NotNegative.eq_of_beq (notNegative_of_mem_arrangedSlices c statistic order hp)
      (notNegative_of_mem_arrangedSlices c statistic order hq) h]
  have hmem {l : List (String × Float)} (hl : [p, q].Sublist l) : p ∈ l ∧ q ∈ l :=
    ⟨hl.subset (by simp), hl.subset (by simp)⟩
  rw [map_datum_pie]
  constructor
  · intro hl
    obtain ⟨hp, hq⟩ := hmem hl
    exact (pair_sublist_mergeSort_iff (fun p => Decimal.orderKey p.2) _
      (hsame (List.mem_mergeSort.mp hp) (List.mem_mergeSort.mp hq))).mp hl
  · intro hl
    obtain ⟨hp, hq⟩ := hmem hl
    exact (pair_sublist_mergeSort_iff (fun p => Decimal.orderKey p.2) _ (hsame hp hq)).mpr hl

/-- The slice of the unknown answers stands behind all that are equal to it. -/
theorem pair_sublist_arrangedSlices {p u : String × Float}
    (hp : p ∈ c.categories.map (slice c statistic)) (hu : u ∈ unknownSlices c statistic) :
    [p, u].Sublist (arrangedSlices c statistic order) := by
  obtain ⟨a, ha, rfl⟩ := List.mem_map.mp hp
  have hknown : slice c statistic a ∈
      (arrange order (·.name) c.categories).map (slice c statistic) :=
    List.mem_map_of_mem ((arrange_perm order (·.name) c.categories).mem_iff.mpr ha)
  exact (List.singleton_sublist.mpr hknown).append (List.singleton_sublist.mpr hu)

/-- The order changes no value at any place. -/
theorem map_value_pie (order' : List String) :
    ((pointsOf c .pie statistic order').map Point.datum).map (·.2) =
      ((pointsOf c .pie statistic order).map Point.datum).map (·.2) := by
  rw [List.map_map, List.map_map]
  exact values_pie_eq c statistic order' order

/-- A slice that no other one is equal to stands at the same place with any order. -/
theorem getElem?_pie_of_unique (order' : List String) {i : Nat} {p : String × Float}
    (hp : ((pointsOf c .pie statistic order).map Point.datum)[i]? = some p)
    (hunique : ∀ q ∈ (pointsOf c .pie statistic order).map Point.datum, q.2 = p.2 → q = p) :
    ((pointsOf c .pie statistic order').map Point.datum)[i]? = some p := by
  have hperm : ((pointsOf c .pie statistic order').map Point.datum).Perm
      ((pointsOf c .pie statistic order).map Point.datum) :=
    ((pointsOf_perm c .pie statistic order').trans (pointsOf_perm c .pie statistic order).symm).map _
  have hvalue := congrArg (fun l : List Float => l[i]?) (@map_value_pie c statistic order order')
  simp only [List.getElem?_map (f := Prod.snd), hp, Option.map_some] at hvalue
  obtain ⟨q, hq, hsame⟩ := Option.map_eq_some_iff.mp hvalue
  rw [hq, hunique q (hperm.mem_iff.mp (List.mem_of_getElem? hq)) hsame]

/-- **A pie shows each answer once, the greater ones first.** Whatever palette and order are in force, a
    pie of counts or percentages over one column has one slice for each answer, and one for the
    unknown answers just when there are any. No slice is followed by a greater one. Equal slices stand
    as the order arranges the answers, with the unknown ones behind them. With another order, the values
    are the same at each place, and so are the slices that no other one is equal to. -/
theorem assemble_pie (c : Column) {r : ChartRequest} (hkind : r.kind = .pie)
    (hstat : r.statistic = .count ∨ r.statistic = .percentage) (s : Setting) :
    ∃ chart points, assemble (Column.align [c]) r s = .ok chart ∧
      chart.series = [⟨c.name, points, .pie, true⟩] ∧
      let pie := points.map Point.datum
      pie.Perm (c.categories.map (slice c r.statistic) ++ unknownSlices c r.statistic) ∧
      pie.Pairwise (fun p q => ¬ p.2 < q.2) ∧
      (∀ p q, (p.2 == q.2) = true →
        ([p, q].Sublist pie ↔ [p, q].Sublist
          ((arrange s.order (·.name) c.categories).map (slice c r.statistic) ++
            unknownSlices c r.statistic))) ∧
      (∀ p ∈ c.categories.map (slice c r.statistic), ∀ u ∈ unknownSlices c r.statistic,
        (p.2 == u.2) = true → [p, u].Sublist pie) ∧
      ∀ s' : Setting, ∃ chart' points', assemble (Column.align [c]) r s' = .ok chart' ∧
        chart'.series = [⟨c.name, points', .pie, true⟩] ∧
        let pie' := points'.map Point.datum
        pie'.map (·.2) = pie.map (·.2) ∧
          ∀ (i : Nat) p, pie[i]? = some p → (∀ q ∈ pie, q.2 = p.2 → q = p) →
            pie'[i]? = some p := by
  have hseries (s : Setting) : ∃ chart, assemble (Column.align [c]) r s = .ok chart ∧
      chart.series =
        [⟨c.name, colourAll s.palette (pointsOf c .pie r.statistic s.order), .pie, true⟩] :=
    hkind ▸ exists_assemble_singleton c hstat s
  obtain ⟨chart, hchart, hpoints⟩ := hseries s
  refine ⟨chart, _, hchart, hpoints, ?_⟩
  intro pie
  have hpie : pie = (pointsOf c .pie r.statistic s.order).map Point.datum :=
    map_datum_colourAll _ _
  have hperm := (pie_perm c r.statistic s.order).trans (arrangedSlices_perm c r.statistic s.order)
  rw [hpie]
  refine ⟨hperm, pairwise_pie _ _ _, fun p q h => pair_sublist_pie_iff h,
    fun p hp u hu h => (pair_sublist_pie_iff h).mpr (pair_sublist_arrangedSlices hp hu), ?_⟩
  intro s'
  obtain ⟨chart', hchart', hpoints'⟩ := hseries s'
  refine ⟨chart', _, hchart', hpoints', ?_⟩
  intro pie'
  have hpie' : pie' = (pointsOf c .pie r.statistic s'.order).map Point.datum :=
    map_datum_colourAll _ _
  rw [hpie']
  exact ⟨map_value_pie _, fun i p hp hunique => getElem?_pie_of_unique _ hp hunique⟩

/-- More answers are unknown than often, but both are half of all when they are rounded. -/
theorem assemble_pie_rounded :
    let c : Column := ⟨"Tea", "A", [⟨"always", 1⟩, ⟨"often", 1000⟩], 2002, 1001⟩
    ∃ chart points, assemble (Column.align [c]) ⟨.pie, .percentage, ["A"], 0, "", ""⟩ .initial =
        .ok chart ∧ chart.series = [⟨"Tea", points, .pie, true⟩] ∧ points.length = 3 ∧
      [("often", 50), ("Unknown", 50)].Sublist (points.map Point.datum) := by
  intro c
  obtain ⟨chart, points, hchart, hseries, hperm, -, -, hunknown, -⟩ :=
    assemble_pie c (r := ⟨.pie, .percentage, ["A"], 0, "", ""⟩) rfl (.inr rfl) .initial
  have hoften : slice c .percentage ⟨"often", 1000⟩ = ("often", 50) :=
    Prod.ext rfl (Decimal.toBits_injective (by decide +kernel))
  have hslice : unknownSlices c .percentage = [("Unknown", 50)] :=
    congrArg (fun v => [("Unknown", v)]) (Decimal.toBits_injective (by decide +kernel))
  refine ⟨chart, points, hchart, hseries, ?_,
    hunknown ("often", 50) ?_ ("Unknown", 50) ?_ (by decide +kernel)⟩
  · simpa [hslice, c] using hperm.length_eq
  · rw [← hoften]
    exact List.mem_map_of_mem (List.mem_cons_of_mem _ List.mem_cons_self)
  · rw [hslice]
    exact List.mem_singleton_self _

end Chart

end SurveyReport
