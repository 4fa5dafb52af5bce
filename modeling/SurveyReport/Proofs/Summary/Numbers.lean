import Mathlib.Algebra.BigOperators.Ring.List
import Mathlib.Algebra.Order.BigOperators.Group.List
import Mathlib.Algebra.Order.Field.Basic
import Mathlib.Algebra.Order.Field.Rat
import SurveyReport.Proofs.Column.Aligned
import SurveyReport.Summary

/-!
# Range and mean

Range and mean look at the answers that are number words. Columns that are aligned have more answers
than before, but the new ones are answers of another column and were never given, so that neither the
numbers nor the sums change. As no answer was counted that was not given, there is a mean as soon as
there is a range, and the mean lies within it if all answers are numbers.

Results:
* `weigh_align`: no sum over the answers is changed by alignment.
* `range?_congr`: a range depends on which numbers there are.
* `sums?_eq`: the sums of a mean fit in 64 bits.
* `text_range_mean`: ranges and means of aligned columns, when there are any, and how they compare.
-/

namespace SurveyReport

/-! ## Answers with weights -/

namespace Column

variable (weight : String → Nat)

theorem weigh_flatMap (columns : List Column) :
    weigh weight (columns.flatMap (·.categories)) =
      (columns.map fun c => weigh weight c.categories).sum := by
  induction columns with
  | nil => rfl
  | cons c columns ih => rw [List.flatMap_cons, weigh_append, ih, List.map_cons, List.sum_cons]

theorem mul_countAll_le_weigh {least : Nat} {categories : List Category}
    (h : ∀ a ∈ categories, least ≤ weight a.name) :
    least * countAll categories ≤ weigh weight categories := by
  rw [countAll_eq_sum, ← List.sum_map_mul_left]
  exact List.sum_le_sum fun a ha => Nat.mul_le_mul_right _ (h a ha)

theorem weigh_le_mul_countAll {greatest : Nat} {categories : List Category}
    (h : ∀ a ∈ categories, weight a.name ≤ greatest) :
    weigh weight categories ≤ greatest * countAll categories := by
  rw [countAll_eq_sum, ← List.sum_map_mul_left]
  exact List.sum_le_sum fun a ha => Nat.mul_le_mul_right _ (h a ha)

/-- An answer that some aligned column has is one that some column had before. -/
theorem exists_name_align_iff {columns : List Column} (h : columns ≠ [])
    (hnodup : ∀ c ∈ columns, (c.categories.map (·.name)).Nodup) (name : String) :
    (∃ d ∈ (align columns).columns, name ∈ d.categories.map (·.name)) ↔
      ∃ c ∈ columns, name ∈ c.categories.map (·.name) := by
  obtain ⟨reference, href⟩ := isReferenceAt_reference h
  constructor
  · rintro ⟨d, hd, hname⟩
    obtain ⟨i, c, hc, hi⟩ := exists_of_mem_align hd
    rw [map_name_align hnodup href hc hi, List.mem_append] at hname
    rcases hname with hname | hname
    · exact ⟨reference, href.mem, hname⟩
    · exact ⟨c, List.mem_of_getElem? hc, (List.filter_sublist.map _).subset hname⟩
  · rintro ⟨c, hc, hname⟩
    obtain ⟨i, hi⟩ := List.getElem?_of_mem hc
    have hd := getElem?_align href hi
    refine ⟨_, List.mem_of_getElem? hd, ?_⟩
    rw [map_name_align hnodup href hi hd, List.mem_append]
    by_cases hmem : name ∈ reference.categories.map (·.name)
    · exact .inl hmem
    · obtain ⟨a, ha, rfl⟩ := List.mem_map.mp hname
      exact .inr (List.mem_map_of_mem (List.mem_filter.mpr ⟨ha, by simpa using hmem⟩))

end Column

namespace Summary

/-! ## Sums -/

/-- The number of a number word, and 0 for all else. -/
def wordValue (name : String) : Nat := (NumberWord.value? name).getD 0

theorem wordValue_le (name : String) : wordValue name ≤ 20 := by
  unfold wordValue
  cases h : NumberWord.value? name with
  | none => exact Nat.zero_le _
  | some n => exact NumberWord.value?_le h

theorem weightedSum_eq (columns : List Column) :
    weightedSum columns = Column.weigh wordValue (columns.flatMap (·.categories)) := by
  rw [weightedSum, numbers, List.foldr_map, Column.weigh, List.sum_eq_foldr, List.foldr_map]
  rfl

theorem occurrences_eq (columns : List Column) :
    occurrences columns = Column.countAll (columns.flatMap (·.categories)) := by
  rw [occurrences, numbers, List.foldr_map]
  rfl

theorem occurrences_eq_sum (columns : List Column) :
    occurrences columns = (columns.map Column.answered).sum := by
  rw [occurrences_eq, ← Column.weigh_one, Column.weigh_flatMap]
  simp only [Column.weigh_one]
  rfl

theorem weightedSum_le (columns : List Column) : weightedSum columns ≤ 20 * occurrences columns := by
  rw [weightedSum_eq, occurrences_eq]
  exact Column.weigh_le_mul_countAll _ fun a _ => wordValue_le a.name

section Align

variable {columns : List Column} (hnodup : ∀ c ∈ columns, (c.categories.map (·.name)).Nodup)
include hnodup

/-- No sum over the answers is changed by alignment. -/
theorem weigh_align (weight : String → Nat) :
    Column.weigh weight ((Column.align columns).columns.flatMap (·.categories)) =
      Column.weigh weight (columns.flatMap (·.categories)) := by
  rw [Column.weigh_flatMap, Column.weigh_flatMap]
  congr 1
  exact Column.map_align _ hnodup fun c hc names hnames =>
    Column.weigh_alignCategories hnames (hnodup c hc) weight

theorem weightedSum_align : weightedSum (Column.align columns).columns = weightedSum columns := by
  rw [weightedSum_eq, weightedSum_eq, weigh_align hnodup]

theorem occurrences_align : occurrences (Column.align columns).columns = occurrences columns := by
  rw [occurrences_eq, occurrences_eq, ← Column.weigh_one, ← Column.weigh_one, weigh_align hnodup]

end Align

/-! ## Sums in 64 bits -/

/-- A number, if 64 bits have room for it. -/
def word64? (n : Nat) : Option Nat := if n < 2 ^ 64 then some n else none

/-- Adds an answer to the sum of the numbers and to the number of answers, in 64 bits. -/
def addCount? (sums : Nat × Nat) (entry : Option Nat × Nat) : Option (Nat × Nat) := do
  let weighted ←
    match entry.1 with
    | some value => (word64? (value * entry.2)).bind fun product => word64? (sums.1 + product)
    | none => some sums.1
  let occurrences ← word64? (sums.2 + entry.2)
  return (weighted, occurrences)

/-- The sums of a mean, one answer after the other in 64 bits. -/
def sums? (columns : List Column) : Option (Nat × Nat) := (numbers columns).foldlM addCount? (0, 0)

theorem word64?_of_lt {n : Nat} (h : n < 2 ^ 64) : word64? n = some n := if_pos h

theorem addCount?_eq {sums : Nat × Nat} {value : Option Nat} {count : Nat}
    (hweighted : sums.1 + value.getD 0 * count < 2 ^ 64) (hcount : sums.2 + count < 2 ^ 64) :
    addCount? sums (value, count) = some (sums.1 + value.getD 0 * count, sums.2 + count) := by
  cases value with
  | none => simp [addCount?, word64?_of_lt hcount]
  | some value =>
    rw [Option.getD_some] at hweighted
    have hproduct : value * count < 2 ^ 64 := by omega
    simp [addCount?, word64?_of_lt hcount, word64?_of_lt hproduct, word64?_of_lt hweighted]

/-- Sums of which the last ones fit are added up without an overflow on the way. -/
theorem foldlM_addCount?_eq {entries : List (Option Nat × Nat)} {sums : Nat × Nat}
    (hweighted : sums.1 + (entries.map fun e => e.1.getD 0 * e.2).sum < 2 ^ 64)
    (hcount : sums.2 + (entries.map (·.2)).sum < 2 ^ 64) :
    entries.foldlM addCount? sums =
      some (sums.1 + (entries.map fun e => e.1.getD 0 * e.2).sum,
        sums.2 + (entries.map (·.2)).sum) := by
  induction entries generalizing sums with
  | nil => rfl
  | cons entry entries ih =>
    obtain ⟨value, count⟩ := entry
    simp only [List.map_cons, List.sum_cons] at hweighted hcount ⊢
    rw [List.foldlM_cons, addCount?_eq (by omega) (by omega), Option.bind_eq_bind, Option.bind_some,
      ih (by simp only; omega) (by simp only; omega)]
    simp only [Nat.add_assoc]

theorem sums?_eq {columns : List Column} (h : 20 * occurrences columns < 2 ^ 64) :
    sums? columns = some (weightedSum columns, occurrences columns) := by
  have hle := weightedSum_le columns
  have hweighted : ((numbers columns).map fun e => e.1.getD 0 * e.2).sum = weightedSum columns := by
    rw [List.sum_eq_foldr, List.foldr_map]
    rfl
  have hcount : ((numbers columns).map (·.2)).sum = occurrences columns := by
    rw [List.sum_eq_foldr, List.foldr_map]
    rfl
  rw [sums?, foldlM_addCount?_eq (by simp only; omega) (by simp only; omega), hweighted, hcount]
  simp only [Nat.zero_add]

/-! ## Ranges -/

/-- The numbers among the answers. -/
def values (columns : List Column) : List Nat := (numbers columns).filterMap (·.1)

/-- Some answer is a number word. -/
def HasNumber (columns : List Column) : Prop :=
  ∃ c ∈ columns, ∃ a ∈ c.categories, (NumberWord.value? a.name).isSome

theorem mem_values {columns : List Column} {n : Nat} :
    n ∈ values columns ↔
      ∃ name, (∃ c ∈ columns, name ∈ c.categories.map (·.name)) ∧
        NumberWord.value? name = some n := by
  simp only [values, numbers, List.filterMap_map, List.mem_filterMap, List.mem_flatMap,
    List.mem_map, Function.comp_apply]
  constructor
  · rintro ⟨a, ⟨c, hc, ha⟩, hn⟩
    exact ⟨a.name, ⟨c, hc, a, ha, rfl⟩, hn⟩
  · rintro ⟨-, ⟨c, hc, a, ha, rfl⟩, hn⟩
    exact ⟨a, ⟨c, hc, ha⟩, hn⟩

theorem range?_eq_some_iff {columns : List Column} {least greatest : Nat} :
    range? columns = some (least, greatest) ↔
      (values columns).min? = some least ∧ (values columns).max? = some greatest := by
  rw [range?, ← values]
  cases values columns with
  | nil => simp
  | cons n rest =>
    rw [List.min?_cons', List.max?_cons']
    simp

/-- A range depends on which numbers there are, not on how often or in which order. -/
theorem range?_congr {columns others : List Column}
    (h : ∀ n, n ∈ values columns ↔ n ∈ values others) : range? columns = range? others := by
  refine Option.ext fun ⟨least, greatest⟩ => ?_
  rw [range?_eq_some_iff, range?_eq_some_iff]
  simp only [List.min?_eq_some_iff, List.max?_eq_some_iff, h]

theorem range?_align {columns : List Column} (hne : columns ≠ [])
    (hnodup : ∀ c ∈ columns, (c.categories.map (·.name)).Nodup) :
    range? (Column.align columns).columns = range? columns :=
  range?_congr fun n => by simp only [mem_values, Column.exists_name_align_iff hne hnodup]

theorem isSome_range?_iff (columns : List Column) : (range? columns).isSome ↔ HasNumber columns := by
  have hvalues : (range? columns).isSome ↔ ∃ n, n ∈ values columns := by
    rw [range?, ← values]
    cases values columns with
    | nil => simp
    | cons n rest => exact ⟨fun _ => ⟨n, List.mem_cons_self⟩, fun _ => rfl⟩
  rw [hvalues]
  constructor
  · rintro ⟨n, hn⟩
    obtain ⟨name, ⟨c, hc, hname⟩, hvalue⟩ := mem_values.mp hn
    obtain ⟨a, ha, rfl⟩ := List.mem_map.mp hname
    exact ⟨c, hc, a, ha, by rw [hvalue]; rfl⟩
  · rintro ⟨c, hc, a, ha, hsome⟩
    obtain ⟨n, hn⟩ := Option.isSome_iff_exists.mp hsome
    exact ⟨n, mem_values.mpr ⟨a.name, ⟨c, hc, List.mem_map_of_mem ha⟩, hn⟩⟩

/-! ## Means -/

section Mean

variable {columns : List Column}

theorem count_le_occurrences {c : Column} (hc : c ∈ columns) {a : Category}
    (ha : a ∈ c.categories) : a.count ≤ occurrences columns := by
  rw [occurrences_eq, Column.countAll_eq_sum]
  exact List.single_le_sum (by simp) _
    (List.mem_map_of_mem (List.mem_flatMap.mpr ⟨c, hc, ha⟩))

/-- An answer that is a number word was given, so that there is something to divide by. -/
theorem occurrences_ne_zero (hcounted : ∀ c ∈ columns, c.Aggregated) (h : HasNumber columns) :
    occurrences columns ≠ 0 := by
  obtain ⟨c, hc, a, ha, -⟩ := h
  have hpos := (hcounted c hc).count_pos ha
  have hle := count_le_occurrences hc ha
  omega

theorem mean?_of_hasNumber (hcounted : ∀ c ∈ columns, c.Aggregated) (h : HasNumber columns) :
    mean? columns = some (Decimal.roundAt 100
      (floatOf (weightedSum columns) / floatOf (occurrences columns))) := by
  have hrange := (isSome_range?_iff columns).mpr h
  rw [mean?, if_neg]
  rintro (hnone | hzero)
  · rw [Option.isNone_iff_eq_none] at hnone
    rw [hnone] at hrange
    contradiction
  · exact occurrences_ne_zero hcounted h hzero

theorem mean?_of_not_hasNumber (h : ¬ HasNumber columns) : mean? columns = none := by
  rw [← isSome_range?_iff, Bool.not_eq_true, Option.isSome_eq_false_iff] at h
  rw [mean?, if_pos (.inl h)]

theorem mean?_align (hne : columns ≠ []) (hnodup : ∀ c ∈ columns, (c.categories.map (·.name)).Nodup) :
    mean? (Column.align columns).columns = mean? columns := by
  rw [mean?, mean?, range?_align hne hnodup, weightedSum_align hnodup, occurrences_align hnodup]

/-- If all answers are numbers, their mean is not below the least and not above the greatest. -/
theorem mean_mem_range (hall : ∀ c ∈ columns, ∀ a ∈ c.categories, (NumberWord.value? a.name).isSome)
    (hpos : 0 < occurrences columns) {least greatest : Nat}
    (h : range? columns = some (least, greatest)) :
    (least : ℚ) ≤ weightedSum columns / occurrences columns ∧
      (weightedSum columns / occurrences columns : ℚ) ≤ greatest := by
  obtain ⟨hmin, hmax⟩ := range?_eq_some_iff.mp h
  have hvalue : ∀ a ∈ columns.flatMap (·.categories), wordValue a.name ∈ values columns := by
    intro a ha
    obtain ⟨c, hc, hac⟩ := List.mem_flatMap.mp ha
    obtain ⟨n, hn⟩ := Option.isSome_iff_exists.mp (hall c hc a hac)
    rw [wordValue, hn]
    exact mem_values.mpr ⟨a.name, ⟨c, hc, List.mem_map_of_mem hac⟩, hn⟩
  have hleast : least * occurrences columns ≤ weightedSum columns := by
    rw [occurrences_eq, weightedSum_eq]
    exact Column.mul_countAll_le_weigh _ fun a ha =>
      (List.min?_eq_some_iff.mp hmin).2 _ (hvalue a ha)
  have hgreatest : weightedSum columns ≤ greatest * occurrences columns := by
    rw [occurrences_eq, weightedSum_eq]
    exact Column.weigh_le_mul_countAll _ fun a ha =>
      (List.max?_eq_some_iff.mp hmax).2 _ (hvalue a ha)
  have hcast : (0 : ℚ) < occurrences columns := by exact_mod_cast hpos
  exact ⟨(le_div_iff₀ hcast).mpr (by exact_mod_cast hleast),
    (div_le_iff₀ hcast).mpr (by exact_mod_cast hgreatest)⟩

end Mean

/-! ## Texts -/

section Text

variable {columns : List Column} (source : String)

theorem text_range_of_range? {least greatest : Nat} (h : range? columns = some (least, greatest)) :
    text columns .range source = .ok s!"{least} - {greatest}" := by
  rw [text, h]

/-- There is a range exactly when some answer is a number word. -/
theorem exists_text_range_iff : (∃ t, text columns .range source = .ok t) ↔ HasNumber columns := by
  rw [← isSome_range?_iff, text]
  cases range? columns with
  | none => simp
  | some ends => exact ⟨fun _ => rfl, fun _ => ⟨_, rfl⟩⟩

theorem text_mean_of_hasNumber (hcounted : ∀ c ∈ columns, c.Aggregated) (h : HasNumber columns) :
    text columns .mean source = .ok (Decimal.plain (Decimal.roundAt 100
      (floatOf (weightedSum columns) / floatOf (occurrences columns)))) := by
  rw [text, mean?_of_hasNumber hcounted h]

/-- There is a mean exactly when some answer is a number word. -/
theorem exists_text_mean_iff (hcounted : ∀ c ∈ columns, c.Aggregated) :
    (∃ t, text columns .mean source = .ok t) ↔ HasNumber columns := by
  constructor
  · rintro ⟨t, ht⟩
    by_contra hnone
    rw [text, mean?_of_not_hasNumber hnone] at ht
    contradiction
  · intro h
    exact ⟨_, text_mean_of_hasNumber source hcounted h⟩

end Text

/-- Over aligned columns, range and mean are what they are over the columns themselves, failures too.
There is a range as well as a mean exactly when some answer is a number word. As long as twenty times
the number of answers fits in 64 bits, so do the sums; and if all answers are number words, the mean
is neither below the least nor above the greatest number of the range. -/
theorem text_range_mean {columns : List Column} (hne : columns ≠ [])
    (hcounted : ∀ c ∈ columns, c.Aggregated)
    (hsmall : 20 * (columns.map Column.answered).sum < 2 ^ 64) (source : String) :
    let aligned := (Column.align columns).columns
    let sums := (weightedSum columns, occurrences columns)
    (text aligned .range source = text columns .range source ∧
      text aligned .mean source = text columns .mean source) ∧
    (((∃ t, text columns .range source = .ok t) ↔ HasNumber columns) ∧
      ((∃ t, text columns .mean source = .ok t) ↔ HasNumber columns)) ∧
    (sums? columns = some sums ∧ sums? aligned = some sums) ∧
    ((∀ c ∈ columns, ∀ a ∈ c.categories, (NumberWord.value? a.name).isSome) →
      ∀ t, text columns .range source = .ok t →
        ∃ least greatest : Nat, t = s!"{least} - {greatest}" ∧
          text columns .mean source = .ok (Decimal.plain (Decimal.roundAt 100
            (floatOf (weightedSum columns) / floatOf (occurrences columns)))) ∧
          (least : ℚ) ≤ weightedSum columns / occurrences columns ∧
          (weightedSum columns / occurrences columns : ℚ) ≤ greatest) := by
  intro aligned sums
  have hnodup : ∀ c ∈ columns, (c.categories.map (·.name)).Nodup := fun c hc =>
    (hcounted c hc).nodup
  have hfits : 20 * occurrences columns < 2 ^ 64 := by rwa [occurrences_eq_sum]
  have hrange : range? aligned = range? columns := range?_align hne hnodup
  have hmean : mean? aligned = mean? columns := mean?_align hne hnodup
  have hweighted : weightedSum aligned = weightedSum columns := weightedSum_align hnodup
  have hoccurrences : occurrences aligned = occurrences columns := occurrences_align hnodup
  refine ⟨⟨?same_range, ?same_mean⟩,
    ⟨exists_text_range_iff source, exists_text_mean_iff source hcounted⟩,
    ⟨sums?_eq hfits, ?aligned_sums⟩, ?between⟩
  case same_range => rw [text, text, hrange]
  case same_mean => rw [text, text, hmean]
  case aligned_sums =>
    rw [sums?_eq (by rwa [hoccurrences]), hweighted, hoccurrences]
  case between =>
    intro hall t ht
    have hnumber : HasNumber columns := (exists_text_range_iff source).mp ⟨t, ht⟩
    have hpos : 0 < occurrences columns :=
      Nat.pos_of_ne_zero (occurrences_ne_zero hcounted hnumber)
    obtain ⟨⟨least, greatest⟩, hends⟩ :=
      Option.isSome_iff_exists.mp ((isSome_range?_iff columns).mpr hnumber)
    have htext : t = s!"{least} - {greatest}" :=
      Except.ok.inj (ht.symm.trans (text_range_of_range? source hends))
    exact ⟨least, greatest, htext, text_mean_of_hasNumber source hcounted hnumber,
      mean_mem_range hall hpos hends⟩

/-- The two columns have no answer in common. -/
theorem text_range_mean_cups :
    let columns := [Column.ofCells 0 "Morning" ["one", "Three", "three"],
      Column.ofCells 1 "Evening" ["two", ""]]
    let aligned := (Column.align columns).columns
    text aligned .range "" = .ok "1 - 3" ∧ text aligned .mean "" = text columns .mean "" ∧
      sums? aligned = some (9, 4) ∧
      ∃ least greatest : Nat, "1 - 3" = s!"{least} - {greatest}" ∧
        (least : ℚ) ≤ weightedSum columns / occurrences columns ∧
        (weightedSum columns / occurrences columns : ℚ) ≤ greatest := by
  intro columns aligned
  have hcounted : ∀ c ∈ columns, c.Aggregated := by
    intro c hc
    rcases List.mem_pair.mp hc with rfl | rfl
    · exact ⟨_, _, _, rfl⟩
    · exact ⟨_, _, _, rfl⟩
  have hsmall : 20 * (columns.map Column.answered).sum < 2 ^ 64 := by decide +kernel
  have hwords : ∀ c ∈ columns, ∀ a ∈ c.categories, (NumberWord.value? a.name).isSome := by
    decide +kernel
  have hends : text columns .range "" = .ok "1 - 3" := by decide +kernel
  obtain ⟨⟨hrange, hmean⟩, -, ⟨-, hsums⟩, hbetween⟩ :=
    text_range_mean (List.cons_ne_nil _ _) hcounted hsmall ""
  obtain ⟨least, greatest, htext, -, hle⟩ := hbetween hwords _ hends
  refine ⟨hrange.trans hends, hmean, hsums.trans ?_, least, greatest, htext, hle⟩
  decide +kernel

end Summary

end SurveyReport
