import Mathlib.Algebra.BigOperators.Group.List.Basic
import Mathlib.Data.List.Induction
import Mathlib.Data.List.Nodup
import SurveyReport.Column.Alignment
import SurveyReport.Proofs.Column.Tally

/-!
# What alignment keeps

Aligning columns moves their answers and adds answers that were never given. The numbers of all answers
stay, and with them whatever depends on them only.

Results:
* `reference_align`: the reference is the first column with the most categories, and stays as it was.
* `alignCategories_eq`: the aligned answers of a column.
* `countIn_alignCategories`, `countAll_alignCategories`: no answer is lost or counted twice.
* `map_align`: what alignment keeps in each column, it keeps in all of them.
* `weigh_alignCategories`, `sum_countIn`: what the answers come to.
-/

namespace SurveyReport.Column

/-! ## The reference -/

/-- The first of some columns with the most categories. -/
def IsReference (columns : List Column) (reference : Column) : Prop :=
  ∃ before behind, columns = before ++ reference :: behind ∧
    (∀ c ∈ before, c.categories.length < reference.categories.length) ∧
    ∀ c ∈ behind, c.categories.length ≤ reference.categories.length

/-- The scan for the reference holds the reference of the columns so far, and its index. -/
theorem foldl_keepGreater {columns : List Column} (h : columns ≠ []) :
    ∃ before reference behind, columns = before ++ reference :: behind ∧
      (columns.map (·.categories.length)).zipIdx.foldl keepGreater (0, 0) =
        (reference.categories.length, before.length) ∧
      (∀ c ∈ before, c.categories.length < reference.categories.length) ∧
      ∀ c ∈ behind, c.categories.length ≤ reference.categories.length := by
  induction columns using List.reverseRecOn with
  | nil => contradiction
  | append_singleton columns last ih =>
    by_cases hnil : columns = []
    · subst hnil
      refine ⟨[], last, [], rfl, ?_, by simp, by simp⟩
      by_cases hlast : 0 < last.categories.length
      · simp [keepGreater, hlast]
      · have hzero : last.categories = [] := List.length_eq_zero_iff.mp (by omega)
        simp [keepGreater, hzero]
    · obtain ⟨before, reference, behind, hcolumns, hbest, hbefore, hbehind⟩ := ih hnil
      rw [List.map_append, List.zipIdx_append, List.foldl_append, hbest]
      by_cases hlast : reference.categories.length < last.categories.length
      · refine ⟨columns, last, [], rfl, by simp [keepGreater, hlast], fun c hc => ?_, by simp⟩
        rw [hcolumns, List.mem_append, List.mem_cons] at hc
        rcases hc with hc | rfl | hc
        · exact Nat.lt_trans (hbefore c hc) hlast
        · exact hlast
        · exact Nat.lt_of_le_of_lt (hbehind c hc) hlast
      · refine ⟨before, reference, behind ++ [last], by simp [hcolumns],
          by simp [keepGreater, hlast], hbefore, fun c hc => ?_⟩
        rcases List.mem_append.mp hc with hc | hc
        · exact hbehind c hc
        · rw [List.mem_singleton.mp hc]
          exact Nat.le_of_not_lt hlast

theorem getElem?_referenceIndex {columns : List Column} (h : columns ≠ []) :
    ∃ reference, columns[referenceIndex columns]? = some reference ∧
      IsReference columns reference := by
  obtain ⟨before, reference, behind, hcolumns, hbest, hbefore, hbehind⟩ := foldl_keepGreater h
  refine ⟨reference, ?_, before, behind, hcolumns, hbefore, hbehind⟩
  rw [referenceIndex, hbest, hcolumns]
  simp

/-- The reference is the first column with the most categories, and stays as it was. -/
theorem reference_align {columns : List Column} (h : columns ≠ []) :
    ∃ reference, (align columns).columns[(align columns).reference]? = some reference ∧
      IsReference columns reference := by
  obtain ⟨reference, hindex, hreference⟩ := getElem?_referenceIndex h
  refine ⟨reference, ?_, hreference⟩
  simp only [align]
  split
  · exact hindex
  · rw [List.getElem?_mapIdx, hindex]
    simp

/-! ## One column -/

theorem countIn_append (front behind : List Category) (name : String) :
    countIn (front ++ behind) name =
      if name ∈ front.map (·.name) then countIn front name else countIn behind name := by
  induction front with
  | nil => simp
  | cons c front ih =>
    rw [List.cons_append, countIn_cons, countIn_cons, ih]
    grind

/-- Entering a number changes the slot of its name only. -/
theorem enter?_map {names : List String} (h : names.Nodup) (count : String → Nat) (c : Category) :
    enter? c (names.map fun name => ⟨name, count name⟩) =
      if c.name ∈ names then
        some (names.map fun name => ⟨name, Function.update count c.name c.count name⟩)
      else none := by
  induction names with
  | nil => rfl
  | cons first rest ih =>
    obtain ⟨hfirst, hrest⟩ := List.nodup_cons.mp h
    simp only [List.map_cons, enter?, ih hrest]
    by_cases hmem : c.name ∈ rest
    · have hne : first ≠ c.name := fun heq => hfirst (heq ▸ hmem)
      simp [hmem, Function.update_of_ne hne]
    · by_cases heq : first = c.name
      · have hsame : (rest.map fun name => (⟨name, Function.update count c.name c.count name⟩ :
            Category)) = rest.map fun name => ⟨name, count name⟩ :=
          List.map_congr_left fun name hname => by
            rw [Function.update_of_ne (ne_of_mem_of_not_mem hname hmem)]
        simp [hmem, heq, hsame]
      · simp [hmem, heq, Ne.symm heq]

/-- The slots after all answers of a column are entered: each slot holds the number of its answer, and
    what it held before if there is no such answer. -/
theorem foldl_add {names : List String} (h : names.Nodup) {own : List Category}
    (hown : (own.map (·.name)).Nodup) (count : String → Nat) (extra : List Category) :
    own.foldl Slots.add ⟨names.map fun name => ⟨name, count name⟩, extra⟩ =
      ⟨names.map fun name =>
          ⟨name, if name ∈ own.map (·.name) then countIn own name else count name⟩,
        extra ++ own.filter fun c => c.name ∉ names⟩ := by
  induction own generalizing count extra with
  | nil => simp
  | cons c rest ih =>
    obtain ⟨hc, hrest⟩ := List.nodup_cons.mp hown
    rw [List.foldl_cons, Slots.add, enter?_map h]
    by_cases hmem : c.name ∈ names
    · simp only [if_pos hmem, ih hrest]
      have hslots : ∀ name,
          (if name ∈ rest.map (·.name) then countIn rest name
            else Function.update count c.name c.count name) =
          if name ∈ (c :: rest).map (·.name) then countIn (c :: rest) name else count name := by
        intro name
        rw [countIn_cons]
        by_cases heq : name = c.name
        · subst heq
          simp [hc]
        · simp [heq, Ne.symm heq]
      simp only [hslots]
      simp [hmem]
    · simp only [if_neg hmem, ih hrest]
      have hslots : ∀ name ∈ names,
          (if name ∈ rest.map (·.name) then countIn rest name else count name) =
          if name ∈ (c :: rest).map (·.name) then countIn (c :: rest) name else count name := by
        intro name hname
        have hne : name ≠ c.name := fun heq => hmem (heq ▸ hname)
        simp [countIn_cons, hne, Ne.symm hne]
      rw [List.filter_cons_of_pos (by simpa using hmem)]
      simp only [List.append_assoc, List.singleton_append, Slots.mk.injEq, and_true]
      exact List.map_congr_left fun name hname => by rw [hslots name hname]

/-- The aligned answers are those under the given names, and behind them the others. -/
theorem alignCategories_eq {names : List String} (h : names.Nodup) {own : List Category}
    (hown : (own.map (·.name)).Nodup) :
    alignCategories names own =
      (names.map fun name => ⟨name, countIn own name⟩) ++ own.filter fun c => c.name ∉ names := by
  have hslots := foldl_add h hown (fun _ => 0) []
  have hzero : ∀ name,
      (if name ∈ own.map (·.name) then countIn own name else 0) = countIn own name := by
    intro name
    split
    · rfl
    · rename_i hmem
      exact (countIn_eq_zero hmem).symm
  simp only [hzero, List.nil_append] at hslots
  simp only [alignCategories, hslots]

theorem countIn_filter_not_mem {names : List String} {own : List Category} {name : String}
    (h : name ∉ names) : countIn (own.filter fun c => c.name ∉ names) name = countIn own name := by
  induction own with
  | nil => rfl
  | cons c own ih =>
    rw [List.filter_cons, countIn_cons]
    split
    · rw [countIn_cons, ih]
    · rename_i hc
      have hne : c.name ≠ name := fun heq => hc (by simpa [heq] using h)
      rw [if_neg hne, ih]

theorem countIn_map {names : List String} (count : String → Nat) {name : String}
    (h : name ∈ names) : countIn (names.map fun name => ⟨name, count name⟩) name = count name := by
  induction names with
  | nil => contradiction
  | cons first rest ih =>
    rw [List.map_cons, countIn_cons]
    split
    · rename_i heq
      exact congrArg count heq
    · rename_i hne
      exact ih ((List.mem_cons.mp h).resolve_left (Ne.symm hne))

/-- The number of each answer stays. -/
theorem countIn_alignCategories {names : List String} (h : names.Nodup) {own : List Category}
    (hown : (own.map (·.name)).Nodup) (name : String) :
    countIn (alignCategories names own) name = countIn own name := by
  rw [alignCategories_eq h hown, countIn_append]
  by_cases hname : name ∈ names
  · simp [hname, countIn_map, Function.comp_def]
  · simp only [List.map_map, Function.comp_def, List.map_id', hname, if_false]
    exact countIn_filter_not_mem hname

/-! ## Sums over the answers -/

/-- How often some answers were given in all, each counted with the weight of its name. -/
def weigh (weight : String → Nat) (categories : List Category) : Nat :=
  (categories.map fun a => weight a.name * a.count).sum

section Weigh

variable (weight : String → Nat)

theorem weigh_cons (a : Category) (categories : List Category) :
    weigh weight (a :: categories) = weight a.name * a.count + weigh weight categories := by
  simp [weigh]

theorem weigh_append (front behind : List Category) :
    weigh weight (front ++ behind) = weigh weight front + weigh weight behind := by
  simp [weigh]

theorem weigh_one (categories : List Category) :
    weigh (fun _ => 1) categories = countAll categories := by
  simp [weigh, countAll_eq_sum]

/-- Answers that were never given have no weight. -/
theorem weigh_filter_pos (categories : List Category) :
    weigh weight (categories.filter (0 < ·.count)) = weigh weight categories := by
  induction categories with
  | nil => rfl
  | cons a categories ih =>
    rw [List.filter_cons, weigh_cons]
    split_ifs with hpos
    · rw [weigh_cons, ih]
    · have hzero : a.count = 0 := by simpa using hpos
      rw [ih, hzero, Nat.mul_zero, Nat.zero_add]

end Weigh

section One

variable {names : List String} (h : names.Nodup) {own : List Category}
  (hown : (own.map (·.name)).Nodup)
include h hown

theorem map_name_alignCategories :
    (alignCategories names own).map (·.name) =
      names ++ (own.filter fun c => c.name ∉ names).map (·.name) := by
  rw [alignCategories_eq h hown, List.map_append, List.map_map]
  simp [Function.comp_def]

/-- Names, and behind them the names of the answers that have others, are all different. -/
theorem nodup_append_filter :
    (names ++ (own.filter fun c => c.name ∉ names).map (·.name)).Nodup := by
  refine List.nodup_append.mpr ⟨h, hown.sublist (List.filter_sublist.map _), ?_⟩
  intro name hname other hother heq
  obtain ⟨c, hc, rfl⟩ := List.mem_map.mp hother
  have := (List.mem_filter.mp hc).2
  simp [← heq, hname] at this

/-- The answers that were given are the same as before. -/
theorem filter_pos_alignCategories_perm :
    ((alignCategories names own).filter (0 < ·.count)).Perm (own.filter (0 < ·.count)) := by
  have hnodup : (alignCategories names own).Nodup :=
    List.Nodup.of_map _ (map_name_alignCategories h hown ▸ nodup_append_filter h hown)
  have hnodupOwn : own.Nodup := List.Nodup.of_map _ hown
  refine (List.perm_ext_iff_of_nodup (hnodup.filter _) (hnodupOwn.filter _)).mpr fun a => ?_
  have hcount : ∀ b ∈ own, countIn own b.name = b.count := fun b => countIn_of_mem hown
  simp only [alignCategories_eq h hown, List.mem_filter, List.mem_append, List.mem_map,
    decide_eq_true_eq]
  constructor
  · rintro ⟨⟨name, -, rfl⟩ | ⟨ha, -⟩, hpos⟩
    · have hmem : name ∈ own.map (·.name) := by
        by_contra hnot
        exact absurd (countIn_eq_zero hnot) hpos.ne'
      obtain ⟨b, hb, rfl⟩ := List.mem_map.mp hmem
      rw [hcount b hb] at hpos ⊢
      exact ⟨hb, hpos⟩
    · exact ⟨ha, hpos⟩
  · rintro ⟨ha, hpos⟩
    refine ⟨?_, hpos⟩
    by_cases hname : a.name ∈ names
    · exact .inl ⟨a.name, hname, by rw [hcount a ha]⟩
    · exact .inr ⟨ha, hname⟩

/-- No sum over the answers is changed. -/
theorem weigh_alignCategories (weight : String → Nat) :
    weigh weight (alignCategories names own) = weigh weight own := by
  rw [← weigh_filter_pos, ← weigh_filter_pos weight own]
  exact ((filter_pos_alignCategories_perm h hown).map _).sum_eq

/-- No answer is lost, and none is counted twice. -/
theorem countAll_alignCategories : countAll (alignCategories names own) = countAll own := by
  rw [← weigh_one, ← weigh_one, weigh_alignCategories h hown]

/-- The answers under given names come to all answers without the others. -/
theorem sum_countIn :
    (names.map (countIn own)).sum + countAll (own.filter fun c => c.name ∉ names) =
      countAll own := by
  rw [← countAll_alignCategories h hown, alignCategories_eq h hown]
  simp [countAll_eq_sum, Function.comp_def]

end One

/-! ## All columns -/

/-- What alignment keeps in each column, it keeps in all of them. -/
theorem map_align {α : Type} (f : Column → α) {columns : List Column}
    (hnodup : ∀ c ∈ columns, (c.categories.map (·.name)).Nodup)
    (hf : ∀ c ∈ columns, ∀ names : List String, names.Nodup →
      f { c with categories := alignCategories names c.categories } = f c) :
    (align columns).columns.map f = columns.map f := by
  have hnames : (((columns[referenceIndex columns]?.map (·.categories)).getD []).map
      (·.name)).Nodup := by
    cases hindex : columns[referenceIndex columns]? with
    | none => exact List.nodup_nil
    | some reference => exact hnodup reference (List.mem_of_getElem? hindex)
  simp only [align]
  split
  · rfl
  · refine List.ext_getElem (by simp) fun i hi _ => ?_
    simp only [List.length_map, List.length_mapIdx] at hi
    simp only [List.getElem_map, List.getElem_mapIdx]
    split
    · rfl
    · exact hf _ (List.getElem_mem hi) _ hnames

end SurveyReport.Column
