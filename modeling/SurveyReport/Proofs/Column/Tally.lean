import Mathlib.Algebra.Ring.Nat
import SurveyReport.Column.Tally
import SurveyReport.Proofs.Text.Bytes

/-!
# What a tally counts

Answers are entered one by one into a list of categories that stays sorted. A category stands for an
answer that was given, and its number is how often it was.

Results:
* `mem_addAnswer`: entering an answer changes its own category only.
* `mem_tally`: the categories of a tally.
* `sorted_tally`: no two of them have one name, and they stand in the order of their names.
* `countAll_tally`: every answer is counted once.
* `Aggregated`: the columns that come out of counting cells, and what they have in common.
-/

namespace SurveyReport.Column

/-! ## Sorted categories -/

/-- The names of the categories increase. -/
def Sorted (categories : List Category) : Prop :=
  categories.Pairwise fun a b => Text.precedes a.name.toList b.name.toList

/-- How often the first category with a name was counted. -/
def countIn (categories : List Category) (name : String) : Nat :=
  ((categories.find? (·.name == name)).map (·.count)).getD 0

theorem countIn_cons (c : Category) (categories : List Category) (name : String) :
    countIn (c :: categories) name = if c.name = name then c.count else countIn categories name := by
  by_cases h : c.name = name <;> simp [countIn, h]

theorem countIn_of_not_mem {categories : List Category} {name : String}
    (h : ∀ c ∈ categories, c.name ≠ name) : countIn categories name = 0 := by
  have hnone : categories.find? (·.name == name) = none := by simpa using h
  rw [countIn, hnone]
  rfl

theorem countIn_eq_zero {categories : List Category} {name : String}
    (h : name ∉ categories.map (·.name)) : countIn categories name = 0 :=
  countIn_of_not_mem fun c hc heq => h (List.mem_map.mpr ⟨c, hc, heq⟩)

theorem countIn_of_mem {categories : List Category} (h : (categories.map (·.name)).Nodup)
    {c : Category} (hc : c ∈ categories) : countIn categories c.name = c.count := by
  induction categories with
  | nil => contradiction
  | cons first rest ih =>
    obtain ⟨hfirst, hrest⟩ := List.nodup_cons.mp h
    rw [countIn_cons]
    rcases List.mem_cons.mp hc with rfl | hc
    · rw [if_pos rfl]
    · have hne : first.name ≠ c.name := fun heq =>
        hfirst (List.mem_map.mpr ⟨c, hc, heq.symm⟩)
      rw [if_neg hne, ih hrest hc]

theorem countAll_eq_sum (categories : List Category) :
    countAll categories = (categories.map (·.count)).sum := by
  rw [countAll, List.sum_eq_foldr, List.foldr_map]

theorem countAll_cons (c : Category) (categories : List Category) :
    countAll (c :: categories) = c.count + countAll categories := rfl

theorem countAll_eq_zero_iff {categories : List Category} (h : ∀ a ∈ categories, 0 < a.count) :
    countAll categories = 0 ↔ categories = [] := by
  cases categories with
  | nil => simp [countAll]
  | cons a rest =>
    have hpos := h a (by simp)
    rw [countAll_cons]
    simp
    omega

theorem name_ne_of_precedes {s t : String} (h : Text.precedes s.toList t.toList) : s ≠ t := by
  rintro rfl
  rw [Text.precedes_irrefl] at h
  contradiction

theorem Sorted.nodup {categories : List Category} (h : Sorted categories) :
    (categories.map (·.name)).Nodup :=
  List.pairwise_map.mpr (h.imp name_ne_of_precedes)

/-! ## Entering an answer -/

/-- Entering an answer changes its own category only. -/
theorem mem_addAnswer {categories : List Category} (h : Sorted categories) (answer : String)
    (c : Category) :
    c ∈ addAnswer answer categories ↔
      c ∈ categories ∧ c.name ≠ answer ∨ c = ⟨answer, countIn categories answer + 1⟩ := by
  induction categories with
  | nil => simp [addAnswer, countIn]
  | cons first rest ih =>
    obtain ⟨hfirst, hrest⟩ := List.pairwise_cons.mp h
    rw [addAnswer, countIn_cons]
    split
    · -- the answer has the first category
      rename_i heq
      have hne : ∀ d ∈ rest, d.name ≠ answer := fun d hd =>
        heq ▸ (name_ne_of_precedes (hfirst d hd)).symm
      simp only [List.mem_cons, heq]
      grind
    · rename_i hne
      rw [if_neg (Ne.symm hne)]
      split
      · -- the answer comes before all categories
        rename_i hbefore
        have hall : ∀ d ∈ rest, d.name ≠ answer := fun d hd =>
          (name_ne_of_precedes (Text.precedes_trans hbefore (hfirst d hd))).symm
        rw [countIn_of_not_mem hall]
        simp only [List.mem_cons]
        grind
      · simp only [List.mem_cons, ih hrest]
        grind

theorem sorted_addAnswer {categories : List Category} (h : Sorted categories) (answer : String) :
    Sorted (addAnswer answer categories) := by
  induction categories with
  | nil => simp [addAnswer, Sorted]
  | cons first rest ih =>
    obtain ⟨hfirst, hrest⟩ := List.pairwise_cons.mp h
    rw [addAnswer]
    split
    · exact List.pairwise_cons.mpr ⟨hfirst, hrest⟩
    · rename_i hne
      split
      · rename_i hbefore
        refine List.pairwise_cons.mpr ⟨fun d hd => ?_, h⟩
        rcases List.mem_cons.mp hd with rfl | hd
        · exact hbefore
        · exact Text.precedes_trans hbefore (hfirst d hd)
      · rename_i hbefore
        refine List.pairwise_cons.mpr ⟨fun d hd => ?_, ih hrest⟩
        rcases (mem_addAnswer hrest answer d).mp hd with ⟨hd, -⟩ | rfl
        · exact hfirst d hd
        · rcases Text.precedes_total answer.toList first.name.toList with hlt | heq | hlt
          · exact absurd hlt hbefore
          · exact absurd (String.toList_inj.mp heq) hne
          · exact hlt

theorem countAll_addAnswer (answer : String) (categories : List Category) :
    countAll (addAnswer answer categories) = countAll categories + 1 := by
  induction categories with
  | nil => rfl
  | cons first rest ih =>
    rw [addAnswer]
    split_ifs
    · simp only [countAll_cons]
      omega
    · simp only [countAll_cons]
      omega
    · simp only [countAll_cons, ih]
      omega

/-! ## Tallies -/

theorem sorted_tally (answers : List String) : Sorted (tally answers) := by
  induction answers with
  | nil => exact List.Pairwise.nil
  | cons answer answers ih => exact sorted_addAnswer ih answer

theorem countAll_tally (answers : List String) : countAll (tally answers) = answers.length := by
  induction answers with
  | nil => rfl
  | cons answer answers ih =>
    rw [tally, List.foldr_cons, ← tally, countAll_addAnswer, ih, List.length_cons]

/-- The categories of a tally are the answers, each with how often it was given. -/
theorem mem_tally (answers : List String) (c : Category) :
    c ∈ tally answers ↔ c.name ∈ answers ∧ c.count = answers.count c.name := by
  induction answers generalizing c with
  | nil => simp [tally]
  | cons answer answers ih =>
    have hcount : countIn (tally answers) answer = answers.count answer := by
      by_cases hmem : answer ∈ answers
      · exact countIn_of_mem (sorted_tally answers).nodup
          ((ih ⟨answer, answers.count answer⟩).mpr ⟨hmem, rfl⟩)
      · rw [List.count_eq_zero_of_not_mem hmem]
        exact countIn_of_not_mem fun d hd heq => hmem (heq ▸ ((ih d).mp hd).1)
    rw [tally, List.foldr_cons, ← tally, mem_addAnswer (sorted_tally answers), hcount, ih]
    obtain ⟨name, count⟩ := c
    by_cases heq : name = answer
    · simp [heq]
    · simp [heq, List.count_cons_of_ne (Ne.symm heq)]

/-! ## Columns of cells -/

/-- The categories of a column are its answers: cells that are not empty and do not repeat its name. -/
theorem mem_ofCells {index : Nat} {header : String} {cells : List String} {a : Category} :
    a ∈ (ofCells index header cells).categories ↔
      a.name ≠ "" ∧ a.name ≠ header ∧ a.name ∈ cells ∧ a.count = cells.count a.name := by
  have hmem := mem_tally (cells.filter fun cell => cell ≠ "" ∧ cell ≠ header) a
  simp only [List.mem_filter, decide_eq_true_eq] at hmem
  rw [ofCells, hmem]
  constructor
  · rintro ⟨⟨hcell, hne, hheader⟩, hcount⟩
    rw [List.count_filter (by simp [hne, hheader])] at hcount
    exact ⟨hne, hheader, hcell, hcount⟩
  · rintro ⟨hne, hheader, hcell, hcount⟩
    rw [List.count_filter (by simp [hne, hheader])]
    exact ⟨⟨hcell, hne, hheader⟩, hcount⟩

theorem sorted_ofCells (index : Nat) (header : String) (cells : List String) :
    Sorted (ofCells index header cells).categories := sorted_tally _

/-- How often a column counts an answer: as often as it stands in the cells. -/
theorem countOf_ofCells (index : Nat) (header : String) (cells : List String) (value : String) :
    (ofCells index header cells).countOf value =
      if value = "" ∨ value = header then 0 else cells.count value := by
  change countIn (ofCells index header cells).categories value = _
  split_ifs with hnone
  · refine countIn_of_not_mem fun a ha heq => ?_
    obtain ⟨hempty, hheader, -⟩ := mem_ofCells.mp ha
    exact hnone.elim (heq ▸ hempty) (heq ▸ hheader)
  · obtain ⟨hempty, hheader⟩ := not_or.mp hnone
    by_cases hcell : value ∈ cells
    · have hanswer : ⟨value, cells.count value⟩ ∈ (ofCells index header cells).categories :=
        mem_ofCells.mpr ⟨hempty, hheader, hcell, rfl⟩
      exact countIn_of_mem (sorted_ofCells index header cells).nodup hanswer
    · rw [List.count_eq_zero_of_not_mem hcell]
      refine countIn_of_not_mem fun a ha heq => hcell ?_
      exact heq ▸ (mem_ofCells.mp ha).2.2.1

/-- Every cell is an answer, is empty, or repeats the name of the column. -/
theorem length_cells {header : String} (h : header ≠ "") (index : Nat) (cells : List String) :
    (ofCells index header cells).total + cells.count header = cells.length := by
  rw [total_ofCells, answered, ofCells, countAll_tally]
  induction cells with
  | nil => rfl
  | cons cell cells ih =>
    rw [List.count_cons, List.count_cons, List.filter_cons, List.length_cons, ← ih]
    by_cases hempty : cell = ""
    · simp [hempty, h.symm]
      omega
    · by_cases hheader : cell = header
      · simp [hheader, h]
        omega
      · simp [hempty, hheader]
        omega

/-- A column that comes out of counting cells. -/
def Aggregated (c : Column) : Prop := ∃ index header cells, c = ofCells index header cells

theorem Aggregated.nodup {c : Column} (h : c.Aggregated) : (c.categories.map (·.name)).Nodup := by
  obtain ⟨index, header, cells, rfl⟩ := h
  exact (sorted_ofCells index header cells).nodup

/-- No answer is counted that was not given. -/
theorem Aggregated.count_pos {c : Column} (h : c.Aggregated) {a : Category} (ha : a ∈ c.categories) :
    0 < a.count := by
  obtain ⟨index, header, cells, rfl⟩ := h
  obtain ⟨-, -, hcell, hcount⟩ := mem_ofCells.mp ha
  rw [hcount]
  exact List.count_pos_iff.mpr hcell

/-- The total of a column is that of its answers, the unknown ones too. -/
theorem Aggregated.total_eq {c : Column} (h : c.Aggregated) : c.total = c.answered + c.unknown := by
  obtain ⟨index, header, cells, rfl⟩ := h
  rw [total_ofCells, Nat.add_comm]

theorem aggregated_of_mem_columns (t : Table) : ∀ c ∈ t.columns, c.Aggregated := by
  intro c hc
  obtain ⟨index, hindex, rfl⟩ := List.mem_mapIdx.mp hc
  exact ⟨_, _, _, rfl⟩

/-- The column of a table at a position counts the cells at this position. -/
theorem exists_eq_ofCells {t : Table} {position : Nat} {c : Column}
    (h : t.columns[position]? = some c) :
    ∃ header, t.headers[position]? = some header ∧
      c = ofCells position header (t.cells position) := by
  rw [Table.columns, List.getElem?_mapIdx] at h
  obtain ⟨header, hheader, rfl⟩ := Option.map_eq_some_iff.mp h
  exact ⟨header, hheader, rfl⟩

end SurveyReport.Column
