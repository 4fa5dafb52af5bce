import SurveyReport.Proofs.Column.Tally
import SurveyReport.Proofs.Table.Names

/-!
# From an export to counted answers

An export is read into a table, and the columns of the table are counted. Every cell of a column is an
answer, is empty, or repeats the name of the column, and what the column says about its answers is how
often they stand in the rows of the table.

Results:
* `isRegular_of_ofCsv`: what every imported table has.
* `counts_columns`: what the columns of a table count.
* `ofCsv_counts`: both, for every text that is imported.
-/

namespace SurveyReport.Table

/-! ## Imported tables -/

/-- A table with proper names, no two of them equal, whose rows have one cell for each name, and no
    placeholder among the cells. -/
structure IsRegular (t : Table) : Prop where
  proper : ∀ header ∈ t.headers, Proper header
  distinct : t.headers.Nodup
  width : ∀ row ∈ t.rows, row.length = t.headers.length
  no_placeholder : ∀ row ∈ t.rows, ∀ cell ∈ row, cell ∉ placeholders

theorem answer_not_mem_placeholders (row : List String) (position : Nat) :
    answer row position ∉ placeholders := by
  rw [answer_eq]
  split
  · decide
  · assumption

theorem isRegular_build (first second : List String) (records : List (List Char)) :
    IsRegular (build first second records) where
  proper := proper_of_mem_headers
  distinct := nodup_distinct _
  width := (build first second records).length_of_mem_rows
  no_placeholder := by
    intro row hrow cell hcell
    rw [build_rows] at hrow
    obtain ⟨record, -, rfl⟩ := List.mem_map.mp hrow
    obtain ⟨column, -, rfl⟩ := List.mem_map.mp hcell
    exact answer_not_mem_placeholders _ _

theorem isRegular_of_ofCsv {text : String} {t : Table} (h : ofCsv text = .ok t) : IsRegular t := by
  unfold ofCsv at h
  split at h
  · contradiction
  · contradiction
  · obtain rfl := Except.ok.inj h
    exact isRegular_build _ _ _

/-! ## Counted columns -/

/-- The number of rows that have a value at a position. -/
def rowsWith (t : Table) (position : Nat) (value : String) : Nat :=
  t.rows.countP fun row => row[position]? = some value

/-- `c` tells how often each answer stands in the rows of a table, at a position under a name. The
    answers are sorted by their bytes. -/
structure Counts (t : Table) (position : Nat) (header : String) (c : Column) : Prop where
  name : c.name = header
  increasing : (c.categories.map fun a => Text.bytes a.name).Pairwise (· < ·)
  answers : ∀ value, (∃ a ∈ c.categories, a.name = value) ↔
    value ≠ "" ∧ value ≠ header ∧ ∃ row ∈ t.rows, row[position]? = some value
  counts : ∀ a ∈ c.categories, a.count = t.rowsWith position a.name
  unknown : c.unknown = t.rowsWith position ""
  total : c.unknown + (c.categories.map (·.count)).sum = c.total
  rows : c.total + t.rowsWith position header = t.rows.length

theorem getElem?_eq_some_iff_getD {t : Table} {position : Nat} (h : position < t.headers.length)
    {row : List String} (hrow : row ∈ t.rows) (value : String) :
    row[position]? = some value ↔ row.getD position "" = value := by
  have hlength := t.length_of_mem_rows row hrow
  rw [List.getD_eq_getElem?_getD, List.getElem?_eq_getElem (by omega)]
  simp

theorem mem_cells {t : Table} {position : Nat} (h : position < t.headers.length) (value : String) :
    value ∈ t.cells position ↔ ∃ row ∈ t.rows, row[position]? = some value := by
  rw [cells, List.mem_map]
  refine exists_congr fun row => and_congr_right fun hrow => ?_
  exact (getElem?_eq_some_iff_getD h hrow value).symm

theorem count_cells {t : Table} {position : Nat} (h : position < t.headers.length) (value : String) :
    (t.cells position).count value = t.rowsWith position value := by
  rw [cells, List.count_eq_countP, List.countP_map, rowsWith]
  refine List.countP_congr fun row hrow => ?_
  simp only [Function.comp_apply, beq_iff_eq, decide_eq_true_eq]
  exact (getElem?_eq_some_iff_getD h hrow value).symm

theorem counts_ofCells {t : Table} {position : Nat} (h : position < t.headers.length) {header : String}
    (hne : header ≠ "") :
    Counts t position header (Column.ofCells position header (t.cells position)) where
  name := rfl
  increasing := by
    rw [List.pairwise_map]
    exact (Column.sorted_ofCells _ _ _).imp Text.precedes_iff_bytes_lt.mp
  answers := by
    intro value
    rw [← mem_cells h]
    constructor
    · rintro ⟨a, ha, rfl⟩
      obtain ⟨hempty, hheader, hcell, -⟩ := Column.mem_ofCells.mp ha
      exact ⟨hempty, hheader, hcell⟩
    · rintro ⟨hempty, hheader, hcell⟩
      exact ⟨⟨value, (t.cells position).count value⟩,
        Column.mem_ofCells.mpr ⟨hempty, hheader, hcell, rfl⟩, rfl⟩
  counts := by
    intro a ha
    obtain ⟨-, -, -, hcount⟩ := Column.mem_ofCells.mp ha
    rw [hcount, count_cells h]
  unknown := count_cells h ""
  total := by
    rw [← Column.countAll_eq_sum]
    exact (Column.total_ofCells _ _ _).symm
  rows := by
    rw [← count_cells h, Column.length_cells hne, cells, List.length_map]

/-- The column of a header counts the cells below it. -/
theorem getElem?_columns {t : Table} {position : Nat} {header : String}
    (h : t.headers[position]? = some header) :
    t.columns[position]? = some (.ofCells position header (t.cells position)) := by
  rw [columns, List.getElem?_mapIdx, h]
  rfl

theorem counts_columns {t : Table} {position : Nat} {header : String}
    (h : t.headers[position]? = some header) (hne : header ≠ "") :
    ∃ c, t.columns[position]? = some c ∧ Counts t position header c := by
  exact ⟨_, getElem?_columns h, counts_ofCells (List.getElem?_eq_some_iff.mp h).1 hne⟩

/-- **Exact counts.** Every text that is imported gives a regular table, with one column of counts for
    each name, in the order of the names. -/
theorem ofCsv_counts {text : String} {t : Table} (h : ofCsv text = .ok t) :
    IsRegular t ∧ t.columns.length = t.headers.length ∧
      ∀ position header, t.headers[position]? = some header →
        ∃ c, t.columns[position]? = some c ∧ Counts t position header c := by
  have hregular := isRegular_of_ofCsv h
  refine ⟨hregular, t.length_columns, fun position header hheader => ?_⟩
  exact counts_columns hheader (hregular.proper header (List.mem_of_getElem? hheader)).1

/-- An export with a placeholder, an empty cell, a cell too few and a repeated name. -/
theorem ofCsv_counts_two_columns :
    ∃ t, ofCsv "Tea,\nResponse, Cups\nyes,2\nResponse,\nyes\nTea,10\n" = .ok t ∧
      t.rows = [["yes", "2"], ["", ""], ["yes", ""], ["Tea", "10"]] ∧
      ∃ c, t.columns[0]? = some c ∧ Counts t 0 "Tea" c ∧ c.unknown = 1 ∧ c.total = 3 := by
  have hok : (ofCsv "Tea,\nResponse, Cups\nyes,2\nResponse,\nyes\nTea,10\n").toOption.map
      (fun t => (t.headers, t.rows)) = some (["Tea", "Cups"],
        [["yes", "2"], ["", ""], ["yes", ""], ["Tea", "10"]]) := by decide
  cases h : ofCsv "Tea,\nResponse, Cups\nyes,2\nResponse,\nyes\nTea,10\n" with
  | error row =>
    rw [h] at hok
    contradiction
  | ok t =>
    rw [h] at hok
    obtain ⟨hheaders, hrows⟩ : t.headers = ["Tea", "Cups"] ∧ t.rows = _ := by
      simpa [Except.toOption] using hok
    obtain ⟨-, -, hcolumns⟩ := ofCsv_counts h
    obtain ⟨c, hc, hcounts⟩ := hcolumns 0 "Tea" (by rw [hheaders]; rfl)
    refine ⟨t, rfl, hrows, c, hc, hcounts, ?_, ?_⟩
    · rw [hcounts.unknown, rowsWith, hrows]
      rfl
    · have hlength := hcounts.rows
      have htea : t.rowsWith 0 "Tea" = 1 := by rw [rowsWith, hrows]; rfl
      rw [htea, hrows] at hlength
      exact Nat.succ.inj hlength

end SurveyReport.Table
