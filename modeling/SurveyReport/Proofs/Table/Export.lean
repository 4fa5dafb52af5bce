import Mathlib.Data.List.DropRight
import SurveyReport.Table.Import

/-!
# What an export holds

The two header rows of an export decide which columns it has and what they are called. Below them
every record is a row with one cell for each of these columns.

Results:
* `named_headings`: the columns of an export are those that its header rows name.
* `heading_getElem?`: which of the two header rows names a column.
* `dropBlankEnd_append`: which of the records at the end are dropped.
* `build_rows`, `cells_build`: the rows of an export, cell by cell.
* `exists_build_of_ofCsv`: an import that succeeds has the two header rows and builds a table below them.
-/

namespace SurveyReport.Table

/-! ## Columns -/

/-- `columns` are the columns that the two header rows give a name: position and name. The cell of
    the second row is the name unless it is blank or a placeholder, and then that of the first is
    unless it is blank. -/
structure Named (first second : List String) (columns : List (Nat × String)) : Prop where
  inOrder : (columns.map (·.1)).Pairwise (· < ·)
  mem_iff : ∀ position name, (position, name) ∈ columns ↔
    ∃ upper lower, first[position]? = some upper ∧ second[position]? = some lower ∧ name ≠ "" ∧
      (name = Text.strip lower ∧ name ∉ placeholders ∨
        name = Text.strip upper ∧ (Text.strip lower = "" ∨ Text.strip lower ∈ placeholders))

theorem heading_eq_some_iff {upper lower name : String} :
    heading (some upper) (some lower) = some name ↔ name ≠ "" ∧
      (name = Text.strip lower ∧ name ∉ placeholders ∨
        name = Text.strip upper ∧ (Text.strip lower = "" ∨ Text.strip lower ∈ placeholders)) := by
  simp only [heading, Option.getD_some]
  grind

/-- The second header row names a column: its cell is neither blank nor a placeholder. -/
def NamesColumn (second : List String) (position : Nat) : Prop :=
  Text.strip (second.getD position "") ≠ "" ∧ Text.strip (second.getD position "") ∉ placeholders

instance (second : List String) (position : Nat) : Decidable (NamesColumn second position) :=
  inferInstanceAs (Decidable (_ ∧ _))

theorem heading_getElem? (first second : List String) (position : Nat) :
    heading first[position]? second[position]? =
      if NamesColumn second position then some (Text.strip (second.getD position ""))
      else if Text.strip (first.getD position "") ≠ "" then some (Text.strip (first.getD position ""))
      else none := by
  simp only [heading, NamesColumn, List.getD_eq_getElem?_getD]

theorem headings_positions (first second : List String) :
    ((headings first second).map (·.1)).Pairwise (· < ·) := by
  rw [List.pairwise_map, headings, List.pairwise_filterMap]
  refine List.pairwise_lt_range.imp ?_
  intro i j hij a ha b hb
  obtain ⟨-, -, rfl⟩ := Option.map_eq_some_iff.mp ha
  obtain ⟨-, -, rfl⟩ := Option.map_eq_some_iff.mp hb
  exact hij

theorem mem_headings (first second : List String) (position : Nat) (name : String) :
    (position, name) ∈ headings first second ↔
      position < max first.length second.length ∧
        heading first[position]? second[position]? = some name := by
  rw [headings, List.mem_filterMap]
  constructor
  · rintro ⟨i, hi, h⟩
    obtain ⟨_, hname, heq⟩ := Option.map_eq_some_iff.mp h
    obtain ⟨rfl, rfl⟩ := Prod.mk.injEq .. ▸ heq
    exact ⟨List.mem_range.mp hi, hname⟩
  · rintro ⟨hi, hname⟩
    exact ⟨position, List.mem_range.mpr hi, by rw [hname]; rfl⟩

/-- The columns of two header rows of one width are those that the rows name. -/
theorem named_headings {first second : List String} (h : first.length = second.length) :
    Named first second (headings first second) where
  inOrder := headings_positions first second
  mem_iff position name := by
    rw [mem_headings, h, Nat.max_self]
    constructor
    · rintro ⟨hlt, hname⟩
      rw [List.getElem?_eq_getElem (by omega), List.getElem?_eq_getElem hlt] at hname ⊢
      exact ⟨_, _, rfl, rfl, heading_eq_some_iff.mp hname⟩
    · rintro ⟨upper, lower, hupper, hlower, hname⟩
      rw [hupper, hlower]
      exact ⟨(List.getElem?_eq_some_iff.mp hlower).1, heading_eq_some_iff.mpr hname⟩

/-! ## Rows -/

theorem dropBlankEnd_of_ne_nil {records : List (List Char)} (h : ∀ record ∈ records, record ≠ []) :
    dropBlankEnd records = records :=
  List.rdropWhile_eq_self_iff.mpr fun hne => by simpa using h _ (List.getLast_mem hne)

theorem mem_dropBlankEnd {records : List (List Char)} {record : List Char} (h : record ≠ []) :
    record ∈ dropBlankEnd records ↔ record ∈ records := by
  have hsplit : dropBlankEnd records ++ records.rtakeWhile (·.isEmpty) = records :=
    List.rdropWhile_append_rtakeWhile
  have hkept : record ∉ records.rtakeWhile (·.isEmpty) := fun hmem =>
    h (List.isEmpty_iff.mp (List.mem_rtakeWhile_imp hmem))
  conv_rhs => rw [← hsplit, List.mem_append]
  exact (or_iff_left hkept).symm

theorem dropBlankEnd_append (above below : List (List Char)) :
    dropBlankEnd (above ++ below) =
      if dropBlankEnd below = [] then dropBlankEnd above else above ++ dropBlankEnd below := by
  simp only [dropBlankEnd, List.reverse_append, List.dropWhile_append, List.isEmpty_iff,
    List.reverse_eq_nil_iff]
  split_ifs <;> simp

/-- Records are kept above one that is not blank. -/
theorem dropBlankEnd_append_cons {record : List Char} (h : record ≠ []) (above below : List (List Char)) :
    dropBlankEnd (above ++ record :: below) = above ++ record :: dropBlankEnd below := by
  have hsingle : dropBlankEnd [record] = [record] := dropBlankEnd_of_ne_nil (by simpa using h)
  have hrecord : dropBlankEnd (record :: below) = record :: dropBlankEnd below := by
    rw [← List.singleton_append, dropBlankEnd_append, hsingle]
    split_ifs with hbelow
    · rw [hbelow]
    · rfl
  rw [dropBlankEnd_append, hrecord, if_neg (List.cons_ne_nil _ _)]

/-- Records are kept above the last that is kept. -/
theorem dropBlankEnd_append_of_le {above below : List (List Char)}
    (h : above.length ≤ (dropBlankEnd (above ++ below)).length) :
    dropBlankEnd (above ++ below) = above ++ dropBlankEnd below := by
  rw [dropBlankEnd_append] at h ⊢
  split_ifs at h ⊢ with hbelow
  · rw [hbelow, List.append_nil]
    exact (List.rdropWhile_prefix _ _).eq_of_length_le h
  · rfl

/-- Only blank records are dropped, so that no row with a cell is. -/
theorem filter_cells_dropBlankEnd (records : List (List Char)) :
    ((dropBlankEnd records).map Csv.cells).filter (· ≠ []) =
      (records.map Csv.cells).filter (· ≠ []) := by
  have hsplit : dropBlankEnd records ++ records.rtakeWhile (·.isEmpty) = records :=
    List.rdropWhile_append_rtakeWhile
  have hblank : ((records.rtakeWhile (·.isEmpty)).map Csv.cells).filter (· ≠ []) = [] := by
    rw [List.filter_eq_nil_iff]
    intro row hrow
    obtain ⟨record, hrecord, rfl⟩ := List.mem_map.mp hrow
    have hnil : record = [] := List.isEmpty_iff.mp (List.mem_rtakeWhile_imp hrecord)
    rw [hnil]
    decide
  rw [← hsplit, List.map_append, List.filter_append, hsplit, hblank, List.append_nil]

theorem build_headers (first second : List String) (records : List (List Char)) :
    (build first second records).headers = distinct ((headings first second).map (·.2)) := rfl

/-- Every row of an export gets as many cells as there are columns, and is not fitted any more. -/
theorem build_rows (first second : List String) (records : List (List Char)) :
    (build first second records).rows = (dropBlankEnd records).map fun record =>
      (headings first second).map fun column => answer (Csv.cells record) column.1 := by
  simp only [build, ofRows, List.map_map]
  refine List.map_congr_left fun record _ => fit_of_length ?_
  simp [distinct_length]

/-- Below a name stand the cells of the records at the position of its column. -/
theorem cells_build {first second : List String} {position : Nat}
    {column : Nat × String}
    (hcolumn : (headings first second)[position]? = some column) (records : List (List Char)) :
    (build first second records).cells position =
      (dropBlankEnd records).map fun record => answer (Csv.cells record) column.1 := by
  rw [cells, build_rows, List.map_map]
  refine List.map_congr_left fun record _ => ?_
  simp [hcolumn]

/-- An import that succeeds has the two header rows and builds a table below them. -/
theorem exists_build_of_ofCsv {text : String} {t : Table} (h : ofCsv text = .ok t) :
    ∃ upper lower records, Csv.records text.toList = upper :: lower :: records ∧
      t = build (Csv.cells upper) (Csv.cells lower) records := by
  unfold ofCsv at h
  split at h
  · contradiction
  · contradiction
  · next upper lower records hrecords => exact ⟨upper, lower, records, hrecords, (Except.ok.inj h).symm⟩

/-- An import that gives some header and rows gives a table with them. -/
theorem exists_ofCsv_eq {text : String} {headers : List String} {rows : List (List String)}
    (h : (ofCsv text).toOption.map (fun t => (t.headers, t.rows)) = some (headers, rows)) :
    ∃ t, ofCsv text = .ok t ∧ t.headers = headers ∧ t.rows = rows := by
  cases ht : ofCsv text with
  | error row =>
    rw [ht] at h
    cases h
  | ok t =>
    rw [ht] at h
    obtain ⟨rfl, rfl⟩ := by simpa [Except.toOption] using h
    exact ⟨t, rfl, rfl, rfl⟩

theorem answer_eq (row : List String) (position : Nat) :
    answer row position =
      if row.getD position "" ∈ placeholders then "" else row.getD position "" := by
  rw [answer, List.getD_eq_getElem?_getD]
  cases row[position]? with
  | some cell => rfl
  | none => simp

end SurveyReport.Table
