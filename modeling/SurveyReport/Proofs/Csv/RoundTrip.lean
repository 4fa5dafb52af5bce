import SurveyReport.Proofs.Csv.Cut
import SurveyReport.Proofs.Table.Export

/-!
# Reading written tables

A table is written with every cell in quotes and is read as a survey export. What is read is the
columns with a name and, below them, the cells that were written.

Results:
* `scan_writeRow`: a written row is scanned to its end, into its cells.
* `records_write`: a written table has its rows as its records.
* `ofCsv_write`: the import of a written table.
-/

namespace SurveyReport

namespace Csv

/-! ## Scanning a written row -/

theorem foldr_push (s cell : List Char) (cells : List (List Char)) (rest : List Char) :
    s.foldr Scanned.push (cell :: cells, rest) = ((s ++ cell) :: cells, rest) := by
  induction s with
  | nil => rfl
  | cons c s ih => rw [List.foldr_cons, ih]; rfl

/-- Inside quotes an escaped text is read as it was before. -/
theorem scan_escape (s rest : List Char) :
    scan .quoted (escape s ++ rest) = s.foldr Scanned.push (scan .quoted rest) := by
  induction s with
  | nil => rfl
  | cons c s ih =>
    rw [escape, List.foldr_cons, ← ih]
    split
    · rename_i hc
      subst hc
      simp [scan, Text.isLineEnd]
    · rename_i hc
      simp [scan, hc]

theorem scan_writeCell (cell : String) : scan .opening (writeCell cell) = ([cell.toList], []) := by
  have h : scan .quoted ['"'] = ([[]], []) := rfl
  rw [writeCell, scan]
  · simp [Text.isLineEnd, scan_escape, h, foldr_push]
  · simp

theorem scan_writeCell_comma (cell : String) (rest : List Char) :
    scan .opening (writeCell cell ++ ',' :: rest) =
      (cell.toList :: (scan .opening rest).1, (scan .opening rest).2) := by
  have h : scan .quoted ('"' :: ',' :: rest) = (scan .opening rest).newCell := by simp [scan]
  rw [writeCell, List.cons_append, scan]
  · simp [Text.isLineEnd, scan_escape, h, Scanned.newCell, foldr_push]
  · simp

/-- A written row is scanned to its end, into its cells. -/
theorem scan_writeRow {row : List String} (h : row ≠ []) :
    scan .opening (writeRow [] row) = (row.map String.toList, []) := by
  induction row with
  | nil => exact absurd rfl h
  | cons cell row ih =>
    cases row with
    | nil => simpa [writeRow] using scan_writeCell cell
    | cons next row =>
      rw [writeRow_cons_cons, scan_writeCell_comma, ih (by simp)]
      rfl

/-! ## The records of a written table -/

/-- A written row begins and ends with a quote. -/
theorem exists_writeRow_eq {row : List String} (h : row ≠ []) :
    (∃ s, writeRow [] row = '"' :: s) ∧ ∃ s, writeRow [] row = s ++ ['"'] := by
  induction row with
  | nil => exact absurd rfl h
  | cons cell row ih =>
    cases row with
    | nil =>
      refine ⟨⟨escape cell.toList ++ ['"'], by simp [writeRow, writeCell]⟩, ?_⟩
      exact ⟨'"' :: escape cell.toList, by simp [writeRow, writeCell]⟩
    | cons next row =>
      obtain ⟨-, s, hs⟩ := ih (by simp)
      rw [writeRow_cons_cons, hs]
      refine ⟨⟨escape cell.toList ++ ['"'] ++ ',' :: (s ++ ['"']), by simp [writeCell]⟩, ?_⟩
      exact ⟨writeCell cell ++ ',' :: s, by simp⟩

theorem writeRow_ne_nil {row : List String} (h : row ≠ []) : writeRow [] row ≠ [] := by
  obtain ⟨⟨s, hs⟩, -⟩ := exists_writeRow_eq h
  simp [hs]

theorem cells_writeRow {row : List String} (h : row ≠ []) : cells (writeRow [] row) = row := by
  obtain ⟨⟨s, hs⟩, -⟩ := exists_writeRow_eq h
  have hscan := scan_writeRow h
  rw [hs] at hscan ⊢
  simp [cells, dropByteOrderMark, Text.isLineEnd, hscan]

theorem trimEnd_writeRow {eol : List Char} (heol : eol = ['\n'] ∨ eol = ['\r', '\n'])
    {row : List String} (h : row ≠ []) :
    Text.trimEnd Text.isLineEnd (writeRow eol row) = writeRow [] row := by
  obtain ⟨-, s, hs⟩ := exists_writeRow_eq h
  rw [writeRow_eq_append, hs]
  rcases heol with rfl | rfl <;> simp [Text.trimEnd, Text.isLineEnd]

theorem records_write {eol : List Char} (heol : eol = ['\n'] ∨ eol = ['\r', '\n'])
    {rows : List (List String)} (h : ∀ row ∈ rows, row ≠ []) :
    records (write eol rows) = rows.map (writeRow []) := by
  show (pieces (write eol rows)).map (Text.trimEnd Text.isLineEnd) = _
  rw [pieces_write heol, List.map_map]
  exact List.map_congr_left fun row hrow => trimEnd_writeRow heol (h row hrow)

end Csv

namespace Table

/-! ## The round trip -/

/-- **Round trip.** A table of two header rows and any data rows, all of one width, is written cell
    by cell. The import finds the columns that the header rows name and one row for each data row,
    with the cells as they were, placeholders apart. -/
theorem ofCsv_write {eol : List Char} (heol : eol = ['\n'] ∨ eol = ['\r', '\n']) {width : Nat}
    (hwidth : 1 ≤ width) {first second : List String} {data : List (List String)}
    (hrows : ∀ row ∈ first :: second :: data, row.length = width) :
    ∃ table columns, ofCsv (.ofList (Csv.write eol (first :: second :: data))) = .ok table ∧
      Named first second columns ∧ table.headers = distinct (columns.map (·.2)) ∧
      table.rows = data.map fun row => columns.map fun column =>
        if row.getD column.1 "" ∈ placeholders then "" else row.getD column.1 "" := by
  have hne : ∀ row ∈ first :: second :: data, row ≠ [] := by
    intro row hrow hnil
    have := hrows row hrow
    rw [hnil, List.length_nil] at this
    omega
  have hfirst : first ≠ [] := hne first (by simp)
  have hsecond : second ≠ [] := hne second (by simp)
  have hdata : ∀ row ∈ data, row ≠ [] := fun row hrow => hne row (by simp [hrow])
  have hlength : first.length = second.length := by
    rw [hrows first (by simp), hrows second (by simp)]
  refine ⟨build first second (data.map (Csv.writeRow [])), headings first second, ?_,
    named_headings hlength, build_headers _ _ _, ?_⟩
  · rw [ofCsv, String.toList_ofList, Csv.records_write heol hne]
    simp only [List.map_cons]
    rw [Csv.cells_writeRow hfirst, Csv.cells_writeRow hsecond]
  · have hkept : dropBlankEnd (data.map (Csv.writeRow [])) = data.map (Csv.writeRow []) := by
      refine dropBlankEnd_of_ne_nil ?_
      intro record hrecord
      obtain ⟨row, hrow, rfl⟩ := List.mem_map.mp hrecord
      exact Csv.writeRow_ne_nil (hdata row hrow)
    rw [build_rows, hkept, List.map_map]
    refine List.map_congr_left fun row hrow => ?_
    simp only [Function.comp_apply, Csv.cells_writeRow (hdata row hrow), answer_eq]

theorem ofCsv_write_two_columns :
    (∀ row ∈ [["Q", "Who"], ["Response", ""], ["a\nb", "\"x\", y"]], row.length = 2) ∧
      ∃ table columns,
        ofCsv (.ofList (Csv.write ['\r', '\n']
          [["Q", "Who"], ["Response", ""], ["a\nb", "\"x\", y"]])) = .ok table ∧
        Named ["Q", "Who"] ["Response", ""] columns ∧
        table.headers = distinct (columns.map (·.2)) ∧
        table.rows = [["a\nb", "\"x\", y"]].map fun row => columns.map fun column =>
          if row.getD column.1 "" ∈ placeholders then "" else row.getD column.1 "" := by
  have hrows : ∀ row ∈ [["Q", "Who"], ["Response", ""], ["a\nb", "\"x\", y"]], row.length = 2 := by
    decide
  exact ⟨hrows, ofCsv_write (.inr rfl) (by decide) hrows⟩

end Table

end SurveyReport
