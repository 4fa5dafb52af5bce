/-!
# Tables

A table has named columns and rows of cells. Every row has one cell for each column: rows that are
too short are filled up with empty cells, and longer ones are cut.

Results:
* `fit_length`: a fitted row has the width asked for.
* `length_of_mem_rows`: every row of a table is as wide as its header.
-/

namespace SurveyReport

/-- A row with exactly `width` cells. -/
def Table.fit (width : Nat) (row : List String) : List String :=
  row.take width ++ List.replicate (width - row.length) ""

theorem Table.fit_length (width : Nat) (row : List String) : (fit width row).length = width := by
  simp [fit]; omega

theorem Table.fit_of_length {width : Nat} {row : List String} (h : row.length = width) :
    fit width row = row := by
  subst h; simp [fit]

/-- Column names, and rows of cells below them. -/
structure Table where
  headers : List String
  rows : List (List String)
  length_of_mem_rows : ∀ row ∈ rows, row.length = headers.length

namespace Table

/-- The table with the given rows, each fitted to the header. -/
def ofRows (headers : List String) (rows : List (List String)) : Table where
  headers
  rows := rows.map (fit headers.length)
  length_of_mem_rows := by simp [fit_length]

/-- The position of the first column with that name. -/
def index? (t : Table) (header : String) : Option Nat := t.headers.findIdx? (· == header)

/-- The cell in a row under a name. -/
def get? (t : Table) (row : Nat) (header : String) : Option String := do
  let column ← t.index? header
  let cells ← t.rows[row]?
  cells[column]?

/-- The cells of one column, from top to bottom. -/
def cells (t : Table) (column : Nat) : List String := t.rows.map (·.getD column "")

end Table

end SurveyReport
