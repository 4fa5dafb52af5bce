import SurveyReport.Column
import SurveyReport.Table
import SurveyReport.Text.Order

/-!
# Tallying a table

The cells of a column are counted. An empty cell is an unknown answer, and a cell that repeats the
name of its column is none at all. The answers are sorted by code points.

Results:
* `total_ofCells`: the total is the known and the unknown answers.
* `length_columns`: a table has one column for each name.
-/

namespace SurveyReport

namespace Column

/-- Counts one more answer; the categories stay sorted. -/
def addAnswer (answer : String) : List Category → List Category
  | [] => [⟨answer, 1⟩]
  | c :: rest =>
    if answer = c.name then { c with count := c.count + 1 } :: rest
    else if Text.precedes answer.toList c.name.toList then ⟨answer, 1⟩ :: c :: rest
    else c :: addAnswer answer rest

/-- The distinct answers, sorted, each with its number. -/
def tally (answers : List String) : List Category := answers.foldr addAnswer []

/-- The column of the given cells. -/
def ofCells (index : Nat) (header : String) (cells : List String) : Column :=
  let categories := tally (cells.filter fun cell => cell ≠ "" ∧ cell ≠ header)
  let unknown := cells.count ""
  { name := header
    label := labelAt index
    categories
    total := unknown + countAll categories
    unknown }

theorem total_ofCells (index : Nat) (header : String) (cells : List String) :
    (ofCells index header cells).total =
      (ofCells index header cells).unknown + (ofCells index header cells).answered := rfl

end Column

/-- The counted answers of every column of a table. -/
def Table.columns (t : Table) : List Column :=
  t.headers.mapIdx fun index header => Column.ofCells index header (t.cells index)

theorem Table.length_columns (t : Table) : t.columns.length = t.headers.length := by
  simp [columns]

end SurveyReport
