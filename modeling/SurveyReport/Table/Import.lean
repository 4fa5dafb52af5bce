import SurveyReport.Csv.Cut
import SurveyReport.Csv.Record
import SurveyReport.Table

/-!
# Importing a survey export

The first two records of an export name the columns. The second names a column unless its cell is
blank or a placeholder; then the first does; a column that neither names is left out. A name that is
taken already gets a suffix. All further records are rows.

Results:
* `distinct_length`: making names distinct keeps their number.
* `ofCsv_eq_error_iff`: an import fails exactly when there are fewer than two records.
-/

namespace SurveyReport

/-- One of the two records that name the columns. -/
inductive HeaderRow where
  | first
  | second
  deriving DecidableEq, Repr

/-- The word for a header row. -/
def HeaderRow.name : HeaderRow → String
  | .first => "first"
  | .second => "second"

namespace Table

/-! ## Column names -/

/-- The cells that an export puts where there is no name and no answer. -/
def placeholders : List String := ["Response", "Open-Ended Response"]

/-- The name of a column, if it has one: its cells in the second and the first header row. -/
def heading (first second : Option String) : Option String :=
  let primary := Text.strip (second.getD "")
  let fallback := Text.strip (first.getD "")
  if primary ≠ "" ∧ primary ∉ placeholders then some primary
  else if fallback ≠ "" then some fallback
  else none

/-- The columns that have a name: their positions in the export, and their names. -/
def headings (first second : List String) : List (Nat × String) :=
  (List.range (max first.length second.length)).filterMap fun i =>
    (heading first[i]? second[i]?).map (i, ·)

/-- The suffix that tells columns of one name apart. -/
def copySuffix : String := "copy"

/-- The name with as few suffixes as keep it apart from the names in use, `fuel` at most. -/
def freshName (used : List String) : (fuel : Nat) → String → String
  | 0, name => name
  | fuel + 1, name => if name ∈ used then freshName used fuel (name ++ copySuffix) else name

/-- Adds a name to the names in use. As many suffixes as there are names in use suffice. -/
def addName (used : List String) (name : String) : List String :=
  used ++ [freshName used used.length name]

/-- The names, with suffixes where a name is in use already. -/
def distinct (names : List String) : List String := names.foldl addName []

theorem freshName_of_not_mem {used : List String} {name : String} (h : name ∉ used) (fuel : Nat) :
    freshName used fuel name = name := by
  cases fuel <;> simp [freshName, h]

theorem foldl_addName_length (used names : List String) :
    (names.foldl addName used).length = used.length + names.length := by
  induction names generalizing used with
  | nil => rfl
  | cons name names ih => rw [List.foldl_cons, ih]; simp [addName]; omega

theorem distinct_length (names : List String) : (distinct names).length = names.length := by
  simp [distinct, foldl_addName_length]

/-! ## Rows -/

/-- The cell of a row at a position of the export. A placeholder is no answer. -/
def answer (row : List String) (position : Nat) : String :=
  match row[position]? with
  | some cell => if cell ∈ placeholders then "" else cell
  | none => ""

/-- Drops the blank records at the end. -/
def dropBlankEnd (records : List (List Char)) : List (List Char) :=
  (records.reverse.dropWhile (·.isEmpty)).reverse

/-- The table of an export with the two header rows and the further records. -/
def build (first second : List String) (records : List (List Char)) : Table :=
  let columns := headings first second
  ofRows (distinct (columns.map (·.2))) <|
    (dropBlankEnd records).map fun record =>
      let row := Csv.cells record
      columns.map fun (position, _) => answer row position

/-- Reads a survey export; without two header rows it says which one is missing. -/
def ofCsv (text : String) : Except HeaderRow Table :=
  match Csv.records text.toList with
  | [] => .error .first
  | [_] => .error .second
  | first :: second :: records => .ok (build (Csv.cells first) (Csv.cells second) records)

theorem ofCsv_eq_error_iff (text : String) :
    (∃ row, ofCsv text = .error row) ↔ (Csv.records text.toList).length < 2 := by
  unfold ofCsv
  split <;> simp_all

end Table

end SurveyReport
