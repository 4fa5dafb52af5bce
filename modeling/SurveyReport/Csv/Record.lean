import SurveyReport.Text.Blank

/-!
# The cells of a record

Commas separate the cells. A cell that begins with a quote is quoted: inside it commas and line ends
are text and a doubled quote is one quote; what follows the closing quote belongs to the cell too. A
quote anywhere else is text. Every cell is written in quotes, with each quote inside it doubled, so
that any text can be a cell.

Results:
* `scan_ne_nil`: a record that is scanned has at least one cell.
* `length_scan_le`: what follows a record is no longer than the text.
* `count_escape`: a quote is written twice and everything else once.
-/

namespace SurveyReport.Csv

/-! ## Scanning -/

/-- Where a scan stands: before a cell, inside an unquoted one, inside a quoted one, or behind a
    quote inside a quoted one. -/
inductive Place where
  | opening
  | bare
  | quoted
  | quoteSeen
  deriving DecidableEq, Repr

/-- Cells scanned, the first of them unfinished to the left, and the text behind the record. -/
abbrev Scanned := List (List Char) × List Char

/-- Puts a character in front of the first cell. -/
def Scanned.push (c : Char) : Scanned → Scanned
  | ([], rest) => ([[c]], rest)
  | (cell :: cells, rest) => ((c :: cell) :: cells, rest)

/-- Puts an empty cell in front. -/
def Scanned.newCell : Scanned → Scanned
  | (cells, rest) => ([] :: cells, rest)

/-- The cells from a place within a record on, and the text behind the record. -/
def scan : Place → List Char → Scanned
  | _, [] => ([[]], [])
  | .quoted, c :: rest => if c = '"' then scan .quoteSeen rest else (scan .quoted rest).push c
  | place, c :: rest =>
    if c = ',' then (scan .opening rest).newCell
    else if Text.isLineEnd c then ([[]], rest)
    else if c = '"' && place = .opening then scan .quoted rest
    else if c = '"' && place = .quoteSeen then (scan .quoted rest).push '"'
    else (scan .bare rest).push c

/-- A text without the byte order mark at its head. -/
def dropByteOrderMark : List Char → List Char
  | '\uFEFF' :: rest => rest
  | text => text

/-- The cells of the first record of a text, blank lines before it left out; none if there is no
    record. -/
def cells (text : List Char) : List String :=
  match (dropByteOrderMark text).dropWhile Text.isLineEnd with
  | [] => []
  | c :: rest => (scan .opening (c :: rest)).1.map .ofList

theorem Scanned.push_ne_nil (c : Char) (s : Scanned) : (s.push c).1 ≠ [] := by
  obtain ⟨_ | ⟨cell, cells⟩, rest⟩ := s <;> simp [push]

theorem scan_ne_nil (place : Place) (text : List Char) : (scan place text).1 ≠ [] := by
  fun_induction scan place text <;> simp_all [Scanned.push_ne_nil, Scanned.newCell]

@[simp] theorem Scanned.push_snd (c : Char) (s : Scanned) : (s.push c).2 = s.2 := by
  obtain ⟨_ | ⟨cell, cells⟩, rest⟩ := s <;> rfl

theorem length_scan_le (place : Place) (text : List Char) :
    (scan place text).2.length ≤ text.length := by
  fun_induction scan place text <;> simp_all [Scanned.newCell] <;> omega

/-! ## All records of a text -/

/-- The records that `fuel` scans find in a text, blank lines left out. -/
def recordsFor : (fuel : Nat) → List Char → List (List String)
  | 0, _ => []
  | fuel + 1, text =>
    match text.dropWhile Text.isLineEnd with
    | [] => []
    | c :: rest =>
      let (cells, behind) := scan .opening (c :: rest)
      cells.map .ofList :: recordsFor fuel behind

/-- The records of a whole text, read from front to back. -/
def readAll (text : List Char) : List (List String) :=
  recordsFor (text.length + 1) (dropByteOrderMark text)

/-! ## Writing -/

/-- A text with each quote doubled. -/
def escape : List Char → List Char
  | [] => []
  | c :: rest => if c = '"' then '"' :: '"' :: escape rest else c :: escape rest

/-- A cell in quotes. -/
def writeCell (cell : String) : List Char := '"' :: (escape cell.toList ++ ['"'])

/-- A row of cells, ended by `eol`. -/
def writeRow (eol : List Char) (row : List String) : List Char :=
  [','].intercalate (row.map writeCell) ++ eol

/-- The rows of a table, one after the other. -/
def write (eol : List Char) (rows : List (List String)) : List Char :=
  (rows.map (writeRow eol)).flatten

theorem count_escape (x : Char) (s : List Char) :
    (escape s).count x = (if x = '"' then 2 else 1) * s.count x := by
  induction s with
  | nil => rfl
  | cons c rest ih => by_cases h : c = '"' <;> by_cases hx : x = c <;> grind [escape]

end SurveyReport.Csv
