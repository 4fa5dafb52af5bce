import SurveyReport.Text.Blank

/-!
# Cutting a CSV text into records

A record ends at the end of a line, unless a quoted cell is open there: then the next line belongs
to it too. A quoted cell is open after an odd number of quotes.

Results:
* `flatten_lines`: the lines of a text make up the text.
* `flatten_gather`: joining lines loses, adds and moves nothing.
-/

namespace SurveyReport.Csv

/-! ## Lines -/

/-- The lines of a text, each with the newline that ends it. -/
def lines : List Char → List (List Char)
  | [] => []
  | c :: rest =>
    if c = '\n' then [c] :: lines rest
    else
      match lines rest with
      | [] => [[c]]
      | line :: others => (c :: line) :: others

theorem flatten_lines (text : List Char) : (lines text).flatten = text := by
  induction text with
  | nil => rfl
  | cons c rest ih =>
    unfold lines
    split
    · simp [ih]
    · split <;> next h => simpa [h] using ih

/-! ## Joining lines -/

/-- Whether the line opens or closes a quoted cell. -/
def switches (line : List Char) : Bool := line.count '"' % 2 == 1

/-- Joins lines as long as a quoted cell is open. `held` is the beginning of the current record. -/
def gather (held : List Char) (quoted : Bool) : List (List Char) → List (List Char)
  | [] => if held.isEmpty then [] else [held]
  | line :: rest =>
    if quoted != switches line then gather (held ++ line) true rest
    else (held ++ line) :: gather [] false rest

theorem flatten_gather (held : List Char) (quoted : Bool) (ls : List (List Char)) :
    (gather held quoted ls).flatten = held ++ ls.flatten := by
  induction ls generalizing held quoted with
  | nil => cases held <;> simp [gather]
  | cons line rest ih =>
    unfold gather
    split <;> simp [ih]

/-- The records of a text, each without the line ends it ends with. A blank line is a blank
    record. -/
def records (text : List Char) : List (List Char) :=
  (gather [] false (lines text)).map (Text.trimEnd Text.isLineEnd)

end SurveyReport.Csv
