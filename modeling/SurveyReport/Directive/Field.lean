import SurveyReport.Palette
import SurveyReport.Text.Blank

/-!
# The fields of a directive

Semicolons separate the fields. A field counts without the blanks and the closing braces around it.
It may spell a whole number, or a colour as three numbers with commas between them.

Results:
* `clean_nil`: a blank field is cleaned to nothing.
* `wholeNumber?_lt`: a number in a field fits 32 bits.
-/

namespace SurveyReport.Field

/-- The fields of a directive, the empty ones too. -/
def split (source : List Char) : List (List Char) := source.splitOn ';'

/-- What a field loses at its ends. -/
def isPadding (c : Char) : Bool := Text.isBlank c || c == '\x7d'

/-- A field without its padding. -/
def clean (field : List Char) : List Char := Text.trim isPadding field

@[simp] theorem clean_nil : clean [] = [] := rfl

/-- The brace of the one or the other direction. -/
def isBrace (c : Char) : Bool := c == '\x7b' || c == '\x7d'

/-- A directive without the braces around it. -/
def stripMarkers (raw : List Char) : List Char := Text.trim isBrace raw

/-- The texts of the cleaned fields that are not empty. -/
def names (fields : List (List Char)) : List String :=
  ((fields.map clean).filter (!·.isEmpty)).map .ofList

/-! ## Numbers -/

/-- The number that digits write, if it is at most `bound`. -/
def digits? (bound : Nat) (digits : List Char) : Option Nat :=
  if digits.isEmpty || !digits.all Char.isDigit then none
  else
    let n := Nat.ofDigitChars 10 digits 0
    if n ≤ bound then some n else none

/-- The number of a field that holds nothing but digits. -/
def wholeNumber? (field : List Char) : Option Nat := digits? (UInt32.size - 1) field

theorem wholeNumber?_lt {field : List Char} {n : Nat} (h : wholeNumber? field = some n) :
    n < UInt32.size := by
  unfold wholeNumber? digits? at h
  split at h
  · contradiction
  · simp only [Option.ite_none_right_eq_some, Option.some.injEq, UInt32.size] at h ⊢
    omega

/-! ## Colours -/

/-- The blanks that may stand around a part of a colour. -/
def isColourBlank (c : Char) : Bool := c == ' ' || c == '\t' || c == '\r' || c == '\n'

/-- A part of a colour at the head of the text, the blanks around it skipped. -/
def colourPart? (s : List Char) : Option (UInt8 × List Char) := do
  let s := s.dropWhile isColourBlank
  let n ← digits? 255 (s.takeWhile Char.isDigit)
  some (UInt8.ofNat n, (s.dropWhile Char.isDigit).dropWhile isColourBlank)

/-- The text behind a comma that must come first. -/
def behindComma? : List Char → Option (List Char)
  | ',' :: rest => some rest
  | _ => none

/-- The colour that a field spells. -/
def colour? (field : List Char) : Option Colour := do
  let (red, s) ← colourPart? field
  let (green, s) ← colourPart? (← behindComma? s)
  let (blue, s) ← colourPart? (← behindComma? s)
  if s.isEmpty then some ⟨red, green, blue⟩ else none

end SurveyReport.Field
