/-!
# Columns of counted answers

A column holds the distinct answers to one question, each with the number of rows that gave it, and
the number of rows that gave none. Columns are labelled A, B, …, Z, AA, AB, … by their position: the
positions, counted from one, written with the digits A = 1 to Z = 26 and no zero.

Results:
* `read_labelLetters`: reading a label gives the position back.
-/

namespace SurveyReport

/-- A distinct answer and how often it was given. -/
structure Category where
  name : String
  count : Nat
  deriving DecidableEq, Repr

/-- The answers to one question. `label` is the letter of the column's position, `unknown` counts
    the rows without an answer, `total` all rows that count. -/
structure Column where
  name : String
  label : String
  categories : List Category
  total : Nat
  unknown : Nat
  deriving DecidableEq, Repr

namespace Column

/-! ## Counts -/

/-- How often some answers were given in all. -/
def countAll (categories : List Category) : Nat := categories.foldr (fun a n => a.count + n) 0

/-- The number of rows with an answer. -/
def answered (c : Column) : Nat := countAll c.categories

/-- The first category with that name. -/
def category? (c : Column) (name : String) : Option Category := c.categories.find? (·.name == name)

/-- How often an answer was given. -/
def countOf (c : Column) (name : String) : Nat := ((c.category? name).map (·.count)).getD 0

/-! ## Labels -/

/-- The letter of a digit: A for 0, up to Z for 25. -/
def letter (digit : Nat) : Char := Char.ofNat ('A'.toNat + digit)

/-- A positive number with the digits A to Z; nothing for zero. -/
def labelLetters (n : Nat) : List Char :=
  if n = 0 then [] else labelLetters ((n - 1) / 26) ++ [letter ((n - 1) % 26)]
termination_by n
decreasing_by omega

/-- The label of the column at a position, counted from zero. -/
def labelAt (index : Nat) : String := .ofList (labelLetters (index + 1))

/-- The number that letters write: each one counts 1 to 26 in its place. -/
def readLetters (letters : List Char) : Nat :=
  letters.foldl (fun n c => 26 * n + (c.toNat - 'A'.toNat + 1)) 0

theorem toNat_letter {digit : Nat} (h : digit < 26) : (letter digit).toNat = 65 + digit := by
  have hv : (65 + digit).isValidChar := .inl (by omega)
  rw [letter, show 'A'.toNat + digit = 65 + digit from rfl, Char.ofNat, dif_pos hv]
  rfl

theorem read_labelLetters (n : Nat) : readLetters (labelLetters n) = n := by
  induction n using Nat.strongRecOn with
  | ind n ih =>
    rw [labelLetters]
    split
    · simp_all [readLetters]
    · have h := ih ((n - 1) / 26) (by omega)
      simp only [readLetters, List.foldl_append, List.foldl_cons, List.foldl_nil] at h ⊢
      rw [h, toNat_letter (Nat.mod_lt _ (by decide))]
      simp
      omega

end Column

end SurveyReport
