/-!
# Blank characters, trimming and searching

Text is scanned as a list of characters. Trimming cuts the run of unwanted characters at each end
and leaves everything between the first and the last wanted one alone.

Results:
* `trimEnd_nil`, `trimEnd_concat_of_pos`, `trimEnd_concat_of_neg`: how trimming meets the last
  character.
* `occurs_nil`, `occurs_cons`: a word occurs in a text when it starts some tail of it.
* `eq_of_cutAt`: a cut loses nothing.
-/

namespace SurveyReport.Text

/-! ## Classes of characters -/

/-- White space: the blanks of ASCII and of the Unicode space separators, the line and paragraph
    separators, and the next-line control. -/
def isBlank (c : Char) : Bool :=
  let n := c.toNat
  (9 ≤ n && n ≤ 13) || n == 0x20 || n == 0x85 || n == 0xa0 || n == 0x1680 ||
    (0x2000 ≤ n && n ≤ 0x200a) || n == 0x2028 || n == 0x2029 || n == 0x202f || n == 0x205f ||
    n == 0x3000

/-- The two characters that end a line. -/
def isLineEnd (c : Char) : Bool := c == '\r' || c == '\n'

/-! ## Trimming -/

/-- `s` without its longest tail of characters in `p`. -/
def trimEnd (p : Char → Bool) (s : List Char) : List Char := (s.reverse.dropWhile p).reverse

/-- `s` without the characters in `p` at either end. -/
def trim (p : Char → Bool) (s : List Char) : List Char := trimEnd p (s.dropWhile p)

/-- A text without the blanks at either end. -/
def strip (s : String) : String := .ofList (trim isBlank s.toList)

/-- `s` neither begins nor ends with a character in `p`. -/
def Trimmed (p : Char → Bool) (s : List Char) : Prop :=
  (∀ c, s.head? = some c → ¬ p c) ∧ ∀ c, s.getLast? = some c → ¬ p c

@[simp] theorem trimEnd_nil (p : Char → Bool) : trimEnd p [] = [] := rfl

theorem trimEnd_concat_of_pos {p : Char → Bool} {c : Char} (h : p c) (s : List Char) :
    trimEnd p (s ++ [c]) = trimEnd p s := by
  simp [trimEnd, h]

theorem trimEnd_concat_of_neg {p : Char → Bool} {c : Char} (h : p c = false) (s : List Char) :
    trimEnd p (s ++ [c]) = s ++ [c] := by
  simp [trimEnd, h]

/-! ## Searching -/

/-- Whether `word` stands somewhere in the text. -/
def occurs (word : List Char) : List Char → Bool
  | [] => word.isEmpty
  | c :: rest => word.isPrefixOf (c :: rest) || occurs word rest

/-- What precedes the first `mark` and what follows it, if it stands in the text at all. -/
def cutAt (mark : List Char) : List Char → Option (List Char × List Char)
  | [] => if mark.isEmpty then some ([], []) else none
  | c :: rest =>
    if mark.isPrefixOf (c :: rest) then some ([], (c :: rest).drop mark.length)
    else (cutAt mark rest).map fun (before, after) => (c :: before, after)

@[simp] theorem occurs_nil (word : List Char) : occurs word [] = word.isEmpty := rfl

theorem occurs_cons (word : List Char) (c : Char) (rest : List Char) :
    occurs word (c :: rest) = (word.isPrefixOf (c :: rest) || occurs word rest) := rfl

theorem eq_of_cutAt {mark s before after : List Char} (h : cutAt mark s = some (before, after)) :
    s = before ++ mark ++ after := by
  induction s generalizing before with
  | nil =>
    simp only [cutAt, Option.ite_none_right_eq_some, List.isEmpty_iff, Option.some.injEq,
      Prod.mk.injEq] at h
    obtain ⟨rfl, rfl, rfl⟩ := h
    rfl
  | cons c rest ih =>
    rw [cutAt] at h
    split at h
    · rename_i hp
      obtain ⟨tail, ht⟩ := List.isPrefixOf_iff_prefix.mp hp
      obtain ⟨rfl, rfl⟩ := by simpa using h
      simp [← ht]
    · obtain ⟨cut, hc, he⟩ := Option.map_eq_some_iff.mp h
      obtain ⟨rfl, rfl⟩ := by simpa using he
      simp [ih hc]

end SurveyReport.Text
