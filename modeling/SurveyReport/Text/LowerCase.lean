import SurveyReport.Text.CaseTable

/-!
# Lower case

Texts are compared without regard to case by their lower-case forms. The map is that of Unicode:
one character to one, except that the capital dotted I keeps its dot as a mark of its own, and that
a capital sigma becomes a final sigma at the end of a word.

Results:
* `lower_ascii`: on ASCII letters the map is the usual one.
-/

namespace SurveyReport.Text

/-- Whether the number lies in one of the ranges. -/
def inRanges (ranges : List (Nat × Nat)) (n : Nat) : Bool :=
  ranges.any fun (first, last) => first ≤ n && n ≤ last

/-- The lower-case form of one character, whatever stands around it. -/
def lowerChar (c : Char) : List Char :=
  let n := c.toNat
  if n < 0x80 then [c.toLower]
  else if n = 0x130 then ['i', '\u0307']
  else
    match caseRuns.find? fun r => r.first ≤ n && n ≤ r.last && (n - r.first) % r.step == 0 with
    | some r => [Char.ofNat (n + r.shift).toNat]
    | none => [c]

/-- Whether the first character that case rules do not look past is a cased letter. -/
def meetsCased (s : List Char) : Bool :=
  match s.dropWhile (inRanges caseIgnorableRanges ·.toNat) with
  | [] => false
  | c :: _ => inRanges casedRanges c.toNat

/-- A sigma ends a word when a cased letter comes before it and none comes after it. `before` is
    read backwards. -/
def endsWord (before after : List Char) : Bool := meetsCased before && !meetsCased after

/-- The lower-case form of the second text, when it follows the first, which is read backwards. -/
def lowerAfter (before : List Char) : List Char → List Char
  | [] => []
  | c :: rest =>
    (if c = 'Σ' then [if endsWord before rest then 'ς' else 'σ'] else lowerChar c) ++
      lowerAfter (c :: before) rest

/-- The lower-case form of a text. -/
def lower (s : String) : String := .ofList (lowerAfter [] s.toList)

/-- The letters of ASCII in lower case, all else as it is. -/
def lowerAscii (s : String) : List Char := s.toList.map Char.toLower

theorem lowerChar_ascii {c : Char} (h : c.toNat < 0x80) : lowerChar c = [c.toLower] := by
  simp [lowerChar, h]

/-- On ASCII text the lower-case form is that of each letter. -/
theorem lower_ascii (before s : List Char) (h : ∀ c ∈ s, c.toNat < 0x80) :
    lowerAfter before s = s.map Char.toLower := by
  induction s generalizing before with
  | nil => rfl
  | cons c rest ih =>
    have hc : c ≠ 'Σ' := by rintro rfl; exact absurd (h 'Σ' (by simp)) (by decide)
    simp [lowerAfter, hc, lowerChar_ascii (h c (by simp)), ih _ fun d hd => h d (by simp [hd])]

end SurveyReport.Text
