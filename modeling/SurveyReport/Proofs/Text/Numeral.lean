import Mathlib.Data.List.Induction
import Mathlib.Data.Nat.Digits.Lemmas
import SurveyReport.Decimal.Layout
import SurveyReport.Directive.Field

/-!
# Numbers written in digits

A numeral in a base is the sum of its digits, each times the power of the base at its position. A reader
that goes from front to back, and multiplies by the base before each digit, comes to the same number.
Decimal digits are read from a field so, and a whole number is written in them.

Results:
* `placeSum_concat`: one more digit at the end.
* `foldl_eq_placeSum`: reading from front to back.
* `digits?_eq_some_iff`: which decimal digits write a number, and which one.
* `placeSum_natural`, `digits?_natural`: a whole number is read as it was written.
-/

namespace SurveyReport

/-! ## Any base -/

namespace Text

variable {base : Nat} {value : Char → Nat}

/-- The number that digits write in a base: each of them counts its value times the power of the base
    at its position, and positions are counted from the end. -/
def placeSum (base : Nat) (value : Char → Nat) (digits : List Char) : Nat :=
  ((digits.reverse.map value).mapIdx fun position n => n * base ^ position).sum

/-- One more digit at the end moves the others up by one position. -/
theorem placeSum_concat (digits : List Char) (c : Char) :
    placeSum base value (digits ++ [c]) = base * placeSum base value digits + value c := by
  rw [placeSum, placeSum, ← Nat.ofDigits_eq_sum_mapIdx, ← Nat.ofDigits_eq_sum_mapIdx,
    List.reverse_append, List.reverse_singleton, List.singleton_append, List.map_cons,
    Nat.ofDigits_cons, Nat.add_comm]

/-- A numeral is read from front to back. -/
theorem foldl_eq_placeSum (digits : List Char) :
    digits.foldl (fun n c => base * n + value c) 0 = placeSum base value digits := by
  induction digits using List.reverseRecOn with
  | nil => rfl
  | append_singleton digits c ih => rw [List.foldl_append, ih, placeSum_concat]; rfl

end Text

/-! ## Decimal digits -/

namespace Field

/-- What a decimal digit counts. -/
def digitValue (c : Char) : Nat := c.toNat - '0'.toNat

variable {s : List Char} {c : Char} {bound n : Nat}

theorem isDigit_iff : c.isDigit ↔ '0' ≤ c ∧ c ≤ '9' := by
  rw [Char.isDigit_iff_toNat]
  exact (and_congr UInt32.le_iff_toNat_le UInt32.le_iff_toNat_le).symm

/-- Digits write a number if there is one at least, and the number is not above the bound. -/
theorem digits?_eq_some_iff :
    digits? bound s = some n ↔
      s ≠ [] ∧ (∀ c ∈ s, c.isDigit) ∧ Text.placeSum 10 digitValue s = n ∧ n ≤ bound := by
  have hvalue : Nat.ofDigitChars 10 s 0 = Text.placeSum 10 digitValue s := Text.foldl_eq_placeSum s
  by_cases hne : s = []
  · simp [digits?, hne]
  · by_cases hall : ∀ c ∈ s, c.isDigit
    · have hread : digits? bound s =
          if Text.placeSum 10 digitValue s ≤ bound then some (Text.placeSum 10 digitValue s) else none := by
        rw [digits?, if_neg (by simpa [hne] using hall), hvalue]
      rw [hread, Option.ite_none_right_eq_some, Option.some_inj]
      constructor
      · rintro ⟨hle, rfl⟩
        exact ⟨hne, hall, rfl, hle⟩
      · rintro ⟨-, -, rfl, hle⟩
        exact ⟨hle, rfl⟩
    · have hnone : digits? bound s = none := by
        rw [digits?, if_pos (by simpa [hne] using hall)]
      simp [hnone, hall]

theorem isDigit_of_mem_natural (h : c ∈ Decimal.natural n) : c.isDigit :=
  Nat.isDigit_of_mem_toDigits (by decide) (by decide) h

theorem placeSum_natural (n : Nat) : Text.placeSum 10 digitValue (Decimal.natural n) = n :=
  (Text.foldl_eq_placeSum _).symm.trans (Nat.ofDigitChars_toDigits (by decide) (by decide))

theorem digits?_natural (h : n ≤ bound) :
    digits? bound (Decimal.natural n) = some n :=
  digits?_eq_some_iff.mpr
    ⟨Nat.toDigits_ne_nil, fun _ hc => isDigit_of_mem_natural hc, placeSum_natural n, h⟩

end Field

end SurveyReport
