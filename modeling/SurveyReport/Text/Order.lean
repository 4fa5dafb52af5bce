/-!
# The order of texts

Texts are sorted by their code points, as their encoded bytes are.

Results:
* `precedes_irrefl`, `precedes_trans`, `precedes_total`: this is a strict linear order.
-/

namespace SurveyReport.Text

/-- Whether the first text comes before the second: the lesser code point decides at the first
    difference, and a text comes before its own continuations. -/
def precedes : List Char → List Char → Bool
  | _, [] => false
  | [], _ :: _ => true
  | a :: s, b :: t => a.toNat < b.toNat || (a == b && precedes s t)

theorem precedes_irrefl (s : List Char) : precedes s s = false := by
  induction s with
  | nil => rfl
  | cons a s ih => simp [precedes, ih]

theorem precedes_trans {s t u : List Char} (hst : precedes s t) (htu : precedes t u) :
    precedes s u := by
  induction s generalizing t u with
  | nil => cases t <;> cases u <;> simp_all [precedes]
  | cons a s ih =>
    cases t with
    | nil => simp [precedes] at hst
    | cons b t =>
      cases u with
      | nil => simp [precedes] at htu
      | cons c u =>
        simp only [precedes, Bool.or_eq_true, decide_eq_true_eq, Bool.and_eq_true, beq_iff_eq] at *
        rcases hst with h | ⟨rfl, h⟩ <;> rcases htu with h' | ⟨rfl, h'⟩
        · exact .inl (by omega)
        · exact .inl h
        · exact .inl h'
        · exact .inr ⟨rfl, ih h h'⟩

theorem precedes_total (s t : List Char) : precedes s t ∨ s = t ∨ precedes t s := by
  induction s generalizing t with
  | nil => cases t <;> simp [precedes]
  | cons a s ih =>
    cases t with
    | nil => simp [precedes]
    | cons b t =>
      have hc : a.toNat < b.toNat ∨ a = b ∨ b.toNat < a.toNat := by
        rcases Nat.lt_trichotomy a.toNat b.toNat with h | h | h
        · exact .inl h
        · exact .inr (.inl (Char.toNat_inj.mp h))
        · exact .inr (.inr h)
      rcases hc with h | rfl | h
      · simp [precedes, h]
      · rcases ih t with h | rfl | h <;> simp [precedes, *]
      · simp [precedes, h]

end SurveyReport.Text
