import SurveyReport.Text.Blank
import SurveyReport.Text.LowerCase

/-!
# Lower case inside a text

What stands around a text has a say in its lower-case form, as the form of a sigma depends on the
letters before and behind it. Characters that are no letters, and that case rules do not look past, keep
the two sides of a text apart from each other.

Results:
* `occurs_iff_infix`: a word occurs in a text when it is a part of it.
* `lowerAfter_infix`: the lower-case form of a text is a part of that of the text in its padding.
-/

namespace SurveyReport.Text

theorem occurs_iff_infix (word s : List Char) : occurs word s ↔ word <:+: s := by
  induction s with
  | nil => simp
  | cons c s ih => rw [occurs_cons, Bool.or_eq_true, List.isPrefixOf_iff_prefix, ih, List.infix_cons_iff]

/-! ## Characters that keep letters apart -/

/-- What lies in one of some ranges lies in no range that is apart from all of them. -/
theorem inRanges_eq_false {ranges others : List (Nat × Nat)}
    (h : ∀ r ∈ ranges, ∀ t ∈ others, r.2 < t.1 ∨ t.2 < r.1) {n : Nat} (hn : inRanges ranges n) :
    inRanges others n = false := by
  obtain ⟨r, hr, hin⟩ := List.any_eq_true.mp hn
  simp only [Bool.and_eq_true, decide_eq_true_eq] at hin
  refine List.any_eq_false.mpr fun t ht => ?_
  have hapart := h r hr t ht
  simp only [Bool.and_eq_true, decide_eq_true_eq]
  omega

/-- The character is no letter, and case rules do not look past it. -/
def Parts (c : Char) : Prop :=
  inRanges caseIgnorableRanges c.toNat = false ∧ inRanges casedRanges c.toNat = false

variable {s t : List Char}

theorem meetsCased_of_parts (h : ∀ c ∈ t, Parts c) : meetsCased t = false := by
  cases t with
  | nil => rfl
  | cons c t =>
    obtain ⟨hignored, hcased⟩ := h c (by simp)
    simp [meetsCased, hignored, hcased]

/-- No letter is met behind a character that keeps letters apart. -/
theorem meetsCased_append (h : ∀ c ∈ t, Parts c) (s : List Char) :
    meetsCased (s ++ t) = meetsCased s := by
  induction s with
  | nil => exact meetsCased_of_parts h
  | cons c s ih =>
    by_cases hignored : inRanges caseIgnorableRanges c.toNat
    · simpa [meetsCased, hignored] using ih
    · simp [meetsCased, hignored]

theorem lowerAfter_append (before : List Char) (h : ∀ c ∈ t, Parts c) (s : List Char) :
    lowerAfter before (s ++ t) = lowerAfter before s ++ lowerAfter (s.reverse ++ before) t := by
  induction s generalizing before with
  | nil => rfl
  | cons c s ih => simp [lowerAfter, ih, endsWord, meetsCased_append h]

theorem lowerAfter_behind (h : ∀ c ∈ t, Parts c) (before s : List Char) :
    lowerAfter (before ++ t) s = lowerAfter before s := by
  induction s generalizing before with
  | nil => rfl
  | cons c s ih =>
    have hrest := ih (c :: before)
    simp only [List.cons_append] at hrest
    simp [lowerAfter, hrest, endsWord, meetsCased_append h]

theorem lowerAfter_suffix (before s : List Char) (t : List Char) :
    lowerAfter (t.reverse ++ before) s <:+ lowerAfter before (t ++ s) := by
  induction t generalizing before with
  | nil => exact List.suffix_rfl
  | cons c t ih =>
    have hrest := ih (c :: before)
    rw [List.cons_append, lowerAfter]
    simp only [List.reverse_cons, List.append_assoc, List.singleton_append]
    exact hrest.trans (List.suffix_append _ _)

/-- The lower-case form of a text is a part of that of the text in its padding. -/
theorem lowerAfter_infix {lead tail : List Char} (hlead : ∀ c ∈ lead, Parts c)
    (htail : ∀ c ∈ tail, Parts c) (s : List Char) :
    lowerAfter [] s <:+: lowerAfter [] (lead ++ s ++ tail) := by
  rw [lowerAfter_append [] htail]
  have hbehind : lowerAfter (lead.reverse ++ []) s = lowerAfter [] s := by
    rw [List.append_nil, ← List.nil_append lead.reverse]
    exact lowerAfter_behind (fun c hc => hlead c (List.mem_reverse.mp hc)) [] s
  rw [← hbehind]
  exact (lowerAfter_suffix [] s lead).isInfix.trans (List.prefix_append _ _).isInfix

end SurveyReport.Text
