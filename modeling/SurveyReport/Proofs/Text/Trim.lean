import Mathlib.Data.List.DropRight
import Mathlib.Tactic.ByContra
import SurveyReport.Text.Blank

/-!
# Trimmed texts

Trimming cuts a run of unwanted characters at either end. What is left is empty, or begins and ends
with a wanted character.

Results:
* `exists_trimEnd`: a text is its trimmed text and a run of unwanted characters.
* `trimEnd_append`: trimming at the end stays behind the last wanted character.
* `exists_lead`: a text with a wanted character begins with unwanted ones and then has a wanted one.
* `trimmed_trim`, `trim_eq_self`: a trimmed text is trimmed, and trimming leaves it alone.
* `exists_trim`: a text is its trimmed text between two runs of unwanted characters.
* `trim_padded`: a trimmed text is all that is left of it between two such runs.
-/

namespace SurveyReport.Text

variable {p : Char → Bool} {s t : List Char} {c : Char}

/-! ## Trimming at the end -/

theorem exists_trimEnd (p : Char → Bool) (s : List Char) :
    ∃ tail, s = trimEnd p s ++ tail ∧ ∀ c ∈ tail, p c :=
  ⟨s.rtakeWhile p, List.rdropWhile_append_rtakeWhile.symm, fun _ => List.mem_rtakeWhile_imp⟩

theorem trimEnd_append_run (s : List Char) (h : ∀ c ∈ t, p c) :
    trimEnd p (s ++ t) = trimEnd p s := by
  have hrev : ∀ c ∈ t.reverse, p c := fun c hc => h c (List.mem_reverse.mp hc)
  rw [trimEnd, List.reverse_append, List.dropWhile_append_of_pos hrev]
  rfl

theorem trimEnd_eq_nil_iff : trimEnd p s = [] ↔ ∀ c ∈ s, p c := List.rdropWhile_eq_nil_iff

/-- Trimming at the end stays behind the last wanted character. -/
theorem trimEnd_append (s : List Char) (h : ∃ c ∈ t, ¬ p c) :
    trimEnd p (s ++ t) = s ++ trimEnd p t := by
  obtain ⟨c, hc, hp⟩ := h
  have hne : (t.reverse.dropWhile p).isEmpty = false := by
    rw [List.isEmpty_eq_false_iff]
    intro hnil
    exact hp (List.dropWhile_eq_nil_iff.mp hnil c (List.mem_reverse.mpr hc))
  rw [trimEnd, List.reverse_append, List.dropWhile_append, hne]
  simp [trimEnd]

theorem trimEnd_cons (hc : ¬ p c) (s : List Char) : trimEnd p (c :: s) = c :: trimEnd p s := by
  by_cases h : ∃ d ∈ s, ¬ p d
  · exact trimEnd_append [c] h
  · have hrun : ∀ d ∈ s, p d := fun d hd => by
      by_contra hp
      exact h ⟨d, hd, hp⟩
    rw [trimEnd_eq_nil_iff.mpr hrun, ← List.singleton_append, trimEnd_append_run [c] hrun]
    exact trimEnd_concat_of_neg (by simpa using hc) []

theorem not_of_getLast?_trimEnd (h : (trimEnd p s).getLast? = some c) : ¬ p c := by
  obtain ⟨hne, rfl⟩ := List.mem_getLast?_eq_getLast h
  exact List.rdropWhile_last_not p s hne

theorem countP_trimEnd_le (f : Char → Bool) (s : List Char) :
    (trimEnd p s).countP f ≤ s.countP f := by
  obtain ⟨tail, hs, -⟩ := exists_trimEnd p s
  have hcount := congrArg (List.countP f) hs
  rw [List.countP_append] at hcount
  omega

/-- Trimming that loses no unwanted character loses nothing. -/
theorem trimEnd_eq_self_of_countP (h : s.countP p ≤ (trimEnd p s).countP p) : trimEnd p s = s := by
  obtain ⟨tail, hs, hrun⟩ := exists_trimEnd p s
  have hcount := congrArg (List.countP p) hs
  rw [List.countP_append, List.countP_eq_length.mpr hrun] at hcount
  have hnil : tail = [] := List.eq_nil_of_length_eq_zero (by omega)
  rw [hnil, List.append_nil] at hs
  exact hs.symm

/-! ## Trimming at both ends -/

/-- A text with a wanted character begins with unwanted ones and then has a wanted one. -/
theorem exists_lead (h : ∃ c ∈ s, ¬ p c) :
    ∃ lead c rest, s = lead ++ c :: rest ∧ (∀ d ∈ lead, p d) ∧ ¬ p c := by
  induction s with
  | nil => simp at h
  | cons c s ih =>
    by_cases hc : p c
    · obtain ⟨lead, d, rest, rfl, hlead, hd⟩ := ih (by simpa [hc] using h)
      exact ⟨c :: lead, d, rest, rfl, by simpa [hc] using hlead, hd⟩
    · exact ⟨[], c, s, rfl, by simp, hc⟩

/-- A run of unwanted characters ends where a text begins with a wanted one, or is over. -/
theorem takeWhile_run (hrun : ∀ c ∈ s, p c) (ht : ∀ c, t.head? = some c → ¬ p c) :
    (s ++ t).takeWhile p = s := by
  rw [List.takeWhile_append_of_pos hrun]
  cases t with
  | nil => exact List.append_nil s
  | cons c t => rw [List.takeWhile_cons_of_neg (ht c rfl), List.append_nil]

theorem dropWhile_run (hrun : ∀ c ∈ s, p c) (ht : ∀ c, t.head? = some c → ¬ p c) :
    (s ++ t).dropWhile p = t := by
  rw [List.dropWhile_append_of_pos hrun]
  cases t with
  | nil => rfl
  | cons c t => exact List.dropWhile_cons_of_neg (ht c rfl)

theorem dropWhile_lead {lead : List Char} (hlead : ∀ d ∈ lead, p d) (hc : ¬ p c)
    (rest : List Char) : (lead ++ c :: rest).dropWhile p = c :: rest :=
  dropWhile_run hlead fun _ hd => Option.some.inj hd ▸ hc

theorem trim_lead {lead : List Char} (hlead : ∀ d ∈ lead, p d) (hc : ¬ p c) (rest : List Char) :
    trim p (lead ++ c :: rest) = trimEnd p (c :: rest) := by
  rw [trim, dropWhile_lead hlead hc]

theorem trimEnd_lead (lead : List Char) (hc : ¬ p c) (rest : List Char) :
    trimEnd p (lead ++ c :: rest) = lead ++ trimEnd p (c :: rest) :=
  trimEnd_append lead ⟨c, List.mem_cons_self, hc⟩

theorem trim_eq_nil (h : ∀ c ∈ s, p c) : trim p s = [] := by
  rw [trim, List.dropWhile_eq_nil_iff.mpr h]
  rfl

/-- A text is its trimmed text between two runs of unwanted characters. -/
theorem exists_trim (p : Char → Bool) (s : List Char) :
    ∃ lead tail, s = lead ++ trim p s ++ tail ∧ (∀ c ∈ lead, p c) ∧ ∀ c ∈ tail, p c := by
  obtain ⟨tail, htail, hrun⟩ := exists_trimEnd p (s.dropWhile p)
  refine ⟨s.takeWhile p, tail, ?_, fun _ => List.mem_takeWhile_imp, hrun⟩
  rw [List.append_assoc, trim, ← htail, List.takeWhile_append_dropWhile]

theorem mem_of_mem_trim (h : c ∈ trim p s) : c ∈ s := by
  obtain ⟨lead, tail, hs, -⟩ := exists_trim p s
  rw [hs]
  simp [h]

theorem trimmed_trim (p : Char → Bool) (s : List Char) : Trimmed p (trim p s) := by
  constructor
  · intro c hc
    by_cases h : ∃ d ∈ s, ¬ p d
    · obtain ⟨lead, d, rest, rfl, hlead, hd⟩ := exists_lead h
      rw [trim_lead hlead hd, trimEnd_cons hd] at hc
      obtain rfl := Option.some.inj hc
      exact hd
    · rw [trim_eq_nil (by simpa using h)] at hc
      simp at hc
  · exact fun c hc => not_of_getLast?_trimEnd hc

theorem trimmed_of_forall (h : ∀ c ∈ s, ¬ p c) : Trimmed p s :=
  ⟨fun c hc => h c (List.mem_of_mem_head? hc), fun c hc => h c (List.mem_of_mem_getLast? hc)⟩

theorem trim_eq_self (h : Trimmed p s) : trim p s = s := by
  have hhead : s.dropWhile p = s := by
    cases s with
    | nil => rfl
    | cons c s => exact List.dropWhile_cons_of_neg (h.1 c rfl)
  rw [trim, hhead]
  exact List.rdropWhile_eq_self_iff.mpr fun hne => h.2 _ (List.getLast?_eq_some_getLast hne)

/-- A trimmed text is all that is left of it between two runs of unwanted characters. -/
theorem trim_padded {lead tail : List Char} (hlead : ∀ c ∈ lead, p c) (htail : ∀ c ∈ tail, p c)
    (h : Trimmed p s) : trim p (lead ++ s ++ tail) = s := by
  cases s with
  | nil =>
    refine trim_eq_nil fun c hc => ?_
    rw [List.append_nil] at hc
    exact (List.mem_append.mp hc).elim (hlead c) (htail c)
  | cons c s =>
    have hself : trimEnd p (c :: s) = c :: s := by
      have hnone : ∀ d ∈ ([] : List Char), p d := by simp
      rw [← trim_lead hnone (h.1 c rfl) s]
      exact trim_eq_self h
    rw [List.append_assoc, List.cons_append, trim_lead hlead (h.1 c rfl), ← List.cons_append,
      trimEnd_append_run _ htail, hself]

end SurveyReport.Text
