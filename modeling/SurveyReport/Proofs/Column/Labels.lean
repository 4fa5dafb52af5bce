import Mathlib.Logic.ExistsUnique
import SurveyReport.Proofs.Column.Lookup
import SurveyReport.Proofs.Text.Numeral

/-!
# Labels as numerals

A label writes its position, counted from one, with letters that count from 1 for A to 26 for Z. There
is no letter for zero, so that every word of letters is the label of one position, and labels are in the
order of their positions by their lengths first and then by the alphabet.

A label can be found by dividing in 64 bits: each round gives one letter, from the last to the first.

Results:
* `lettersWithin?_eq`: dividing in 64 bits comes to an end with the letters of the number.
* `labelLetters_letterSum`: a word of letters is written for the number that it writes.
* `labelLetters_before`: the order of labels.
* `labelAt_numeral`: all of it, for labels.
-/

namespace SurveyReport.Column

/-! ## Letters -/

/-- What a letter counts: 1 for A, up to 26 for Z. -/
def letterValue (c : Char) : Nat := c.toNat - 'A'.toNat + 1

/-- The number that a word of letters writes. -/
def letterSum (letters : List Char) : Nat := Text.placeSum 26 letterValue letters

theorem readLetters_eq (letters : List Char) : readLetters letters = letterSum letters :=
  Text.foldl_eq_placeSum letters

theorem letterSum_labelLetters (n : Nat) : letterSum (labelLetters n) = n := by
  rw [← readLetters_eq, read_labelLetters]

theorem letter_range : ∀ digit < 26, 'A' ≤ letter digit ∧ letter digit ≤ 'Z' := by decide

theorem letter_lt : ∀ d < 26, ∀ e < 26, d < e → letter d < letter e := by decide

theorem letterValue_bounds {c : Char} (h : 'A' ≤ c ∧ c ≤ 'Z') :
    1 ≤ letterValue c ∧ letterValue c ≤ 26 := by
  have hlast : c.toNat ≤ 90 := UInt32.le_iff_toNat_le.mp h.2
  rw [letterValue, show 'A'.toNat = 65 from rfl]
  omega

/-- A letter is the one with its value. -/
theorem letter_letterValue {c : Char} (h : 'A' ≤ c ∧ c ≤ 'Z') : letter (letterValue c - 1) = c := by
  have hfirst : 65 ≤ c.toNat := UInt32.le_iff_toNat_le.mp h.1
  have hvalue : 'A'.toNat + (letterValue c - 1) = c.toNat := by
    rw [letterValue, show 'A'.toNat = 65 from rfl]
    omega
  rw [letter, hvalue, Char.ofNat_toNat]

/-! ## Words of letters -/

theorem labelLetters_zero : labelLetters 0 = [] := by
  rw [labelLetters, if_pos rfl]

theorem labelLetters_succ (n : Nat) :
    labelLetters (n + 1) = labelLetters (n / 26) ++ [letter (n % 26)] := by
  rw [labelLetters, if_neg (Nat.succ_ne_zero n), Nat.add_sub_cancel]

theorem labelLetters_range {n : Nat} {c : Char} (h : c ∈ labelLetters n) : 'A' ≤ c ∧ c ≤ 'Z' := by
  obtain ⟨digit, hdigit, rfl⟩ := exists_digit_of_mem_labelLetters h
  exact letter_range digit hdigit

/-- A word of letters is written for the number that it writes. -/
theorem labelLetters_letterSum {letters : List Char} (h : ∀ c ∈ letters, 'A' ≤ c ∧ c ≤ 'Z') :
    labelLetters (letterSum letters) = letters := by
  induction letters using List.reverseRecOn with
  | nil => exact labelLetters_zero
  | append_singleton letters c ih =>
    have hc : 'A' ≤ c ∧ c ≤ 'Z' := h c (by simp)
    obtain ⟨hpos, hle⟩ := letterValue_bounds hc
    -- the last letter counts one at least, and what it counts above one is the last digit
    have hsum : letterSum (letters ++ [c]) = 26 * letterSum letters + (letterValue c - 1) + 1 := by
      rw [letterSum, Text.placeSum_concat, letterSum]
      omega
    have hdiv : (26 * letterSum letters + (letterValue c - 1)) / 26 = letterSum letters := by omega
    have hmod : (26 * letterSum letters + (letterValue c - 1)) % 26 = letterValue c - 1 := by omega
    rw [hsum, labelLetters_succ, hdiv, hmod, letter_letterValue hc,
      ih fun d hd => h d (List.mem_append_left _ hd)]

/-- How many letters a number can have: the powers of 26 bound it. -/
theorem pow_length_labelLetters_le (n : Nat) : 26 ^ (labelLetters n).length ≤ 25 * n + 1 := by
  induction n using Nat.strongRecOn with
  | ind n ih =>
    cases n with
    | zero => simp [labelLetters_zero]
    | succ n =>
      have hrest := ih (n / 26) (by omega)
      rw [labelLetters_succ, List.length_append, List.length_singleton, Nat.pow_succ]
      omega

/-! ## Order -/

/-- The first word is shorter, or as long as the other one and before it in the alphabet. -/
def Before (s t : List Char) : Prop := s.length < t.length ∨ s.length = t.length ∧ s < t

theorem append_lt_append {s t : List Char} (hlength : s.length = t.length) (h : s < t)
    (u v : List Char) : s ++ u < t ++ v := by
  induction s generalizing t with
  | nil =>
    rw [List.eq_nil_of_length_eq_zero hlength.symm] at h
    exact absurd h (List.lt_irrefl [])
  | cons c s ih =>
    cases t with
    | nil => cases hlength
    | cons d t =>
      rw [List.cons_append, List.cons_append, List.cons_lt_cons_iff]
      rcases List.cons_lt_cons_iff.mp h with hlt | ⟨heq, hrest⟩
      · exact .inl hlt
      · exact .inr ⟨heq, ih (Nat.succ.inj hlength) hrest⟩

theorem Before.concat {s t : List Char} (h : Before s t) (c d : Char) :
    Before (s ++ [c]) (t ++ [d]) := by
  rw [Before, List.length_append, List.length_append]
  rcases h with hlt | ⟨heq, hlt⟩
  · exact .inl (Nat.add_lt_add_right hlt 1)
  · exact .inr ⟨congrArg (· + 1) heq, append_lt_append heq hlt [c] [d]⟩

theorem before_concat (s : List Char) {c d : Char} (h : c < d) : Before (s ++ [c]) (s ++ [d]) :=
  .inr ⟨by rw [List.length_append, List.length_append]; rfl,
    List.append_left_lt (List.cons_lt_cons_iff.mpr (.inl h))⟩

/-- A smaller number is written by a shorter word, or by one before it in the alphabet. -/
theorem labelLetters_before {m n : Nat} (h : m < n) : Before (labelLetters m) (labelLetters n) := by
  induction m using Nat.strongRecOn generalizing n with
  | ind m ih =>
    obtain ⟨n, rfl⟩ : ∃ k, n = k + 1 := ⟨n - 1, by omega⟩
    cases m with
    | zero =>
      rw [labelLetters_zero, labelLetters_succ]
      exact .inl (by simp)
    | succ m =>
      rw [labelLetters_succ, labelLetters_succ]
      rcases Nat.lt_or_eq_of_le (Nat.div_le_div_right (c := 26) (by omega : m ≤ n)) with hlt | heq
      · exact (ih (m / 26) (by omega) hlt).concat _ _
      · -- the words differ in their last letters only
        rw [heq]
        exact before_concat _ (letter_lt _ (Nat.mod_lt m (by decide)) _ (Nat.mod_lt n (by decide))
          (by omega))

/-! ## Dividing in 64 bits -/

/-- The letters found so far, and those that dividing finds in a number of rounds, from the last one to
    the first; nothing if the dividend has not come to zero by then. -/
def lettersWithin? (rounds : Nat) (dividend : UInt64) (found : List Char) : Option (List Char) :=
  if dividend = 0 then some found
  else
    match rounds with
    | 0 => none
    | rounds + 1 =>
      let digit := (dividend - 1) % 26
      lettersWithin? rounds ((dividend - digit) / 26) (found ++ [letter digit.toNat])

/-- The label that dividing finds in a number of rounds. -/
def labelWithin? (rounds : Nat) (index : UInt64) : Option String :=
  (lettersWithin? rounds (index + 1) []).map fun found => .ofList found.reverse

/-- One round in 64 bits takes the last letter from the number that is written. -/
theorem toNat_round {dividend : UInt64} {n : Nat} (h : dividend.toNat = n + 1) :
    ((dividend - 1) % 26).toNat = n % 26 ∧ ((dividend - (dividend - 1) % 26) / 26).toNat = n / 26 := by
  have hone : (dividend - 1).toNat = n := by
    rw [UInt64.toNat_sub_of_le _ _ (UInt64.le_iff_toNat_le.mpr (by rw [h]; simp)), h]
    rfl
  have hdigit : ((dividend - 1) % 26).toNat = n % 26 := by
    rw [UInt64.toNat_mod, hone]
    rfl
  have hle : (dividend - 1) % 26 ≤ dividend := by
    rw [UInt64.le_iff_toNat_le, hdigit, h]
    omega
  refine ⟨hdigit, ?_⟩
  rw [UInt64.toNat_div, UInt64.toNat_sub_of_le _ _ hle, hdigit, h, show (26 : UInt64).toNat = 26 from rfl]
  omega

/-- Dividing comes to an end when all letters of the number are found. -/
theorem lettersWithin?_eq {rounds : Nat} {dividend : UInt64}
    (h : (labelLetters dividend.toNat).length ≤ rounds) (found : List Char) :
    lettersWithin? rounds dividend found = some (found ++ (labelLetters dividend.toNat).reverse) := by
  induction rounds generalizing dividend found with
  | zero =>
    have hzero : dividend.toNat = 0 := by
      rw [← letterSum_labelLetters dividend.toNat, List.eq_nil_of_length_eq_zero (Nat.le_zero.mp h)]
      rfl
    rw [lettersWithin?, if_pos (UInt64.toNat_inj.mp hzero), hzero, labelLetters_zero]
    simp
  | succ rounds ih =>
    cases hn : dividend.toNat with
    | zero =>
      rw [lettersWithin?, if_pos (UInt64.toNat_inj.mp hn), labelLetters_zero]
      simp
    | succ n =>
      have hne : dividend ≠ 0 := by
        rintro rfl
        cases hn
      obtain ⟨hdigit, hrest⟩ := toNat_round hn
      rw [hn, labelLetters_succ, List.length_append, List.length_singleton, ← hrest] at h
      rw [lettersWithin?, if_neg hne]
      simp only
      rw [ih (Nat.le_of_succ_le_succ h), hdigit, hrest, labelLetters_succ]
      simp

/-- The label of a position that 64 bits count is found in 14 rounds. -/
theorem labelWithin?_eq {index : Nat} (h : index < 2 ^ 64 - 1) :
    labelWithin? 14 (.ofNat index) = some (labelAt index) := by
  have hword : (UInt64.ofNat index + 1).toNat = index + 1 := by
    rw [UInt64.toNat_add, UInt64.toNat_ofNat']
    show (index % 2 ^ 64 + 1) % 2 ^ 64 = index + 1
    omega
  have hlength : (labelLetters (index + 1)).length ≤ 14 := by
    by_contra hlong
    have hpow : 26 ^ 15 ≤ 26 ^ (labelLetters (index + 1)).length :=
      Nat.pow_le_pow_right (by decide) (by omega)
    have hle := pow_length_labelLetters_le (index + 1)
    omega
  rw [labelWithin?, lettersWithin?_eq (by rwa [hword]), hword]
  simp [labelAt]

/-! ## Labels -/

theorem toList_labelAt (index : Nat) : (labelAt index).toList = labelLetters (index + 1) :=
  String.toList_ofList

/-- A word of letters is the label of the position before the number that it writes. -/
theorem labelAt_letterSum {s : String} (hne : s ≠ "") (h : ∀ c ∈ s.toList, 'A' ≤ c ∧ c ≤ 'Z') :
    labelAt (letterSum s.toList - 1) = s := by
  have hpos : letterSum s.toList ≠ 0 := by
    intro hzero
    have hnil := labelLetters_letterSum h
    rw [hzero, labelLetters_zero] at hnil
    exact hne (String.toList_eq_nil_iff.mp hnil.symm)
  rw [labelAt, Nat.sub_add_cancel (Nat.one_le_iff_ne_zero.mpr hpos), labelLetters_letterSum h,
    String.ofList_toList]

/-- **Labels are numerals without a zero.** For every position that 64 bits count, the division comes to
    an end, after 14 rounds at most, with the label of the position. The label is a word of the letters A
    to Z that is not empty, and the number that it writes is one more than the position. So no two
    positions have one label, and every such word whose number fits is the label of exactly one of them.
    Of two positions the lower one has the shorter label, or one as long and before it in the
    alphabet. -/
theorem labelAt_numeral :
    (∀ index < 2 ^ 64 - 1,
      labelWithin? 14 (.ofNat index) = some (labelAt index) ∧ labelAt index ≠ "" ∧
        (∀ c ∈ (labelAt index).toList, 'A' ≤ c ∧ c ≤ 'Z') ∧
        letterSum (labelAt index).toList = index + 1) ∧
      (∀ i j, labelAt i = labelAt j → i = j) ∧
      (∀ s : String, s ≠ "" → (∀ c ∈ s.toList, 'A' ≤ c ∧ c ≤ 'Z') →
        letterSum s.toList - 1 < 2 ^ 64 - 1 → ∃! index, index < 2 ^ 64 - 1 ∧ labelAt index = s) ∧
      ∀ i j, i < j → (labelAt i).length < (labelAt j).length ∨
        (labelAt i).length = (labelAt j).length ∧ labelAt i < labelAt j := by
  refine ⟨fun index h => ⟨labelWithin?_eq h, ?_, ?_, ?_⟩, ?_, ?_, ?_⟩
  · intro hempty
    have hsum := letterSum_labelLetters (index + 1)
    rw [← toList_labelAt, hempty] at hsum
    cases hsum
  · intro c hc
    rw [toList_labelAt] at hc
    exact labelLetters_range hc
  · rw [toList_labelAt, letterSum_labelLetters]
  · intro i j h
    exact eq_of_lowerAscii_labelAt (congrArg Text.lowerAscii h)
  · intro s hne hletters hfits
    refine ⟨letterSum s.toList - 1, ⟨hfits, labelAt_letterSum hne hletters⟩, ?_⟩
    rintro index ⟨-, rfl⟩
    rw [toList_labelAt, letterSum_labelLetters, Nat.add_sub_cancel]
  · intro i j hij
    have hbefore := labelLetters_before (Nat.succ_lt_succ hij)
    rw [← String.length_toList, ← String.length_toList, String.lt_iff, toList_labelAt,
      toList_labelAt]
    exact hbefore

/-- The last label of two letters and the first one of three. -/
theorem labelAt_numeral_carry :
    labelWithin? 14 701 = some "ZZ" ∧ labelWithin? 14 702 = some "AAA" ∧
      (∃! index, index < 2 ^ 64 - 1 ∧ labelAt index = "ZZ") ∧
      ((labelAt 701).length < (labelAt 702).length ∨
        (labelAt 701).length = (labelAt 702).length ∧ labelAt 701 < labelAt 702) := by
  obtain ⟨hfound, -, hunique, horder⟩ := labelAt_numeral
  have hzz : letterSum "ZZ".toList = 702 := by
    rw [← readLetters_eq]
    rfl
  have haaa : letterSum "AAA".toList = 703 := by
    rw [← readLetters_eq]
    rfl
  have hz : ∀ c ∈ "ZZ".toList, 'A' ≤ c ∧ c ≤ 'Z' := by simp
  have ha : ∀ c ∈ "AAA".toList, 'A' ≤ c ∧ c ≤ 'Z' := by simp
  have hbelow : labelAt (letterSum "ZZ".toList - 1) = "ZZ" := labelAt_letterSum (by decide) hz
  have habove : labelAt (letterSum "AAA".toList - 1) = "AAA" := labelAt_letterSum (by decide) ha
  rw [hzz] at hbelow
  rw [haaa] at habove
  have hfits : letterSum "ZZ".toList - 1 < 2 ^ 64 - 1 := by
    rw [hzz]
    decide
  refine ⟨?_, ?_, hunique "ZZ" (by decide) hz hfits, horder 701 702 (by decide)⟩
  · exact hbelow ▸ (hfound 701 (by decide)).1
  · exact habove ▸ (hfound 702 (by decide)).1

end SurveyReport.Column
