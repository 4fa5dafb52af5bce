import Mathlib.Data.List.Nodup
import SurveyReport.Column.Reference

/-!
# Which column a reference finds

A name finds its column where no two columns have one name. A label finds the column at its position, in
any case of its letters, unless a column has a name of these letters: names go before labels.

Results:
* `find?_name`: a name finds its column.
* `eq_of_lowerAscii_labelAt`: a label is of one position, in any case of its letters.
* `find?_label`, `find?_of_lower`: what a label finds, and that names go before it.
-/

namespace SurveyReport.Column

/-! ## Lookup by a key -/

/-- Where no two items have one key, the key of an item finds this item. -/
theorem find?_key {α β : Type} [BEq β] [LawfulBEq β] {key : α → β} {items : List α}
    (h : (items.map key).Nodup) {item : α} (hitem : item ∈ items) :
    items.find? (key · == key item) = some item := by
  have hsome : (items.find? (key · == key item)).isSome :=
    List.find?_isSome.mpr ⟨item, hitem, beq_self_eq_true _⟩
  obtain ⟨found, hfound⟩ := Option.isSome_iff_exists.mp hsome
  have hkey : key found = key item := by simpa using List.find?_some hfound
  rw [hfound, List.inj_on_of_nodup_map h (List.mem_of_find?_eq_some hfound) hitem hkey]

variable {columns : List Column} {c : Column} {reference : String}

/-- A name finds its column. -/
theorem find?_name (h : (columns.map (·.name)).Nodup) (hc : c ∈ columns) :
    find? columns c.name = some c := by
  rw [find?, find?_key h hc]
  rfl

/-! ## Labels -/

theorem exists_digit_of_mem_labelLetters {n : Nat} {d : Char} (h : d ∈ labelLetters n) :
    ∃ digit < 26, d = letter digit := by
  induction n using Nat.strongRecOn with
  | ind n ih =>
    rw [labelLetters] at h
    split at h
    · simp at h
    · rcases List.mem_append.mp h with h | h
      · exact ih _ (by omega) h
      · exact ⟨(n - 1) % 26, Nat.mod_lt _ (by decide), List.mem_singleton.mp h⟩

/-- The case of a letter can be restored. -/
theorem toUpper_toLower_letter : ∀ digit < 26, (letter digit).toLower.toUpper = letter digit := by
  decide

theorem map_toUpper_toLower_labelLetters (n : Nat) :
    ((labelLetters n).map Char.toLower).map Char.toUpper = labelLetters n := by
  rw [List.map_map]
  conv_rhs => rw [← List.map_id (labelLetters n)]
  refine List.map_congr_left fun d hd => ?_
  obtain ⟨digit, hdigit, rfl⟩ := exists_digit_of_mem_labelLetters hd
  exact toUpper_toLower_letter digit hdigit

/-- A label is of one position, in any case of its letters. -/
theorem eq_of_lowerAscii_labelAt {i j : Nat}
    (h : Text.lowerAscii (labelAt i) = Text.lowerAscii (labelAt j)) : i = j := by
  have hletters : labelLetters (i + 1) = labelLetters (j + 1) := by
    have hupper := congrArg (List.map Char.toUpper) h
    simpa only [Text.lowerAscii, labelAt, String.toList_ofList, map_toUpper_toLower_labelLetters]
      using hupper
  have hread := congrArg readLetters hletters
  rw [read_labelLetters, read_labelLetters] at hread
  omega

theorem toNat_letter_lt : ∀ digit < 26, (letter digit).toLower.toNat < 0x80 := by
  decide

/-- Only characters of ASCII become characters of ASCII. -/
theorem toNat_lt_of_toLower {d : Char} (h : d.toLower.toNat < 0x80) : d.toNat < 0x80 := by
  unfold Char.toLower at h
  split at h
  · rename_i hupper
    have hle : d.toNat ≤ 90 := UInt32.le_iff_toNat_le.mp hupper.2
    omega
  · exact h

/-- What is a label in other cases has the lower-case form of the label. -/
theorem lower_eq_of_lowerAscii {position : Nat}
    (h : Text.lowerAscii reference = Text.lowerAscii (labelAt position)) :
    Text.lower reference = Text.lower (labelAt position) := by
  have hlower : ∀ d ∈ Text.lowerAscii (labelAt position), d.toNat < 0x80 := by
    intro d hd
    rw [Text.lowerAscii, labelAt, String.toList_ofList] at hd
    obtain ⟨e, he, rfl⟩ := List.mem_map.mp hd
    obtain ⟨digit, hdigit, rfl⟩ := exists_digit_of_mem_labelLetters he
    exact toNat_letter_lt digit hdigit
  have hascii : ∀ s : String, Text.lowerAscii s = Text.lowerAscii (labelAt position) →
      Text.lower s = .ofList (Text.lowerAscii (labelAt position)) := by
    intro s hs
    rw [Text.lower, Text.lower_ascii, ← hs, Text.lowerAscii]
    intro d hd
    refine toNat_lt_of_toLower (hlower _ ?_)
    rw [← hs]
    exact List.mem_map_of_mem hd
  rw [hascii reference h, hascii _ rfl]

/-! ## What a label finds -/

/-- A label finds its column, unless it is a name in other cases. -/
theorem find?_label (hlabels : (columns.map fun d => Text.lowerAscii d.label).Nodup) (hc : c ∈ columns)
    (h : Text.lowerAscii reference = Text.lowerAscii c.label)
    (hnone : ∀ d ∈ columns, Text.lower d.name ≠ Text.lower reference) :
    find? columns reference = some c := by
  have hname : columns.find? (fun d => d.name == reference) = none := by
    rw [List.find?_eq_none]
    intro d hd heq
    exact hnone d hd (congrArg Text.lower (eq_of_beq heq))
  have hlower : columns.find? (fun d => Text.lower d.name == Text.lower reference) = none := by
    rw [List.find?_eq_none]
    intro d hd heq
    exact hnone d hd (eq_of_beq heq)
  rw [find?, hname, hlower, h]
  exact find?_key hlabels hc

/-- A reference that is a name in other cases finds a column with such a name. -/
theorem find?_of_lower {d : Column} (hd : d ∈ columns)
    (h : Text.lower d.name = Text.lower reference) :
    ∃ found, find? columns reference = some found ∧ Text.lower found.name = Text.lower reference := by
  -- an exact name goes before names in other cases, and has the same lower-case form
  cases hname : columns.find? fun d => d.name == reference with
  | some found =>
    have heq : found.name = reference := by simpa using List.find?_some hname
    exact ⟨found, by rw [find?, hname]; rfl, by rw [heq]⟩
  | none =>
    have hsome : (columns.find? fun d => Text.lower d.name == Text.lower reference).isSome :=
      List.find?_isSome.mpr ⟨d, hd, by rw [h]; exact beq_self_eq_true _⟩
    obtain ⟨found, hfound⟩ := Option.isSome_iff_exists.mp hsome
    have hlower : Text.lower found.name = Text.lower reference := by
      simpa using List.find?_some hfound
    exact ⟨found, by rw [find?, hname, hfound]; rfl, hlower⟩

end SurveyReport.Column
