import Mathlib.Tactic.SplitIfs
import SurveyReport.Text.Order

/-!
# Texts as bytes

Texts are stored as bytes, and sorting texts by their code points is sorting them by these bytes. The
first byte of a character tells how many there are, and the greater of two characters never has the
lesser first byte; so the first difference of the bytes is at the first difference of the characters.

Results:
* `encode_append_lt`: the lesser character has the lesser bytes, whatever follows.
* `precedes_iff_bytes_lt`: the order of texts is the order of their bytes.
* `count_bytes`: a character of ASCII can be counted in the bytes.
-/

namespace SurveyReport.Text

/-- The bytes of a text. -/
def bytes (s : String) : List UInt8 := s.toUTF8.data.toList

theorem bytes_eq (s : String) : bytes s = s.toList.flatMap String.utf8EncodeChar := by
  rw [bytes, String.toUTF8, ← String.utf8Encode_toList, List.utf8Encode, List.toList_data_toByteArray]

theorem toNat_char_lt (c : Char) : c.toNat < 0x110000 := by
  have h : c.val.toNat < 0xd800 ∨ 0xdfff < c.val.toNat ∧ c.val.toNat < 0x110000 := c.valid
  change c.val.toNat < 0x110000
  omega

/-- The lesser character has the lesser bytes, whatever follows. -/
theorem encode_append_lt {a b : Char} (h : a.toNat < b.toNat) (s t : List UInt8) :
    String.utf8EncodeChar a ++ s < String.utf8EncodeChar b ++ t := by
  have hb := toNat_char_lt b
  simp only [String.utf8EncodeChar, Char.toNat_val]
  -- one case for each pair of lengths, decided at the first byte that differs
  split_ifs <;>
    simp only [List.cons_append, List.nil_append, List.cons_lt_cons_iff, UInt8.lt_iff_toNat_lt,
      ← UInt8.toNat_inj, UInt8.toNat_ofNat'] <;>
    simp (disch := omega) only [Nat.mod_eq_of_lt] <;>
    omega

theorem append_lt_append_left {s t : List UInt8} (p : List UInt8) (h : s < t) : p ++ s < p ++ t := by
  induction p with
  | nil => exact h
  | cons x p ih => exact List.cons_lt_cons_iff.mpr (.inr ⟨rfl, ih⟩)

theorem flatMap_encode_lt {s t : List Char} (h : precedes s t) :
    s.flatMap String.utf8EncodeChar < t.flatMap String.utf8EncodeChar := by
  induction s generalizing t with
  | nil =>
    cases t with
    | nil => simp [precedes] at h
    | cons b t =>
      obtain ⟨x, xs, hx⟩ := List.exists_cons_of_ne_nil (String.utf8EncodeChar_ne_nil (c := b))
      simp [hx]
  | cons a s ih =>
    cases t with
    | nil => simp [precedes] at h
    | cons b t =>
      simp only [precedes, Bool.or_eq_true, decide_eq_true_eq, Bool.and_eq_true, beq_iff_eq] at h
      rw [List.flatMap_cons, List.flatMap_cons]
      rcases h with h | ⟨rfl, h⟩
      · exact encode_append_lt h _ _
      · exact append_lt_append_left _ (ih h)

/-- **Order of texts.** Texts are sorted as their bytes are. -/
theorem precedes_iff_bytes_lt {s t : String} :
    precedes s.toList t.toList ↔ bytes s < bytes t := by
  rw [bytes_eq, bytes_eq]
  refine ⟨flatMap_encode_lt, fun h => ?_⟩
  rcases precedes_total s.toList t.toList with hst | hst | hst
  · exact hst
  · rw [hst] at h
    exact absurd h (List.lt_irrefl _)
  · exact absurd h (List.lt_asymm (flatMap_encode_lt hst))

/-! ## Bytes of ASCII -/

/-- A character that is not of ASCII has no byte of ASCII. -/
theorem le_toNat_of_mem_encode {c : Char} (h : 0x80 ≤ c.toNat) {b : UInt8}
    (hb : b ∈ String.utf8EncodeChar c) : 0x80 ≤ b.toNat := by
  simp only [String.utf8EncodeChar, Char.toNat_val] at hb
  split_ifs at hb
  · omega
  all_goals
    simp only [List.mem_cons, List.not_mem_nil, or_false] at hb
    rcases hb with rfl | rfl | rfl | rfl <;> rw [UInt8.toNat_ofNat'] <;> omega

theorem encode_of_lt {c : Char} (h : c.toNat < 0x80) :
    String.utf8EncodeChar c = [UInt8.ofNat c.toNat] := by
  have hle : c.toNat ≤ 0x7f := by omega
  simp [String.utf8EncodeChar, hle]

/-- A character of ASCII stands in a text as often as its byte in the bytes. -/
theorem count_bytes {c : Char} (h : c.toNat < 0x80) (s : List Char) :
    (bytes (.ofList s)).count (UInt8.ofNat c.toNat) = s.count c := by
  rw [bytes_eq, String.toList_ofList]
  induction s with
  | nil => rfl
  | cons d s ih =>
    rw [List.flatMap_cons, List.count_append, ih, List.count_cons, Nat.add_comm]
    congr 1
    by_cases hd : d.toNat < 0x80
    · have hbyte : UInt8.ofNat d.toNat = UInt8.ofNat c.toNat ↔ d = c := by
        rw [← UInt8.toNat_inj, UInt8.toNat_ofNat', UInt8.toNat_ofNat', ← Char.toNat_inj]
        omega
      rw [encode_of_lt hd, List.count_singleton]
      simp only [beq_iff_eq, hbyte]
    · have hne : d ≠ c := by
        rintro rfl
        exact hd h
      rw [if_neg (by simpa using hne), List.count_eq_zero]
      intro hmem
      have hle := le_toNat_of_mem_encode (Nat.le_of_not_lt hd) hmem
      rw [UInt8.toNat_ofNat'] at hle
      omega

end SurveyReport.Text
