import Mathlib
import SurveyReport.Decimal.Exact

/-!
# Whole numbers as floats

A float has room for 53 binary digits, so that a whole number below `2 ^ 53` is a float without being
rounded: shifted to the left until it fills the room, it is the mantissa.

Results:
* `roundWithAccuracy_full`, `unpack_pack_full`: a mantissa that fills the room is neither rounded nor
  changed when the float is stored.
* `rational_ofNat`: the value of the float of a whole number is the number.
-/

namespace SurveyReport.Decimal

open Float.Model Float.Model.UnpackedFloat

/-! ## Full mantissas -/

/-- The mantissa fills the room that a float has for it. -/
def Full (m : Nat) : Prop := m.log2 = 52

theorem Full.pos {m : Nat} (hm : Full m) : 0 < m := by
  rcases Nat.eq_zero_or_pos m with rfl | h
  · simp [Full] at hm
  · exact h

theorem log2_mul_two_pow {m : Nat} (hm : m ≠ 0) (k : Nat) : (m * 2 ^ k).log2 = m.log2 + k := by
  have hpos : 0 < 2 ^ k := Nat.two_pow_pos k
  obtain ⟨hlow, hhigh⟩ := (Nat.log2_eq_iff hm).mp rfl
  rw [Nat.log2_eq_iff (Nat.mul_ne_zero hm hpos.ne')]
  constructor
  · rw [Nat.pow_add]
    exact Nat.mul_le_mul_right _ hlow
  · rw [Nat.add_right_comm, Nat.pow_add]
    exact Nat.mul_lt_mul_of_pos_right hhigh hpos

/-- Zeros that are shifted out leave nothing behind. -/
theorem repeat_shiftRightOne (m k : Nat) :
    Nat.repeat ExtendedMantissa.shiftRightOne k ⟨m * 2 ^ k, false, false⟩ = ⟨m, false, false⟩ := by
  induction k generalizing m with
  | zero => simp [Nat.repeat]
  | succ k ih =>
    have hstep : m * 2 ^ (k + 1) = m * 2 * 2 ^ k := by rw [Nat.pow_succ', Nat.mul_assoc]
    rw [Nat.repeat, hstep, ih (m * 2)]
    simp [ExtendedMantissa.shiftRightOne]

theorem shiftToTargetExponent_full {m : Nat} (hm : Full m) {e : Int} (he : -1074 ≤ e) (k : Nat) :
    shiftToTargetExponent .binary64 (m * 2 ^ k) (e - k) .exact = (⟨m, false, false⟩, e) := by
  have htarget :
      Format.targetExponent .binary64 (totalExponent (m * 2 ^ k) (e - k)) = e := by
    have hlog := log2_mul_two_pow hm.pos.ne' k
    unfold Full at hm
    rw [totalExponent, hlog, hm]
    simp [Format.targetExponent, Format.mantissaBits, Format.minExponent]
    omega
  simp only [shiftToTargetExponent, shiftToExponent, htarget]
  have hshift : (e - (e - k)).toNat = k := by omega
  rw [hshift]
  refine Prod.ext (repeat_shiftRightOne m k) ?_
  simp

/-- A full mantissa with zeros behind it is rounded to itself. -/
theorem roundWithAccuracy_full {m : Nat} (hm : Full m) {e : Int} (he : -1074 ≤ e) (k : Nat)
    (s : Sign) :
    roundWithAccuracy .binary64 s (m * 2 ^ k) (e - k) .exact = .finite s m e hm.pos := by
  have hagain := shiftToTargetExponent_full hm he 0
  simp only [Nat.pow_zero, Nat.mul_one, Int.natCast_zero, Int.sub_zero] at hagain
  have hround : ExtendedMantissa.roundedMantissa ⟨m, false, false⟩ = m := rfl
  simp only [roundWithAccuracy, shiftToTargetExponent_full hm he k, hround, hagain]
  rw [dif_neg hm.pos.ne']

/-! ## Storing a float -/

theorem unpackSign_packComponents (format : Format) (s : Sign) (e : BitVec format.exponentBits)
    (m : BitVec format.mantissaBitsWithoutImplicit) :
    Sign.ofBitVec (unpackSign (packComponents format s e m)) = s := by
  have hsign : unpackSign (packComponents format s e m) = s.toBitVec := by
    apply BitVec.eq_of_getLsbD_eq
    intro i hi
    obtain rfl : i = 0 := by omega
    simp [unpackSign, packComponents, BitVec.getLsbD_append, BitVec.getElem_append]
  rw [hsign]
  cases s <;> rfl

/-- The leading digit of a full mantissa is not stored, and put back when the float is read. -/
theorem toNat_implicit {m : Nat} (hm : Full m) : (1#1 ++ BitVec.ofNat 52 m).toNat = m := by
  obtain ⟨hlow, hhigh⟩ := (Nat.log2_eq_iff hm.pos.ne').mp hm
  rw [BitVec.toNat_append, ← Nat.shiftLeft_add_eq_or_of_lt (BitVec.isLt _)]
  simp [Nat.shiftLeft_eq]
  omega

/-- A float with a full mantissa is stored without a loss. -/
theorem unpack_pack_full {m : Nat} (hm : Full m) {e : Int} (hlow : -1074 ≤ e) (hhigh : e ≤ 971)
    (s : Sign) : (pack (.finite s m e hm.pos)).unpack = .finite s m e hm.pos := by
  obtain ⟨b, hb⟩ : ∃ b : Nat, (b : Int) = e + 1075 := ⟨(e + 1075).toNat, by omega⟩
  have hstored : UnpackedFloat.pack .binary64 (.finite s m e hm.pos) =
      packComponents .binary64 s (BitVec.ofNat 11 b) (BitVec.ofNat 52 m) := by
    have hbiased : (e + (Format.exponentBias .binary64 : Int) +
        (Format.mantissaBitsWithoutImplicit .binary64 : Int)).toNat = b := by
      simp [Format.exponentBias]
      omega
    have hroom : m.log2 + 1 = Format.mantissaBits .binary64 := by
      rw [hm]
      rfl
    simp only [UnpackedFloat.pack, hbiased]
    rw [if_neg (by simp; omega), if_pos hroom]
  have hexponent : (BitVec.ofNat 11 b).toNat = b := by
    rw [BitVec.toNat_ofNat, Nat.mod_eq_of_lt (by omega)]
  have hfinite : BitVec.ofNat 11 b ≠ -1#11 := by
    intro h
    have := congrArg BitVec.toNat h
    rw [hexponent] at this
    have : (-1#11).toNat = 2047 := by decide
    omega
  have hnormal : BitVec.ofNat 11 b ≠ 0#11 := by
    intro h
    have := congrArg BitVec.toNat h
    rw [hexponent] at this
    simp at this
    omega
  show UnpackedFloat.unpack .binary64 (UnpackedFloat.pack .binary64 (.finite s m e hm.pos)) = _
  rw [hstored]
  simp only [UnpackedFloat.unpack, unpackMantissa_packComponents, unpackExponent_packComponents,
    unpackSign_packComponents]
  rw [if_neg hfinite, if_neg hnormal]
  simp only [toNat_implicit hm, hexponent]
  congr 1
  simp [Format.exponentBias]
  omega

/-! ## Whole numbers -/

/-- The number of digits that a whole number lacks to fill the room. -/
def room (n : Nat) : Nat := 52 - n.log2

theorem full_shifted {n : Nat} (hn : n ≠ 0) (h : n < 2 ^ 53) : Full (n * 2 ^ room n) := by
  have hlog : n.log2 < 53 := (Nat.log2_lt hn).mpr h
  rw [Full, log2_mul_two_pow hn, room]
  omega

theorem ofNat_shifted {n : Nat} (hn : n ≠ 0) (h : n < 2 ^ 53) :
    UnpackedFloat.ofNat .binary64 n =
      .finite .positive (n * 2 ^ room n) (-room n) (full_shifted hn h).pos := by
  have hlog : n.log2 < 53 := (Nat.log2_lt hn).mpr h
  have hcompare : compare (n : Int) 0 = .gt := by
    rw [Int.compare_eq_gt]
    omega
  have htarget : Format.targetExponent .binary64 (totalExponent n 0) = -room n := by
    simp [totalExponent, Format.targetExponent, Format.mantissaBits, Format.minExponent, room]
    omega
  have hshift : decreaseExponent n 0 (-room n) = (n * 2 ^ room n, -(room n : Int)) := by
    simp [decreaseExponent, Nat.shiftLeft_eq]
  have hfull := roundWithAccuracy_full (full_shifted hn h) (e := -room n) (by rw [room]; omega) 0
    .positive
  simp only [UnpackedFloat.ofNat, UnpackedFloat.ofInt, UnpackedFloat.normalize, hcompare,
    UnpackedFloat.round, Int.toNat_natCast, htarget, hshift]
  simpa using hfull

theorem unpack_ofUInt64 {n : Nat} (hn : n ≠ 0) (h : n < 2 ^ 53) :
    (Float.Model.ofUInt64 n.toUInt64).unpack =
      .finite .positive (n * 2 ^ room n) (-room n) (full_shifted hn h).pos := by
  have hroom : room n ≤ 52 := by rw [room]; omega
  have hword : n.toUInt64.toNat = n := by
    simp
    omega
  have hofNat : UnpackedFloat.ofUInt64 .binary64 n.toUInt64 =
      .finite .positive (n * 2 ^ room n) (-room n) (full_shifted hn h).pos := by
    rw [← ofNat_shifted hn h]
    simp only [UnpackedFloat.ofUInt64, hword]
  rw [Float.Model.ofUInt64, hofNat]
  exact unpack_pack_full (full_shifted hn h) (by omega) (by omega) _

/-- The mantissa of the float 1, by its bits, is the least one that fills the room. -/
theorem unpack_one : (Float.ofBits 4607182418800017408).toModel.unpack =
    .finite .positive (2 ^ 52) (-52) (by decide) := rfl

/-- A whole number is made into a float by a product with the power 1 of ten. -/
theorem ofNat_eq_mul {n : Nat} (h : n < 2 ^ 53) :
    Float.ofNat n = n.toUInt64.toFloat * Float.ofBits 4607182418800017408 := by
  show Float.ofScientific n false 0 = _
  rw [Float.ofScientific, dif_pos ⟨h, by decide⟩]
  rfl

theorem unpack_ofNat {n : Nat} (hn : n ≠ 0) (h : n < 2 ^ 53) :
    (Float.ofNat n).toModel.unpack =
      .finite .positive (n * 2 ^ room n) (-room n) (full_shifted hn h).pos := by
  have hfull := full_shifted hn h
  have hroom : room n ≤ 52 := by rw [room]; omega
  have hproduct : UnpackedFloat.mul .binary64
      (.finite .positive (n * 2 ^ room n) (-room n) hfull.pos)
      (.finite .positive (2 ^ 52) (-52) (by decide)) =
      .finite .positive (n * 2 ^ room n) (-room n) hfull.pos :=
    roundWithAccuracy_full hfull (by omega) 52 .positive
  rw [ofNat_eq_mul h]
  show (Float.Model.mul (Float.Model.ofUInt64 n.toUInt64) _).unpack = _
  rw [Float.Model.mul, unpack_ofUInt64 hn h, unpack_one, hproduct]
  exact unpack_pack_full hfull (by omega) (by omega) _

theorem ofFloat?_ofNat {n : Nat} (hn : n ≠ 0) (h : n < 2 ^ 53) :
    Exact.ofFloat? (Float.ofNat n) = some ⟨false, n * 2 ^ room n, -room n⟩ := by
  rw [Exact.ofFloat?, unpack_ofNat hn h]
  rfl

/-! ## The value of a float -/

/-- The value of a finite float, and 0 of one that has none. -/
def rational (x : Float) : ℚ :=
  match Exact.ofFloat? x with
  | some e => (if e.negative then -1 else 1) * (e.num / e.den : ℚ)
  | none => 0

/-- The float of a whole number below `2 ^ 53` is the number. -/
theorem rational_ofNat {n : Nat} (h : n < 2 ^ 53) : rational (Float.ofNat n) = n := by
  by_cases hn : n = 0
  · have hzero : Exact.ofFloat? (Float.ofNat 0) = some ⟨false, 0, 0⟩ := rfl
    simp [hn, rational, hzero, Exact.num]
  · simp [rational, ofFloat?_ofNat hn h, Exact.num, Exact.den]

end SurveyReport.Decimal
