import SurveyReport.Proofs.Chart.Data
import SurveyReport.Proofs.Decimal.Sign

/-!
# The order of floats without a minus sign

The bits of a float without a minus sign, read as a whole number, are its exponent and behind it its
mantissa, so that they grow with its value. The place of such a float in the order of all floats is
this number: comparing places is comparing values, apart from what is not a number.

Results:
* `Stored.compare_eq`: stored floats compare as their bits do.
* `stored_of_unsigned`: what the bits of a float without a minus sign are.
* `NotNegative.orderKey_lt`: a smaller value has a smaller place.
* `NotNegative.eq_of_beq`: there is one float of each value.
-/

namespace SurveyReport.Decimal

open Float.Model Float.Model.UnpackedFloat

/-! ## Bits -/

/-- What the bits of a float without a minus sign stand for. The leading digit of a mantissa is stored
    as one more in the exponent, unless the exponent is the least. -/
inductive Stored : Nat → UnpackedFloat → Prop
  | zero : Stored 0 (.zero .positive)
  | finite {m e : Nat} (hm : 0 < m) (hroom : m < 2 ^ 53) (hleading : e = 0 ∨ 2 ^ 52 ≤ m)
      (hrange : e ≤ 2045) : Stored (e * 2 ^ 52 + m) (.finite .positive m (e - 1074) hm)
  | infinity : Stored (2047 * 2 ^ 52) (.infinity .positive)

namespace Stored

variable {a b : Nat} {x y : UnpackedFloat}

theorem of_eq {m : Nat} {e : Int} (hm : 0 < m) (shifted : Nat) (hbits : a = shifted * 2 ^ 52 + m)
    (he : e = shifted - 1074) (hroom : m < 2 ^ 53) (hleading : shifted = 0 ∨ 2 ^ 52 ≤ m)
    (hrange : shifted ≤ 2045) : Stored a (.finite .positive m e hm) := by
  subst hbits he
  exact .finite hm hroom hleading hrange

theorem lt (h : Stored a x) : a < 2 ^ 63 := by
  cases h <;> omega

/-- The greater exponent decides, as the mantissa that goes with it has its leading digit. -/
theorem compare_finite {m n d e : Nat} (hm : m < 2 ^ 53) (hn : n < 2 ^ 53)
    (hd : d = 0 ∨ 2 ^ 52 ≤ m) (he : e = 0 ∨ 2 ^ 52 ≤ n) :
    (compare (d - 1074 : Int) (e - 1074)).then (compare m n) =
      compare (d * 2 ^ 52 + m) (e * 2 ^ 52 + n) := by
  rcases lt_trichotomy d e with h | rfl | h
  · have hexponents : compare (d - 1074 : Int) (e - 1074) = .lt := Int.compare_eq_lt.mpr (by omega)
    have hbits : compare (d * 2 ^ 52 + m) (e * 2 ^ 52 + n) = .lt :=
      Nat.compare_eq_lt.mpr (by omega)
    rw [hexponents, hbits]
    rfl
  · have hexponents : compare (d - 1074 : Int) (d - 1074) = .eq := Int.compare_eq_eq.mpr rfl
    rw [hexponents]
    show compare m n = _
    simp only [Nat.compare_eq_ite_lt, Nat.add_lt_add_iff_left]
  · have hexponents : compare (d - 1074 : Int) (e - 1074) = .gt := Int.compare_eq_gt.mpr (by omega)
    have hbits : compare (d * 2 ^ 52 + m) (e * 2 ^ 52 + n) = .gt :=
      Nat.compare_eq_gt.mpr (by omega)
    rw [hexponents, hbits]
    rfl

/-- Stored floats compare as their bits do. -/
theorem compare_eq (hx : Stored a x) (hy : Stored b y) : x.compare y = some (compare a b) := by
  have hsmall (a b : Nat) (h : a < b) : some .lt = some (compare a b) := by
    rw [Nat.compare_eq_lt.mpr h]
  have hgreat (a b : Nat) (h : b < a) : some .gt = some (compare a b) := by
    rw [Nat.compare_eq_gt.mpr h]
  cases hx with
  | zero =>
    cases hy with
    | zero => rfl
    | finite => exact hsmall _ _ (by omega)
    | infinity => rfl
  | infinity =>
    cases hy with
    | zero => rfl
    | finite => exact hgreat _ _ (by omega)
    | infinity => rfl
  | finite hm hroom hleading hrange =>
    cases hy with
    | zero => exact hgreat _ _ (by omega)
    | infinity => exact hsmall _ _ (by omega)
    | finite hn hroom' hleading' hrange' =>
      exact congrArg some (compare_finite hroom hroom' hleading hleading')

end Stored

/-! ## Reading the bits -/

section Read

variable (bits : BitVec 64)

theorem toNat_unpackMantissa :
    (@unpackMantissa .binary64 bits).toNat = bits.toNat % 2 ^ 52 := by
  simp [unpackMantissa]

theorem toNat_unpackExponent :
    (@unpackExponent .binary64 bits).toNat = bits.toNat / 2 ^ 52 % 2 ^ 11 := by
  simp [unpackExponent, Nat.shiftRight_eq_div_pow]

theorem toNat_unpackSign :
    (@unpackSign .binary64 bits).toNat = bits.toNat / 2 ^ 63 % 2 := by
  simp [unpackSign, Nat.shiftRight_eq_div_pow]

/-- Without a minus sign, the bits are those of the exponent and behind them those of the mantissa. -/
theorem toNat_eq_of_positive
    (h : Sign.ofBitVec (@unpackSign .binary64 bits) = .positive) :
    bits.toNat = (@unpackExponent .binary64 bits).toNat * 2 ^ 52 +
      (@unpackMantissa .binary64 bits).toNat := by
  have hsign : @unpackSign .binary64 bits = 0#1 := by
    by_contra hne
    rw [Sign.ofBitVec, if_neg hne] at h
    contradiction
  have hzero := toNat_unpackSign bits
  rw [hsign] at hzero
  have hlt := bits.isLt
  rw [toNat_unpackExponent, toNat_unpackMantissa]
  simp at hzero
  omega

/-- The leading digit of a mantissa is put back when a float is read. -/
theorem toNat_leading (m : BitVec 52) : (1#1 ++ m).toNat = 2 ^ 52 + m.toNat := by
  rw [BitVec.toNat_append, ← Nat.shiftLeft_add_eq_or_of_lt m.isLt]
  rfl

/-- What the bits of a float without a minus sign are. -/
theorem stored_of_unsigned (h : Unsigned (UnpackedFloat.unpack .binary64 bits)) :
    UnpackedFloat.unpack .binary64 bits = .notANumber ∨
      Stored bits.toNat (UnpackedFloat.unpack .binary64 bits) := by
  have hsum := toNat_eq_of_positive bits
  have hroom := (@unpackMantissa .binary64 bits).isLt
  simp only [UnpackedFloat.unpack] at h ⊢
  generalize Sign.ofBitVec (@unpackSign .binary64 bits) = sign at hsum h ⊢
  generalize @unpackExponent .binary64 bits = exponent at hsum h ⊢
  split_ifs at h ⊢ with hlast hnone hfirst hnone
  · cases h
    right
    rw [hsum rfl, hlast, hnone]
    exact .infinity
  · exact .inl rfl
  · cases h
    right
    rw [hsum rfl, hfirst, hnone]
    exact .zero
  · cases h with
    | finite hm =>
      right
      refine .of_eq hm 0 ?_ ?_ (by omega) (.inl rfl) (by omega)
      · rw [hsum rfl, hfirst]
        rfl
      · rw [hfirst]
        rfl
  · cases h with
    | finite hm hroom' hrange =>
      right
      have hleast : exponent.toNat ≠ 0 := fun h => hfirst (BitVec.eq_of_toNat_eq h)
      have hgreatest : exponent.toNat ≠ 2047 := fun h => hlast (BitVec.eq_of_toNat_eq h)
      have hlt := exponent.isLt
      have hleading := toNat_leading (@unpackMantissa .binary64 bits)
      refine .of_eq hm (exponent.toNat - 1) ?_ ?_ hroom' (.inr ?_) ?_
      · rw [hsum rfl, hleading]
        omega
      · simp [Format.exponentBias]
        omega
      · omega
      · simp only [Format.binary64] at hlt
        omega

end Read

/-! ## Floats -/

namespace NotNegative

variable {x y : Float}

/-- The place of a float without a minus sign is its bits. -/
theorem stored (hx : NotNegative x) :
    x.toModel.unpack = .notANumber ∨ ∃ n : Nat, orderKey x = n ∧ Stored n x.toModel.unpack := by
  refine (stored_of_unsigned x.toModel.toBits.toBitVec hx).imp_right fun hstored => ?_
  have hlt : x.toBits.toNat < 2 ^ 63 := hstored.lt
  exact ⟨x.toBits.toNat, if_pos hlt, hstored⟩

/-- Floats without a minus sign compare as their places do, if they are numbers. -/
theorem compare_eq (hx : NotNegative x) (hy : NotNegative y) :
    x.toModel.unpack.compare y.toModel.unpack = none ∨
      x.toModel.unpack.compare y.toModel.unpack = some (compare (orderKey x) (orderKey y)) := by
  rcases hx.stored with hx | ⟨m, hm, hx⟩
  · rw [hx]
    exact .inl rfl
  · rcases hy.stored with hy | ⟨n, hn, hy⟩
    · rw [hy]
      cases x.toModel.unpack <;> exact .inl rfl
    · right
      rw [hx.compare_eq hy, hm, hn, Int.compare_eq_ite_lt, Nat.compare_eq_ite_lt]
      simp only [Int.ofNat_lt]

/-- A smaller value has a smaller place. -/
theorem orderKey_lt (hx : NotNegative x) (hy : NotNegative y) (h : x < y) :
    orderKey x < orderKey y := by
  have hless : x < y ↔ UnpackedFloat.lt x.toModel.unpack y.toModel.unpack = true :=
    decide_eq_true_iff
  have hlt : x.toModel.unpack.compare y.toModel.unpack = some .lt := beq_iff_eq.mp (hless.mp h)
  rcases hx.compare_eq hy with hnone | hsome
  · rw [hnone] at hlt
    contradiction
  · rw [hsome] at hlt
    exact Int.compare_eq_lt.mp (Option.some.inj hlt)

/-- There is one float of each value. -/
theorem eq_of_beq (hx : NotNegative x) (hy : NotNegative y) (h : (x == y) = true) : x = y := by
  have heq : x.toModel.unpack.compare y.toModel.unpack = some .eq := beq_iff_eq.mp h
  rcases hx.compare_eq hy with hnone | hsome
  · rw [hnone] at heq
    contradiction
  · rw [hsome] at heq
    exact orderKey_injective (Int.compare_eq_eq.mp (Option.some.inj heq))

end NotNegative

end SurveyReport.Decimal
