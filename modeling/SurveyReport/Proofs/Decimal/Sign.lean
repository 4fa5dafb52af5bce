import SurveyReport.Chart.Assembly
import SurveyReport.Proofs.Decimal.Whole

/-!
# Floats without a minus sign

Counts and shares are never below 0. Sums, products and quotients of such floats have no minus sign
either, and a sum of them is 0 only if all of them are: nothing is lost when a sum is rounded, while a
product or a quotient can be rounded to 0.

Results:
* `unsigned_roundWithAccuracy`, `roundWithAccuracy_ne_zero`: what rounding keeps.
* `unpack_pack`: what storing a float keeps.
* `NotNegative.le_zero_iff`: what has no minus sign is not above 0 just when it is 0.
* `notNegative_ofNat`, `notNegative_percent`, `notNegative_valueOf`: counts, shares and what charts
  show have no minus sign.
* `foldl_add_le_zero_iff`: a sum is above 0 as soon as one of its parts is.
-/

namespace SurveyReport.Decimal

open Float.Model Float.Model.UnpackedFloat

/-! ## Shifting a mantissa -/

theorem mantissa_repeat_shiftRightOne (x : ExtendedMantissa) (k : Nat) :
    (Nat.repeat ExtendedMantissa.shiftRightOne k x).mantissa = x.mantissa / 2 ^ k := by
  induction k with
  | zero => simp [Nat.repeat]
  | succ k ih =>
    rw [Nat.repeat, ExtendedMantissa.shiftRightOne, ih, Nat.div_div_eq_div_mul, ← Nat.pow_succ]

theorem mantissa_ofMantissaAndAccuracy (m : Nat) (a : Accuracy) :
    (ExtendedMantissa.ofMantissaAndAccuracy m a).mantissa = m := by
  unfold ExtendedMantissa.ofMantissaAndAccuracy
  split <;> rfl

/-- What is shifted out of a mantissa, so that it fits into its room and the exponent into its range.
    If the exponent was in its range before, the leading digit stays. -/
theorem exists_shift (m : Nat) (e : Int) (a : Accuracy) :
    ∃ k : Nat, (shiftToTargetExponent .binary64 m e a).1.mantissa = m / 2 ^ k ∧
      (shiftToTargetExponent .binary64 m e a).2 = e + k ∧
      m.log2 ≤ k + 52 ∧ -1074 ≤ e + k ∧ (-1074 ≤ e → k ≤ m.log2) := by
  have htarget : Format.targetExponent .binary64 (totalExponent m e) =
      max (m.log2 + 1 + e - 53) (-1074) := by
    simp [totalExponent, Format.targetExponent, Format.mantissaBits, Format.minExponent]
  refine ⟨(max (m.log2 + 1 + e - 53) (-1074) - e).toNat, ?_, ?_, by omega, by omega, by omega⟩
  · simp only [shiftToTargetExponent, shiftToExponent, htarget]
    exact (mantissa_repeat_shiftRightOne _ _).trans (by rw [mantissa_ofMantissaAndAccuracy])
  · simp only [shiftToTargetExponent, shiftToExponent, htarget]

theorem shiftToTargetExponent_fits (m : Nat) (e : Int) (a : Accuracy) :
    (shiftToTargetExponent .binary64 m e a).1.mantissa < 2 ^ 53 ∧
      -1074 ≤ (shiftToTargetExponent .binary64 m e a).2 := by
  obtain ⟨k, hmantissa, hexponent, hroom, hrange, -⟩ := exists_shift m e a
  refine ⟨?_, hexponent ▸ hrange⟩
  rw [hmantissa, Nat.div_lt_iff_lt_mul (Nat.two_pow_pos k), ← Nat.pow_add]
  exact Nat.lt_log2_self.trans_le (Nat.pow_le_pow_right (by decide) (by omega))

theorem shiftToTargetExponent_pos {m : Nat} (hm : 0 < m) {e : Int} (he : -1074 ≤ e) (a : Accuracy) :
    0 < (shiftToTargetExponent .binary64 m e a).1.mantissa := by
  obtain ⟨k, hmantissa, -, -, -, hleading⟩ := exists_shift m e a
  rw [hmantissa]
  refine Nat.div_pos ?_ (Nat.two_pow_pos k)
  exact (Nat.pow_le_pow_right (by decide) (hleading he)).trans (Nat.log2_self_le hm.ne')

theorem le_roundedMantissa (x : ExtendedMantissa) : x.mantissa ≤ x.roundedMantissa := by
  obtain ⟨m, round, sticky⟩ := x
  cases round <;> cases sticky <;>
    simp [ExtendedMantissa.roundedMantissa, ExtendedMantissa.accuracy, Accuracy.roundToNearestEven]

/-! ## Rounding -/

/-- Not a number, or without a minus sign; a finite number fits into its room. -/
inductive Unsigned : UnpackedFloat → Prop
  | notANumber : Unsigned .notANumber
  | infinity : Unsigned (.infinity .positive)
  | zero : Unsigned (.zero .positive)
  | finite {m : Nat} {e : Int} (hm : 0 < m) (hroom : m < 2 ^ 53) (hrange : -1074 ≤ e) :
      Unsigned (.finite .positive m e hm)

theorem unsigned_roundWithAccuracy (m : Nat) (e : Int) (a : Accuracy) :
    Unsigned (roundWithAccuracy .binary64 .positive m e a) := by
  simp only [roundWithAccuracy]
  split
  · exact .zero
  · obtain ⟨hroom, hrange⟩ := shiftToTargetExponent_fits
      (shiftToTargetExponent .binary64 m e a).1.roundedMantissa
      (shiftToTargetExponent .binary64 m e a).2 .exact
    exact .finite _ hroom hrange

/-- What is in the range of floats is not rounded to 0. -/
theorem roundWithAccuracy_ne_zero {m : Nat} (hm : 0 < m) {e : Int} (he : -1074 ≤ e) (a : Accuracy)
    (s t : Sign) : roundWithAccuracy .binary64 s m e a ≠ .zero t := by
  have hshifted := shiftToTargetExponent_pos hm he a
  have hrounded := hshifted.trans_le (le_roundedMantissa _)
  have hpos := shiftToTargetExponent_pos hrounded (shiftToTargetExponent_fits m e a).2 .exact
  simp only [roundWithAccuracy]
  rw [dif_neg hpos.ne']
  exact UnpackedFloat.noConfusion

/-! ## Adding, multiplying, dividing -/

namespace Unsigned

variable {x y : UnpackedFloat}

/-- The sum of two positive numbers. -/
theorem add_finite {m n : Nat} {d e : Int} (hm : 0 < m) (hn : 0 < n) (hd : -1074 ≤ d)
    (he : -1074 ≤ e) :
    Unsigned (UnpackedFloat.add .binary64 (.finite .positive m d hm) (.finite .positive n e hn)) ∧
      ∀ s, UnpackedFloat.add .binary64 (.finite .positive m d hm) (.finite .positive n e hn) ≠
        .zero s := by
  -- both mantissas are brought to the smaller exponent, which makes none of them 0
  obtain ⟨sum, hsum, hpos⟩ : ∃ sum : Nat,
      (Sign.apply .positive (decreaseExponent m d (min d e)).1 +
        Sign.apply .positive (decreaseExponent n e (min d e)).1 : Int) = sum ∧ 0 < sum := by
    refine ⟨_, (Int.natCast_add _ _).symm, ?_⟩
    simp only [decreaseExponent, Nat.shiftLeft_eq]
    exact Nat.add_pos_left (Nat.mul_pos hm (Nat.two_pow_pos _)) _
  have hcompare : compare (sum : Int) 0 = .gt := by
    rw [Int.compare_eq_gt]
    omega
  simp only [UnpackedFloat.add, hsum, UnpackedFloat.normalize, hcompare, UnpackedFloat.round, Int.toNat_natCast]
  refine ⟨unsigned_roundWithAccuracy _ _ _, fun s => roundWithAccuracy_ne_zero ?_ ?_ _ _ _⟩
  · simp only [decreaseExponent, Nat.shiftLeft_eq]
    exact Nat.mul_pos hpos (Nat.two_pow_pos _)
  · have hleast : -1074 ≤ Format.targetExponent .binary64 (totalExponent sum (min d e)) :=
      Int.le_max_right _ _
    simp only [decreaseExponent]
    omega

theorem add (hx : Unsigned x) (hy : Unsigned y) :
    Unsigned (UnpackedFloat.add .binary64 x y) ∧
      (UnpackedFloat.add .binary64 x y = .zero .positive ↔
        x = .zero .positive ∧ y = .zero .positive) := by
  cases hx with
  | notANumber => exact ⟨.notANumber, by simp [UnpackedFloat.add]⟩
  | infinity => cases hy <;> exact ⟨by constructor, by simp [UnpackedFloat.add]⟩
  | zero =>
    cases hy with
    | finite hn hroom hrange => exact ⟨.finite hn hroom hrange, by simp [UnpackedFloat.add]⟩
    | _ => exact ⟨by constructor, by simp [UnpackedFloat.add]⟩
  | finite hm hroom hrange =>
    cases hy with
    | zero => exact ⟨.finite hm hroom hrange, by simp [UnpackedFloat.add]⟩
    | finite hn _ hrange' =>
      obtain ⟨hunsigned, hne⟩ := add_finite hm hn hrange hrange'
      exact ⟨hunsigned, by simp [hne]⟩
    | _ => exact ⟨by constructor, by simp [UnpackedFloat.add]⟩

theorem mul (hx : Unsigned x) (hy : Unsigned y) : Unsigned (UnpackedFloat.mul .binary64 x y) := by
  cases hx with
  | finite =>
    cases hy with
    | finite => exact unsigned_roundWithAccuracy _ _ _
    | _ => constructor
  | _ => cases hy <;> constructor

theorem div (hx : Unsigned x) (hy : Unsigned y) : Unsigned (UnpackedFloat.div .binary64 x y) := by
  cases hx with
  | finite =>
    cases hy with
    | finite => exact unsigned_roundWithAccuracy _ _ _
    | _ => constructor
  | _ => cases hy <;> constructor

end Unsigned

/-! ## Storing -/

/-- A number with too few digits for its room is stored with the least exponent. -/
theorem unpack_packComponents_subnormal {m : Nat} (hm : 0 < m) (hfew : m < 2 ^ 52) (s : Sign) :
    UnpackedFloat.unpack .binary64 (packComponents .binary64 s 0#11 (BitVec.ofNat 52 m)) =
      .finite s m (-1074) hm := by
  have hvalue : (BitVec.ofNat 52 m).toNat = m := by
    rw [BitVec.toNat_ofNat, Nat.mod_eq_of_lt hfew]
  have hne : BitVec.ofNat 52 m ≠ 0#52 := by
    intro h
    rw [h] at hvalue
    exact hm.ne hvalue
  have hfinite : (0#11 : BitVec 11) ≠ -1#11 := by decide
  simp only [UnpackedFloat.unpack, unpackMantissa_packComponents, unpackExponent_packComponents,
    unpackSign_packComponents]
  rw [if_neg hfinite, if_pos trivial, dif_neg hne]
  simp only [hvalue]
  rfl

/-- A number is stored without a loss, unless it is too great or has too few digits. -/
theorem unpack_pack_finite {m : Nat} {e : Int} (hm : 0 < m) (hroom : m < 2 ^ 53) (he : -1074 ≤ e)
    (s : Sign) :
    (pack (.finite s m e hm)).unpack = .infinity s ∨
      ∃ e', -1074 ≤ e' ∧ (pack (.finite s m e hm)).unpack = .finite s m e' hm := by
  by_cases hgreat : 971 < e
  · left
    have hstored : UnpackedFloat.pack .binary64 (.finite s m e hm) = packedInfinity .binary64 s := by
      simp only [UnpackedFloat.pack]
      rw [if_pos (by simp [Format.exponentBias]; omega)]
    show UnpackedFloat.unpack .binary64 (UnpackedFloat.pack .binary64 (.finite s m e hm)) = _
    rw [hstored]
    cases s <;> rfl
  · right
    by_cases hfull : Full m
    · exact ⟨e, he, unpack_pack_full hfull he (by omega) s⟩
    · have hlog : m.log2 < 53 := (Nat.log2_lt hm.ne').mpr hroom
      have hfew : m < 2 ^ 52 := (Nat.log2_lt hm.ne').mp (by unfold Full at hfull; omega)
      have hstored : UnpackedFloat.pack .binary64 (.finite s m e hm) =
          packComponents .binary64 s 0#11 (BitVec.ofNat 52 m) := by
        simp only [UnpackedFloat.pack]
        rw [if_neg (by simp [Format.exponentBias]; omega),
          if_neg (by simp [Format.mantissaBits]; unfold Full at hfull; omega)]
      refine ⟨-1074, le_refl _, ?_⟩
      show UnpackedFloat.unpack .binary64 (UnpackedFloat.pack .binary64 (.finite s m e hm)) = _
      rw [hstored]
      exact unpack_packComponents_subnormal hm hfew s

theorem unpack_pack {x : UnpackedFloat} (hx : Unsigned x) :
    Unsigned (pack x).unpack ∧ ((pack x).unpack = .zero .positive ↔ x = .zero .positive) := by
  cases hx with
  | notANumber => exact ⟨.notANumber, .rfl⟩
  | infinity => exact ⟨.infinity, .rfl⟩
  | zero => exact ⟨.zero, .rfl⟩
  | finite hm hroom hrange =>
    rcases unpack_pack_finite hm hroom hrange .positive with h | ⟨e', he', h⟩ <;> rw [h]
    · exact ⟨.infinity, by simp⟩
    · exact ⟨.finite hm hroom he', by simp⟩

/-! ## Floats -/

/-- The float has no minus sign, or is not a number. -/
def NotNegative (x : Float) : Prop := Unsigned x.toModel.unpack

/-- The float is 0, without a minus sign. -/
def IsZero (x : Float) : Prop := x.toModel.unpack = .zero .positive

namespace NotNegative

variable {x y : Float}

theorem add (hx : NotNegative x) (hy : NotNegative y) :
    NotNegative (x + y) ∧ (IsZero (x + y) ↔ IsZero x ∧ IsZero y) := by
  obtain ⟨hsum, hzero⟩ := Unsigned.add hx hy
  obtain ⟨hstored, hiff⟩ := unpack_pack hsum
  exact ⟨hstored, hiff.trans hzero⟩

theorem mul (hx : NotNegative x) (hy : NotNegative y) : NotNegative (x * y) :=
  (unpack_pack (Unsigned.mul hx hy)).1

theorem div (hx : NotNegative x) (hy : NotNegative y) : NotNegative (x / y) :=
  (unpack_pack (Unsigned.div hx hy)).1

theorem le_zero_iff (hx : NotNegative x) : x ≤ 0 ↔ IsZero x := by
  have hle : x ≤ 0 ↔ UnpackedFloat.le x.toModel.unpack (.zero .positive) = true :=
    decide_eq_true_iff
  rw [hle, IsZero]
  unfold NotNegative at hx
  generalize x.toModel.unpack = u at hx ⊢
  cases hx <;> simp [UnpackedFloat.le, UnpackedFloat.compare]

end NotNegative

/-! ## Whole numbers -/

/-- A number that is too great for its digits to fit is rounded, but not to 0. -/
theorem unsigned_ofScientific {n : Nat} (hn : n ≠ 0) :
    Unsigned (UnpackedFloat.ofScientific .binary64 n 0) ∧
      UnpackedFloat.ofScientific .binary64 n 0 ≠ .zero .positive := by
  have hpos : 0 < n <<< 53 * 10 ^ 0 := by
    simp only [Nat.shiftLeft_eq]
    positivity
  have hproduct : UnpackedFloat.ofScientific .binary64 n 0 =
      roundWithAccuracy .binary64 .positive (n <<< 53 * 10 ^ 0) (-53) .exact := by
    unfold UnpackedFloat.ofScientific
    rw [dif_neg hn, if_neg (by simp), if_neg (by simp), if_pos (le_refl _)]
    rfl
  rw [hproduct]
  exact ⟨unsigned_roundWithAccuracy _ _ _, roundWithAccuracy_ne_zero hpos (by decide) _ _ _⟩

theorem ofNat_spec (n : Nat) :
    NotNegative (Float.ofNat n) ∧ (IsZero (Float.ofNat n) ↔ n = 0) := by
  by_cases hn : n = 0
  · subst hn
    exact ⟨.zero, fun _ => rfl, fun _ => rfl⟩
  · by_cases hsmall : n < 2 ^ 53
    · have hfull := full_shifted hn hsmall
      have hlog : n.log2 < 53 := (Nat.log2_lt hn).mpr hsmall
      have hroom : n * 2 ^ room n < 2 ^ 53 :=
        (Nat.log2_lt hfull.pos.ne').mp (by rw [hfull]; decide)
      unfold NotNegative IsZero
      rw [unpack_ofNat hn hsmall]
      exact ⟨.finite _ hroom (by unfold room; omega), by simp [hn]⟩
    · have hofNat : (Float.ofNat n).toModel = pack (UnpackedFloat.ofScientific .binary64 n 0) := by
        show (Float.ofScientific n false 0).toModel = _
        rw [Float.ofScientific, dif_neg fun h => hsmall h.1]
        rfl
      obtain ⟨hunsigned, hne⟩ := unsigned_ofScientific hn
      obtain ⟨hstored, hzero⟩ := unpack_pack hunsigned
      unfold NotNegative IsZero
      rw [hofNat]
      exact ⟨hstored, by simp [hzero, hne, hn]⟩

theorem notNegative_ofNat (n : Nat) : NotNegative (Float.ofNat n) := (ofNat_spec n).1

/-- Only 0 makes the float 0. -/
theorem ofNat_le_zero_iff (n : Nat) : Float.ofNat n ≤ 0 ↔ n = 0 :=
  (notNegative_ofNat n).le_zero_iff.trans (ofNat_spec n).2

/-! ## Shares -/

/-- A float that is rounded to a whole number has no minus sign if it had none before. -/
theorem NotNegative.roundHalvesAway {x : Float} (hx : NotNegative x) :
    NotNegative (Decimal.roundHalvesAway x) := by
  have hsign : ∀ e, Exact.ofFloat? x = some e → e.negative = false := by
    intro e he
    unfold Exact.ofFloat? at he
    unfold NotNegative at hx
    generalize x.toModel.unpack = u at hx he
    cases hx <;> cases he <;> rfl
  unfold Decimal.roundHalvesAway
  cases he : Exact.ofFloat? x with
  | none => exact hx
  | some e =>
    simp only [hsign e he]
    exact notNegative_ofNat _

/-- A share may be rounded to 0, but never below. -/
theorem notNegative_percent (count total : Nat) : NotNegative (Summary.percent count total) := by
  unfold Summary.percent
  split
  · exact notNegative_ofNat 0
  · have hshare := ((notNegative_ofNat count).div (notNegative_ofNat total)).mul
      (notNegative_ofNat 100)
    exact (hshare.mul (notNegative_ofNat 10)).roundHalvesAway.div (notNegative_ofNat 10)

theorem notNegative_valueOf (statistic : Statistic) (count total : Nat) :
    NotNegative (Chart.valueOf statistic count total) := by
  unfold Chart.valueOf
  split
  · exact notNegative_percent count total
  · exact notNegative_ofNat count

/-! ## Sums -/

theorem foldl_add_spec {x : Float} (hx : NotNegative x) {parts : List Float}
    (h : ∀ p ∈ parts, NotNegative p) :
    NotNegative (parts.foldl (· + ·) x) ∧
      (IsZero (parts.foldl (· + ·) x) ↔ IsZero x ∧ ∀ p ∈ parts, IsZero p) := by
  induction parts generalizing x with
  | nil => simpa using hx
  | cons p parts ih =>
    obtain ⟨hsum, hzero⟩ := hx.add (h p (by simp))
    obtain ⟨hall, hiff⟩ := ih hsum fun q hq => h q (by simp [hq])
    refine ⟨hall, hiff.trans ?_⟩
    rw [hzero, List.forall_mem_cons, and_assoc]

/-- **No sum is lost.** A sum of floats without a minus sign is above 0 as soon as one of them is. -/
theorem foldl_add_le_zero_iff {parts : List Float} (h : ∀ p ∈ parts, NotNegative p) :
    parts.foldl (· + ·) 0 ≤ 0 ↔ ∀ p ∈ parts, p ≤ 0 := by
  have hstart : NotNegative 0 ∧ IsZero 0 := ⟨notNegative_ofNat 0, (ofNat_spec 0).2.mpr rfl⟩
  obtain ⟨hsum, hzero⟩ := foldl_add_spec hstart.1 h
  rw [hsum.le_zero_iff, hzero]
  exact ⟨fun hparts p hp => (h p hp).le_zero_iff.mpr (hparts.2 p hp),
    fun hparts => ⟨hstart.2, fun p hp => (h p hp).le_zero_iff.mp (hparts p hp)⟩⟩

end SurveyReport.Decimal
