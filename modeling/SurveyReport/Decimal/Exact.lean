/-!
# The exact value of a float

A finite float is `± mantissa · 2 ^ exponent`. Whatever is printed or rounded is worked out on that
exact value in whole numbers.

Results:
* `roundDiv_exact`: a quotient without remainder is its own rounding.
* `roundDiv_bounds`: rounding a quotient moves it by half a unit at most.
-/

namespace SurveyReport.Decimal

/-! ## Rounding a quotient -/

/-- Where a quotient halfway between two whole numbers goes. -/
inductive Tie where
  | toEven
  | up
  deriving DecidableEq, Repr

/-- The whole number nearest to `num / den`. -/
def roundDiv (num den : Nat) (tie : Tie) : Nat :=
  let q := num / den
  let twice := 2 * (num % den)
  if twice < den then q
  else if den < twice then q + 1
  else
    match tie with
    | .up => q + 1
    | .toEven => q + q % 2

theorem roundDiv_exact {den : Nat} (h : 0 < den) (q : Nat) (tie : Tie) :
    roundDiv (q * den) den tie = q := by
  simp [roundDiv, Nat.mul_div_cancel _ h, h]

theorem roundDiv_bounds {den : Nat} (h : 0 < den) (num : Nat) (tie : Tie) :
    2 * num ≤ (2 * roundDiv num den tie + 1) * den ∧
      2 * roundDiv num den tie * den ≤ 2 * num + den := by
  have hdiv := Nat.div_add_mod num den
  have hlt := Nat.mod_lt num h
  have hcomm : num / den * den = den * (num / den) := Nat.mul_comm _ _
  unfold roundDiv
  simp only
  split
  · constructor <;> grind
  · split
    · constructor <;> grind
    · have hpar : num / den % 2 = 0 ∨ num / den % 2 = 1 := by omega
      cases tie
      · rcases hpar with hp | hp <;> rw [hp] <;> constructor <;> grind
      · constructor <;> grind

/-! ## Decoding -/

/-- The exact value of a finite float. -/
structure Exact where
  negative : Bool
  mantissa : Nat
  exponent : Int
  deriving DecidableEq, Repr

/-- The exact value of a float, unless it is infinite or not a number. -/
def Exact.ofFloat? (x : Float) : Option Exact :=
  match x.toModel.unpack with
  | .zero sign => some ⟨sign == .negative, 0, 0⟩
  | .finite sign mantissa exponent _ => some ⟨sign == .negative, mantissa, exponent⟩
  | .infinity _ | .notANumber => none

namespace Exact

/-- The numerator of the value without its sign. -/
def num (x : Exact) : Nat := x.mantissa * Nat.pow 2 x.exponent.toNat

/-- The denominator of the value. -/
def den (x : Exact) : Nat := Nat.pow 2 (-x.exponent).toNat

theorem den_pos (x : Exact) : 0 < x.den := Nat.pow_pos (by decide)

/-- The greatest whole number that is not above the value. -/
def floor (x : Exact) : Int :=
  if x.negative then -(((x.num + x.den - 1) / x.den : Nat) : Int) else ((x.num / x.den : Nat) : Int)

/-- The least whole number that is not below the value. -/
def ceil (x : Exact) : Int := -(floor { x with negative := !x.negative })

end Exact

/-! ## Rounding a float -/

/-- The whole number nearest to `x`, a half going away from zero. -/
def roundHalvesAway (x : Float) : Float :=
  match Exact.ofFloat? x with
  | none => x
  | some e =>
    let n := Float.ofNat (roundDiv e.num e.den .up)
    if e.negative then -n else n

/-- `x` rounded at `scale` parts of a unit, in floating-point steps: scaled up, rounded, and scaled
    down again. -/
def roundAt (scale x : Float) : Float := roundHalvesAway (x * scale) / scale

/-- The least whole number that is not below `x`; 0 if there is none. -/
def ceilInt (x : Float) : Int := ((Exact.ofFloat? x).map Exact.ceil).getD 0

/-! ## Numbers of 32 bits -/

/-- The number of 32 bits with a sign that is nearest to `n`. -/
def clamp32 (n : Int) : Int32 :=
  .ofInt (max Int32.minValue.toInt (min Int32.maxValue.toInt n))

/-- A float as a number of 32 bits, when `whole` rounds what is finite. An unbounded float goes to the
    end of the range, and what is not a number to 0. -/
def round32 (whole : Exact → Int) (x : Float) : Int32 :=
  match Exact.ofFloat? x with
  | some e => clamp32 (whole e)
  | none => if x.isNaN then 0 else if x < 0 then .minValue else .maxValue

/-- The greatest number of 32 bits that is not above `x`, as far as there is one. -/
def floor32 (x : Float) : Int32 := round32 Exact.floor x

/-- The least number of 32 bits that is not below `x`, as far as there is one. -/
def ceil32 (x : Float) : Int32 := round32 Exact.ceil x

/-! ## The order of floats -/

/-- The place of a float in the total order of all floats, in which -0 comes before 0. -/
def orderKey (x : Float) : Int :=
  let bits := x.toBits.toNat
  if bits < 0x8000000000000000 then bits else 0x7fffffffffffffff - (bits : Int)

end SurveyReport.Decimal
