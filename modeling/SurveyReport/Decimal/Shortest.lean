import SurveyReport.Decimal.Exact

/-!
# The shortest decimal that reads back

All reals nearer to a float than to its neighbours read back as that float; the ends of this
interval belong to it when the mantissa is even. Among the decimals in the interval those with the
fewest digits are chosen, and of these the nearest to the float.

Results:
* `stripZeros_value`: leaving out final zeros keeps the value.
-/

namespace SurveyReport.Decimal

/-- The decimal `digits · 10 ^ exponent`. -/
structure Digits where
  digits : Nat
  exponent : Int
  deriving DecidableEq, Repr

/-! ## Final zeros -/

/-- The same decimal with up to `fuel` final zeros moved into the exponent. -/
def stripZeros : (fuel : Nat) → Digits → Digits
  | 0, d => d
  | fuel + 1, d =>
    if d.digits % 10 = 0 then stripZeros fuel ⟨d.digits / 10, d.exponent + 1⟩ else d

/-- Final zeros carry no value: whatever is left out of the digits is in the exponent. -/
theorem stripZeros_value (fuel : Nat) (d : Digits) :
    ∃ k, d.digits = (stripZeros fuel d).digits * Nat.pow 10 k ∧
      (stripZeros fuel d).exponent = d.exponent + (k : Nat) := by
  induction fuel generalizing d with
  | zero => exact ⟨0, by simp [stripZeros]⟩
  | succ fuel ih =>
    unfold stripZeros
    split
    · obtain ⟨k, hk, he⟩ := ih ⟨d.digits / 10, d.exponent + 1⟩
      refine ⟨k + 1, ?_, by rw [he]; simp; omega⟩
      simp only at hk
      have hpow : Nat.pow 10 (k + 1) = Nat.pow 10 k * 10 := rfl
      rw [hpow, ← Nat.mul_assoc, ← hk]
      omega
    · exact ⟨0, by simp⟩

/-! ## The interval and its grids -/

/-- The reals that read back as one float: the value and the two ends, in quarters of the unit
    `2 ^ unit` of the last mantissa bit. -/
structure Interval where
  value : Nat
  lower : Nat
  upper : Nat
  unit : Int
  closed : Bool

/-- The interval of a float other than zero. Below a power of two the neighbour is half as far
    away, unless the exponent is already the least. -/
def Exact.interval (x : Exact) : Interval where
  value := 4 * x.mantissa
  lower := 4 * x.mantissa - if x.mantissa = 0x10000000000000 ∧ -1074 < x.exponent then 1 else 2
  upper := 4 * x.mantissa + 2
  unit := x.exponent - 2
  closed := x.mantissa % 2 == 0

/-- On the grid of multiples of `10 ^ k`, the neighbour of the float that reads back; of two the
    nearer one, and of two as near the one that `tie` says. -/
def Interval.onGrid? (i : Interval) (tie : Tie) (k : Int) : Option Digits :=
  let times := Nat.pow 2 i.unit.toNat * Nat.pow 10 (-k).toNat
  let den := Nat.pow 2 (-i.unit).toNat * Nat.pow 10 k.toNat
  let inside (d : Nat) : Bool :=
    if i.closed then i.lower * times ≤ d * den && d * den ≤ i.upper * times
    else i.lower * times < d * den && d * den < i.upper * times
  let below := i.value * times / den
  let nearest := roundDiv (i.value * times) den tie
  if inside nearest then some ⟨nearest, k⟩
  else if inside below then some ⟨below, k⟩
  else if inside (below + 1) then some ⟨below + 1, k⟩
  else none

/-- The decimal exponent of the leading digit of `num / den`. -/
def leadingExponent (num den : Nat) : Int :=
  let guess : Int := (Nat.toDigits 10 num).length - (Nat.toDigits 10 den).length
  if den * Nat.pow 10 guess.toNat ≤ num * Nat.pow 10 (-guess).toNat then guess else guess - 1

/-- The shortest decimal that reads back as a float other than zero. Seventeen digits always
    do. -/
def Exact.shortest (x : Exact) (tie : Tie) : Digits :=
  let leading := leadingExponent x.num x.den
  let found := (List.range 17).findSome? fun n : Nat => x.interval.onGrid? tie (leading - (n : Int))
  stripZeros 20 (found.getD ⟨roundDiv x.num x.den tie, 0⟩)

end SurveyReport.Decimal
