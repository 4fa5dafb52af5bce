import SurveyReport.Decimal.Shortest

/-!
# Numbers as text

Whole numbers are written in full. A float is written with the shortest digits that read back, or
rounded to one decimal place.
-/

namespace SurveyReport.Decimal

/-- The digits of a whole number. -/
def natural (n : Nat) : List Char := Nat.toDigits 10 n

/-- `n` with at least `width` digits. -/
def padded (width n : Nat) : List Char := (natural n).leftpad width '0'

/-- The digits with the point in front of the last `places` of them. -/
def shownAt (places : Nat) (digits : List Char) : List Char :=
  if places = 0 then digits
  else
    let all := digits.leftpad (places + 1) '0'
    all.take (all.length - places) ++ '.' :: all.drop (all.length - places)

/-- A decimal written out in full, without an exponent. -/
def Digits.positional (d : Digits) : List Char :=
  shownAt (-d.exponent).toNat (natural d.digits ++ List.replicate d.exponent.toNat '0')

/-- The sign of a negative value. -/
def signed (negative : Bool) (text : List Char) : List Char := if negative then '-' :: text else text

/-- A float in the text of a report: the fewest digits that read back, a tie going up, written out
    in full. -/
def plain (x : Float) : String :=
  match Exact.ofFloat? x with
  | none => if x.isNaN then "NaN" else if x < 0 then "-inf" else "inf"
  | some e =>
    let text := if e.mantissa = 0 then ['0'] else (e.shortest .up).positional
    .ofList (signed e.negative text)

/-- A float rounded to one decimal place, a tie going to the even neighbour. -/
def oneDecimal (x : Float) : String :=
  match Exact.ofFloat? x with
  | none => if x.isNaN then "NaN" else if x < 0 then "-inf" else "inf"
  | some e => .ofList (signed e.negative (shownAt 1 (natural (roundDiv (10 * e.num) e.den .toEven))))

/-- A decimal exponent, always with its sign. -/
def power (exponent : Int) : List Char :=
  'e' :: (if exponent < 0 then '-' else '+') :: natural exponent.natAbs

/-- A float in a listing of data: the fewest digits that read back, always with a point or an
    exponent; the exponent is written for a leading digit below `10 ^ -5` or from `10 ^ 16` on. -/
def listed (x : Float) : String :=
  match Exact.ofFloat? x with
  | none => "null"
  | some e =>
    let d := if e.mantissa = 0 then ⟨0, 0⟩ else e.shortest .toEven
    let digits := natural d.digits
    let leading := d.exponent + digits.length - 1
    let text :=
      if -5 ≤ leading ∧ leading < 16 then
        if 0 ≤ d.exponent then d.positional ++ ['.', '0'] else d.positional
      else
        let point := if digits.length = 1 then digits else digits.take 1 ++ '.' :: digits.drop 1
        point ++ power leading
    .ofList (signed e.negative text)

end SurveyReport.Decimal
