import SurveyReport.Column
import SurveyReport.Decimal.Layout
import SurveyReport.Failure
import SurveyReport.Text.LowerCase

/-!
# Statistics as text

The text of a statistic over columns of answers. Numbers of answers and percentages include the
unknown answers; range and mean are taken over the answers that are number words. These are "zero" to
"twenty", in any case of their letters.

Results:
* `value?_le`: no word stands for more than twenty.
* `text_count`, `text_percentage`: these two statistics never fail.
-/

namespace SurveyReport

/-- The label of the answers that are not known. -/
def unknownLabel : String := "Unknown"

/-! ## Number words -/

namespace NumberWord

/-- The words in the order of their numbers. -/
def words : List String :=
  ["zero", "one", "two", "three", "four", "five", "six", "seven", "eight", "nine", "ten",
   "eleven", "twelve", "thirteen", "fourteen", "fifteen", "sixteen", "seventeen", "eighteen",
   "nineteen", "twenty"]

/-- The number that a word stands for. -/
def value? (word : String) : Option Nat := words.findIdx? (· == Text.lower word)

theorem value?_le {word : String} {n : Nat} (h : value? word = some n) : n ≤ 20 := by
  have := (List.findIdx?_eq_some_iff_getElem.mp h).1
  simp [words] at this
  omega

end NumberWord

namespace Summary

/-! ## Shares -/

/-- A number as a float. -/
def floatOf (n : Nat) : Float := Float.ofNat n

/-- The percentage of a number in a total, rounded to one place; nothing of nothing is 0. -/
def percent (count total : Nat) : Float :=
  if total = 0 then 0 else Decimal.roundAt 10 (floatOf count / floatOf total * 100)

/-! ## Counts -/

/-- The counts of one column. One answer alone is not named. -/
def countsOf (c : Column) : String :=
  let known :=
    if 1 < c.categories.length then c.categories.map fun a => s!"{a.name}: {a.count}, "
    else c.categories.map fun a => s!"{a.count}"
  let unknown := if c.unknown = 0 then [] else [s!"{unknownLabel}: {c.unknown}"]
  String.join (known ++ unknown)

/-- The counts of the columns, one behind the other. -/
def counts (columns : List Column) : String := String.join (columns.map countsOf)

/-! ## Percentages -/

/-- One answer with its percentage. -/
def shareOf (name : String) (count total : Nat) : String :=
  s!"{name}: {Decimal.oneDecimal (percent count total)}%"

/-- The percentages of one column. -/
def sharesOf (c : Column) : List String :=
  (c.categories.map fun a => shareOf a.name a.count c.total) ++
    if c.unknown = 0 then [] else [shareOf unknownLabel c.unknown c.total]

/-- The percentages of the columns, with commas between them. -/
def shares (columns : List Column) : String := ", ".intercalate (columns.flatMap sharesOf)

/-! ## Range and mean -/

/-- All answers of the columns: the number each stands for, if any, and how often it was given. -/
def numbers (columns : List Column) : List (Option Nat × Nat) :=
  (columns.flatMap (·.categories)).map fun a => (NumberWord.value? a.name, a.count)

/-- The least and the greatest of the numbers. -/
def range? (columns : List Column) : Option (Nat × Nat) :=
  match (numbers columns).filterMap (·.1) with
  | [] => none
  | n :: rest => some (rest.foldl min n, rest.foldl max n)

/-- The sum of the numbers, each as often as it was given. -/
def weightedSum (columns : List Column) : Nat :=
  (numbers columns).foldr (fun (value, count) n => value.getD 0 * count + n) 0

/-- How often an answer was given, whether it is a number or not. -/
def occurrences (columns : List Column) : Nat :=
  (numbers columns).foldr (fun (_, count) n => count + n) 0

/-- The mean of the numbers over all answers, rounded to two places. -/
def mean? (columns : List Column) : Option Float :=
  if (range? columns).isNone ∨ occurrences columns = 0 then none
  else
    some (Decimal.roundAt 100 (floatOf (weightedSum columns) / floatOf (occurrences columns)))

/-! ## All statistics -/

/-- The first answer of the first column. -/
def firstValue (columns : List Column) (source : String) : Except Failure String :=
  match columns with
  | [] => .error (.noColumns source)
  | c :: _ =>
    match c.categories with
    | [] => .error (.noValues c.name)
    | a :: _ => .ok a.name

/-- The text that a request asks for. -/
def text (columns : List Column) (statistic : Statistic) (source : String) :
    Except Failure String :=
  match statistic with
  | .value => firstValue columns source
  | .count => .ok (counts columns)
  | .percentage => .ok (shares columns)
  | .range =>
    match range? columns with
    | none => .error (.noNumbers .range source)
    | some (least, greatest) => .ok s!"{least} - {greatest}"
  | .mean =>
    match mean? columns with
    | none => .error (.noNumbers .mean source)
    | some mean => .ok (Decimal.plain mean)

theorem text_count (columns : List Column) (source : String) :
    text columns .count source = .ok (counts columns) := rfl

theorem text_percentage (columns : List Column) (source : String) :
    text columns .percentage source = .ok (shares columns) := rfl

end Summary

end SurveyReport
