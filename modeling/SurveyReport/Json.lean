/-!
# JSON values

Numbers are kept as they are spelled. A string is `none` when it holds half of a surrogate pair,
for which there is no text.
-/

namespace SurveyReport

/-- A JSON value. -/
inductive Json where
  | null
  | bool (b : Bool)
  | number (spelling : String)
  | string (text : Option String)
  | array (items : List Json)
  | object (fields : List (Option String × Json))

namespace Json

/-- A string that is a text. -/
def text (s : String) : Json := .string (some s)

/-- A whole number. -/
def nat (n : Nat) : Json := .number (toString n)

/-- An object whose field names are texts. -/
def fields (fs : List (String × Json)) : Json := .object (fs.map fun (name, v) => (some name, v))

/-- A value, or null. -/
def orNull : Option Json → Json
  | none => .null
  | some v => v

/-- The value of the first field with that name. -/
def field? : Json → String → Option Json
  | .object fs, name => (fs.find? fun (n, _) => n == some name).map (·.2)
  | _, _ => none

/-- The whole number that a value spells without sign, point and exponent. -/
def nat? : Json → Option Nat
  | .number s => if s.toList.all Char.isDigit then some (Nat.ofDigitChars 10 s.toList 0) else none
  | _ => none

/-- The truth value of a value. -/
def bool? : Json → Option Bool
  | .bool b => some b
  | _ => none

/-- The text of a value. -/
def text? : Json → Option String
  | .string s => s
  | _ => none

/-- The items of an array. -/
def items? : Json → Option (List Json)
  | .array vs => some vs
  | _ => none

end Json

end SurveyReport
