import SurveyReport.Json

/-!
# Writing JSON

Values are written on one line, or with one item or field a line and two blanks more for each level.

Results:
* `escapedChar_of_ge`: only quotes, backslashes and control characters are written as escapes.
-/

namespace SurveyReport.Json

/-! ## Strings -/

/-- A lower-case hexadecimal digit. -/
def hexDigit (n : Nat) : Char := Nat.digitChar (n % 16)

/-- A character as it is written inside a string. -/
def escapedChar (c : Char) : List Char :=
  if c = '"' then ['\\', '"']
  else if c = '\\' then ['\\', '\\']
  else if c = '\x08' then ['\\', 'b']
  else if c = '\x0c' then ['\\', 'f']
  else if c = '\n' then ['\\', 'n']
  else if c = '\r' then ['\\', 'r']
  else if c = '\t' then ['\\', 't']
  else if c.toNat < 0x20 then ['\\', 'u', '0', '0', hexDigit (c.toNat / 16), hexDigit c.toNat]
  else [c]

theorem escapedChar_of_ge {c : Char} (hq : c ≠ '"') (hb : c ≠ '\\') (h : 0x20 ≤ c.toNat) :
    escapedChar c = [c] := by
  have hne : ∀ d : Char, d.toNat < 0x20 → c ≠ d := by rintro d hd rfl; omega
  simp [escapedChar, hq, hb, hne '\x08' (by decide), hne '\x0c' (by decide), hne '\n' (by decide),
    hne '\r' (by decide), hne '\t' (by decide), Nat.not_lt.mpr h]

/-- A text in quotes. A string that is no text is written as an empty one. -/
def quoted (text : Option String) : List Char :=
  '"' :: (((text.getD "").toList.flatMap escapedChar) ++ ['"'])

/-! ## On one line -/

mutual

/-- A value on one line, without blanks. -/
def compact : Json → List Char
  | .null => "null".toList
  | .bool b => (if b then "true" else "false").toList
  | .number s => s.toList
  | .string s => quoted s
  | .array vs => '[' :: (compactItems vs ++ [']'])
  | .object fs => '\x7b' :: (compactFields fs ++ ['\x7d'])

/-- Items with commas between them. -/
def compactItems : List Json → List Char
  | [] => []
  | [v] => compact v
  | v :: w :: vs => compact v ++ ',' :: compactItems (w :: vs)

/-- Fields with commas between them. -/
def compactFields : List (Option String × Json) → List Char
  | [] => []
  | [(name, v)] => quoted name ++ ':' :: compact v
  | (name, v) :: f :: fs => quoted name ++ ':' :: (compact v ++ ',' :: compactFields (f :: fs))

end

/-! ## One item a line -/

/-- A new line at a level. -/
def newLine (level : Nat) : List Char := '\n' :: List.replicate (2 * level) ' '

mutual

/-- A value that begins at a level. -/
def indented (level : Nat) : Json → List Char
  | .null => "null".toList
  | .bool b => (if b then "true" else "false").toList
  | .number s => s.toList
  | .string s => quoted s
  | .array [] => ['[', ']']
  | .array (v :: vs) => '[' :: (indentedItems (level + 1) (v :: vs) ++ newLine level ++ [']'])
  | .object [] => ['\x7b', '\x7d']
  | .object (f :: fs) =>
    '\x7b' :: (indentedFields (level + 1) (f :: fs) ++ newLine level ++ ['\x7d'])

/-- Items, each on a line of its own. -/
def indentedItems (level : Nat) : List Json → List Char
  | [] => []
  | [v] => newLine level ++ indented level v
  | v :: w :: vs => newLine level ++ indented level v ++ ',' :: indentedItems level (w :: vs)

/-- Fields, each on a line of its own. -/
def indentedFields (level : Nat) : List (Option String × Json) → List Char
  | [] => []
  | [(name, v)] => newLine level ++ quoted name ++ ':' :: ' ' :: indented level v
  | (name, v) :: f :: fs =>
    newLine level ++ quoted name ++ ':' :: ' ' :: (indented level v ++
      ',' :: indentedFields level (f :: fs))

end

end SurveyReport.Json
