import SurveyReport.Json

/-!
# Reading JSON

The grammar of the format, without extensions: no comments, no trailing commas, no leading zeros,
and control characters in strings only as escapes. Every reader takes what it wants from the head of
the text and returns the rest.

Results:
* `joinUnits_scalar`: characters outside the surrogate ranges stand for themselves.
-/

namespace SurveyReport.Json

/-! ## Blanks, words and numbers -/

/-- The four blanks that may stand between values. -/
def isSpace (c : Char) : Bool := c == ' ' || c == '\t' || c == '\n' || c == '\r'

/-- The text from its first character that is no blank. -/
def skipSpace (s : List Char) : List Char := s.dropWhile isSpace

/-- At least one digit. -/
def digits? (s : List Char) : Option (List Char × List Char) :=
  if (s.takeWhile Char.isDigit).isEmpty then none
  else some (s.takeWhile Char.isDigit, s.dropWhile Char.isDigit)

/-- Digits that do not begin with a needless zero. -/
def whole? (s : List Char) : Option (List Char × List Char) := do
  let (digits, rest) ← digits? s
  if digits.head? == some '0' && digits.length != 1 then none else some (digits, rest)

/-- A point and the digits behind it, if a point follows. -/
def fraction? : List Char → Option (List Char × List Char)
  | '.' :: rest => (digits? rest).map fun (digits, rest) => ('.' :: digits, rest)
  | s => some ([], s)

/-- A mark, a sign and digits, if a mark follows. -/
def power? : List Char → Option (List Char × List Char)
  | c :: rest =>
    if c = 'e' ∨ c = 'E' then
      match rest with
      | d :: after =>
        if d = '+' ∨ d = '-' then (digits? after).map fun (ds, rest) => (c :: d :: ds, rest)
        else (digits? rest).map fun (ds, rest) => (c :: ds, rest)
      | [] => none
    else some ([], c :: rest)
  | [] => some ([], [])

/-- The spelling of a number without its sign. -/
def unsigned? (s : List Char) : Option (List Char × List Char) := do
  let (a, s) ← whole? s
  let (b, s) ← fraction? s
  let (c, s) ← power? s
  some (a ++ b ++ c, s)

/-- The spelling of a number. -/
def readNumber? : List Char → Option (List Char × List Char)
  | '-' :: rest => (unsigned? rest).map fun (digits, rest) => ('-' :: digits, rest)
  | s => unsigned? s

/-! ## Strings -/

/-- The value of a hexadecimal digit. -/
def hexDigit? (c : Char) : Option Nat :=
  if '0' ≤ c ∧ c ≤ '9' then some (c.toNat - '0'.toNat)
  else if 'a' ≤ c ∧ c ≤ 'f' then some (c.toNat - 'a'.toNat + 10)
  else if 'A' ≤ c ∧ c ≤ 'F' then some (c.toNat - 'A'.toNat + 10)
  else none

/-- What the character behind a backslash stands for. -/
def escaped? : Char → Option Nat
  | '"' => some 0x22
  | '\\' => some 0x5c
  | '/' => some 0x2f
  | 'b' => some 8
  | 'f' => some 12
  | 'n' => some 10
  | 'r' => some 13
  | 't' => some 9
  | _ => none

/-- The code units up to the closing quote: escapes by number give one unit each, all other
    characters their code point. -/
def units? : List Char → Option (List Nat × List Char)
  | [] => none
  | '"' :: rest => some ([], rest)
  | '\\' :: 'u' :: a :: b :: c :: d :: rest => do
    let (a, b, c, d) := (← hexDigit? a, ← hexDigit? b, ← hexDigit? c, ← hexDigit? d)
    let (us, rest) ← units? rest
    some ((((a * 16 + b) * 16 + c) * 16 + d) :: us, rest)
  | '\\' :: e :: rest => do
    let u ← escaped? e
    let (us, rest) ← units? rest
    some (u :: us, rest)
  | c :: rest =>
    if c.toNat < 0x20 then none else (units? rest).map fun (us, rest) => (c.toNat :: us, rest)

/-- Whether the unit is the first half of a surrogate pair. -/
def isHigh (u : Nat) : Bool := 0xd800 ≤ u && u < 0xdc00

/-- Whether the unit is the second half of a surrogate pair. -/
def isLow (u : Nat) : Bool := 0xdc00 ≤ u && u < 0xe000

/-- The text of code units, unless a half of a surrogate pair stands alone. -/
def joinUnits : List Nat → Option (List Char)
  | [] => some []
  | [u] => if isHigh u || isLow u then none else some [Char.ofNat u]
  | u :: v :: rest =>
    if isHigh u then
      if isLow v then
        (joinUnits rest).map (Char.ofNat (0x10000 + (u - 0xd800) * 0x400 + (v - 0xdc00)) :: ·)
      else none
    else if isLow u then none
    else (joinUnits (v :: rest)).map (Char.ofNat u :: ·)

theorem joinUnits_scalar (us : List Nat) (h : ∀ u ∈ us, !isHigh u && !isLow u) :
    joinUnits us = some (us.map Char.ofNat) := by
  fun_induction joinUnits us <;> simp_all

/-- The rest of a string behind its opening quote. -/
def readString? (s : List Char) : Option (Option String × List Char) :=
  (units? s).map fun (us, rest) => ((joinUnits us).map .ofList, rest)

/-- The text behind a word that must come first. -/
def behind? : List Char → List Char → Option (List Char)
  | [], s => some s
  | c :: word, d :: s => if c = d then behind? word s else none
  | _ :: _, [] => none

/-! ## Values -/

mutual

/-- A value at the head of the text, blanks before it skipped. The length of the text is fuel
    enough: every value, item and field takes a character at least. -/
def readValue? : (fuel : Nat) → List Char → Option (Json × List Char)
  | 0, _ => none
  | fuel + 1, s =>
    match skipSpace s with
    | [] => none
    | c :: rest =>
      match c with
      | '"' => (readString? rest).map fun (t, rest) => (.string t, rest)
      | '[' =>
        match skipSpace rest with
        | ']' :: rest => some (.array [], rest)
        | rest => (readItems? fuel rest).map fun (vs, rest) => (.array vs, rest)
      | '\x7b' =>
        match skipSpace rest with
        | '\x7d' :: rest => some (.object [], rest)
        | rest => (readMembers? fuel rest).map fun (fs, rest) => (.object fs, rest)
      | 'n' => (behind? "ull".toList rest).map fun rest => (.null, rest)
      | 't' => (behind? "rue".toList rest).map fun rest => (.bool true, rest)
      | 'f' => (behind? "alse".toList rest).map fun rest => (.bool false, rest)
      | _ => (readNumber? (c :: rest)).map fun (n, rest) => (.number (.ofList n), rest)

/-- The items of an array from one of them on, up to the closing bracket. -/
def readItems? : (fuel : Nat) → List Char → Option (List Json × List Char)
  | 0, _ => none
  | fuel + 1, s => do
    let (v, s) ← readValue? fuel s
    match skipSpace s with
    | ']' :: rest => some ([v], rest)
    | ',' :: rest =>
      let (vs, rest) ← readItems? fuel rest
      some (v :: vs, rest)
    | _ => none

/-- The fields of an object from one of them on, up to the closing brace. -/
def readMembers? : (fuel : Nat) → List Char → Option (List (Option String × Json) × List Char)
  | 0, _ => none
  | fuel + 1, s => do
    let s ← behind? ['"'] (skipSpace s)
    let (name, s) ← readString? s
    let s ← behind? [':'] (skipSpace s)
    let (v, s) ← readValue? fuel s
    match skipSpace s with
    | '\x7d' :: rest => some ([(name, v)], rest)
    | ',' :: rest =>
      let (fs, rest) ← readMembers? fuel rest
      some ((name, v) :: fs, rest)
    | _ => none

end

/-- The value that a text spells, with nothing but blanks around it. -/
def read? (s : String) : Option Json := do
  let (v, rest) ← readValue? (s.toList.length + 1) s.toList
  if (skipSpace rest).isEmpty then some v else none

end SurveyReport.Json
