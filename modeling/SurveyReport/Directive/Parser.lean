import SurveyReport.Directive
import SurveyReport.Directive.Field
import SurveyReport.Text.LowerCase

/-!
# Reading a directive

The first field says what is asked for and the second one which statistic; both are searched for
words, without regard to case. Every text is a directive, if only an invalid one.

Results:
* `parse_of_length_lt`: with less than two fields a directive is invalid.
-/

namespace SurveyReport

/-- The statistic whose word occurs in a selector. Of several words the first of this list counts;
    with none of them a value is looked up. -/
def Statistic.ofSelector (selector : List Char) : Statistic :=
  if Text.occurs "range".toList selector then .range
  else if Text.occurs "mean".toList selector then .mean
  else if Text.occurs "percentage".toList selector || Text.occurs ['%'] selector then .percentage
  else if Text.occurs "count".toList selector then .count
  else .value

namespace Directive

/-! ## The kinds of directives -/

/-- The colours of the fields, all of them or none: the first bad field is told. -/
def coloursOf : List (List Char) → Except Malformed (List Colour)
  | [] => .ok []
  | field :: rest =>
    match Field.colour? field with
    | none => .error (.badColour (.ofList field))
    | some c => (coloursOf rest).map (c :: ·)

/-- The palette that fields declare; blank fields count for nothing. -/
def parsePalette (source : String) (fields : List (List Char)) : Directive :=
  match coloursOf ((fields.map Field.clean).filter (!·.isEmpty)) with
  | .error cause => .invalid cause source
  | .ok [] => .invalid .noColours source
  | .ok colours => .palette colours

/-- The chart that the fields behind the statistic ask for: the last one is its title, the first one
    before it may be a font size, and the others name columns. -/
def parseChart (source : String) (kind : ChartKind) (statistic : Statistic)
    (fields : List (List Char)) : Directive :=
  match fields.reverse with
  | [] => .invalid .noTitle source
  | title :: rest =>
    let (fontSize, columns) : Nat × List (List Char) :=
      match rest.reverse with
      | [] => (0, [])
      | first :: others =>
        match Field.wholeNumber? (Field.clean first) with
        | some size => (size, others)
        | none => (0, first :: others)
    .chart
      { kind, statistic, fontSize, source
        references := Field.names columns
        title := .ofList (Field.clean title) }

/-- The text that is asked for. A value is looked up in the column that the second field itself
    names. -/
def parseText (source : String) (statistic : Statistic) (selector : List Char)
    (fields : List (List Char)) : Directive :=
  .text
    { statistic, source
      references := Field.names (if statistic = .value then [selector] else fields) }

/-! ## All directives -/

/-- The directive that fields make up. -/
def ofFields (source : String) : List (List Char) → Directive
  | output :: selector :: fields =>
    let asked := Text.lowerAfter [] output
    let statistic := Statistic.ofSelector (Text.lowerAfter [] selector)
    if Text.occurs "colors".toList asked || Text.occurs "colorpalette".toList asked then
      parsePalette source (selector :: fields)
    else if Text.occurs "order".toList asked then .order (Field.names (selector :: fields))
    else if Text.occurs "bar".toList asked then parseChart source .bar statistic fields
    else if Text.occurs "pie".toList asked then parseChart source .pie statistic fields
    else parseText source statistic selector fields
  | _ => .invalid .tooFewFields source

/-- The directive that a text writes. -/
def parse (source : String) : Directive := ofFields source (Field.split source.toList)

theorem parse_of_length_lt {source : String} (h : (Field.split source.toList).length < 2) :
    parse source = .invalid .tooFewFields source := by
  unfold parse
  match hf : Field.split source.toList, h with
  | [], _ => rfl
  | [_], _ => rfl
  | _ :: _ :: _, h => exact absurd h (by simp only [List.length_cons]; omega)

end Directive

end SurveyReport
