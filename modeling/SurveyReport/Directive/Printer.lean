import SurveyReport.Decimal.Layout
import SurveyReport.Directive.Parser

/-!
# Writing a directive

Each directive that is not invalid has a form in which it is written: the kind, the statistic and the
other parts, with semicolons between them. Where names are due and there are none, the form has an empty
field.
-/

namespace SurveyReport

/-- A text that can stand in a field of its own: it is not empty, holds no semicolon, and neither
    begins nor ends with a blank or a closing brace. -/
def Field.Clean (s : String) : Prop :=
  s ≠ "" ∧ ';' ∉ s.toList ∧ Text.Trimmed Field.isPadding s.toList

/-- The words that ask for a statistic. -/
def Statistic.words : List String := ["range", "mean", "percentage", "%", "count"]

namespace Directive

/-- A colour as three numbers with commas between them. -/
def printColour (c : Colour) : List Char :=
  [','].intercalate ([c.red, c.green, c.blue].map fun part => Decimal.natural part.toNat)

/-- The fields of names. Without names there is one empty field. -/
def nameFields : List String → List (List Char)
  | [] => [[]]
  | names => names.map String.toList

/-- The fields of a directive. -/
def printFields : Directive → List (List Char)
  | .chart r =>
    r.kind.name.toList :: r.statistic.name.toList :: Decimal.natural r.fontSize ::
      (nameFields r.references ++ [r.title.toList])
  | .text r =>
    "text".toList ::
      if r.statistic = .value then nameFields r.references
      else r.statistic.name.toList :: nameFields r.references
  | .palette colours => "colors".toList :: colours.map printColour
  | .order names => "order".toList :: nameFields names
  | .invalid _ source => Field.split source.toList

/-- The written form of a directive. -/
def print (d : Directive) : String := .ofList ([';'].intercalate d.printFields)

/-- The directive with another written form in its source. -/
def withSource (source : String) : Directive → Directive
  | .chart r => .chart { r with source }
  | .text r => .text { r with source }
  | .invalid cause _ => .invalid cause source
  | d => d

/-- The directives that the language can express. A value is looked up in one column at most, whose
    name holds none of the words that ask for a statistic. -/
def WellFormed : Directive → Prop
  | .chart r =>
    r.fontSize < UInt32.size ∧ (∀ name ∈ r.references, Field.Clean name) ∧
      (r.title = "" ∨ Field.Clean r.title)
  | .text r =>
    (∀ name ∈ r.references, Field.Clean name) ∧
      (r.statistic = .value → r.references.length ≤ 1 ∧
        ∀ name ∈ r.references, ∀ word ∈ Statistic.words,
          ¬ word.toList <:+: (Text.lower name).toList)
  | .palette colours => colours ≠ []
  | .order names => ∀ name ∈ names, Field.Clean name
  | .invalid _ _ => False

end Directive

end SurveyReport
