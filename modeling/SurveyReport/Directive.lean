import SurveyReport.Palette

/-!
# Directives

A directive asks for a chart or a text in its place, or declares the palette or the order that later
charts use. What is none of these is invalid, for a stated cause. The palette and the order in force
are the setting of a report, and only declarations change it.

Results:
* `declare_of_not_declaration`: no other directive changes anything.
-/

namespace SurveyReport

/-! ## What can be asked for -/

/-- What is worked out of the answers. -/
inductive Statistic where
  | count
  | percentage
  | mean
  | range
  | value
  deriving DecidableEq, Repr

/-- The word for a statistic in a directive. -/
def Statistic.name : Statistic → String
  | .count => "count"
  | .percentage => "percentage"
  | .mean => "mean"
  | .range => "range"
  | .value => "value"

/-- The shape of a chart. -/
inductive ChartKind where
  | bar
  | pie
  deriving DecidableEq, Repr

/-- The word for a chart kind. -/
def ChartKind.name : ChartKind → String
  | .bar => "bar"
  | .pie => "pie"

/-- A chart that is asked for. `references` name columns in the order written; a font size of 0
    leaves the size open; `source` is the directive as written. -/
structure ChartRequest where
  kind : ChartKind
  statistic : Statistic
  references : List String
  fontSize : Nat
  title : String
  source : String
  deriving DecidableEq, Repr

/-- A text that is asked for. -/
structure TextRequest where
  statistic : Statistic
  references : List String
  source : String
  deriving DecidableEq, Repr

/-- Why a directive is invalid. -/
inductive Malformed where
  | tooFewFields
  | noTitle
  | badColour (field : String)
  | noColours
  deriving DecidableEq, Repr

/-- The text of a cause. -/
def Malformed.message : Malformed → String
  | .tooFewFields =>
    "malformed directive: expected an output type and a statistic separated by ';'"
  | .noTitle => "malformed directive: graph requires a title field"
  | .badColour field => s!"bad palette color '{field}': expected r,g,b with values 0-255"
  | .noColours => "bad palette color: palette declares no colors"

/-- One command of a template. -/
inductive Directive where
  | chart (request : ChartRequest)
  | text (request : TextRequest)
  | palette (colours : List Colour)
  | order (names : List String)
  | invalid (cause : Malformed) (source : String)
  deriving DecidableEq, Repr

/-! ## What is in force -/

/-- The palette and the order in force; an empty order is none. -/
structure Setting where
  palette : Palette
  order : List String
  deriving DecidableEq, Repr

/-- The setting before any declaration. -/
def Setting.initial : Setting := ⟨.initial, []⟩

/-- Whether a directive declares a palette or an order. -/
def Directive.isDeclaration : Directive → Bool
  | .palette _ | .order _ => true
  | _ => false

namespace Setting

/-- The setting after a directive. A palette without colours changes nothing. -/
def declare (s : Setting) : Directive → Setting
  | .palette colours => { s with palette := (Palette.ofList? colours).getD s.palette }
  | .order names => { s with order := names }
  | _ => s

theorem declare_of_not_declaration (s : Setting) {d : Directive} (h : d.isDeclaration = false) :
    s.declare d = s := by
  cases d <;> first | rfl | simp [Directive.isDeclaration] at h

end Setting

end SurveyReport
