import SurveyReport.Chart.Assembly
import SurveyReport.Column.Alignment
import SurveyReport.Column.Reference
import SurveyReport.Directive.Parser
import SurveyReport.Failure
import SurveyReport.Summary

/-!
# What a directive comes to

A directive comes to a text, to a chart, to a change of the setting, or to a failure. Statistics are
taken over the columns that its references name, aligned to each other.

Results:
* `snd_outcome`: whatever a directive comes to, the setting behind it is the declared one.
* `fst_outcome_of_isDeclaration`: a declaration comes to nothing else.
-/

namespace SurveyReport

/-- What a directive comes to when it does not fail. -/
inductive Outcome where
  | text (text : String)
  | chart (chart : Chart)
  | declaration

namespace Directive

/-- The columns that references name, aligned. -/
def columnsOf (columns : List Column) (references : List String) (source : String) :
    Except Failure Aligned :=
  (Column.resolve columns references source).map Column.align

/-- What a directive comes to, and the setting behind it. -/
def outcome (columns : List Column) (s : Setting) (d : Directive) :
    Except Failure Outcome × Setting :=
  let result : Except Failure Outcome :=
    match d with
    | .invalid cause source => .error (.invalid cause source)
    | .palette _ | .order _ => .ok .declaration
    | .text r => do
      let aligned ← columnsOf columns r.references r.source
      let t ← Summary.text aligned.columns r.statistic r.source
      return .text t
    | .chart r => do
      let aligned ← columnsOf columns r.references r.source
      let c ← Chart.assemble aligned r s
      return .chart c
  (result, s.declare d)

/-- The directive of a text that may still have its braces. -/
def ofMarked (raw : String) : Directive := parse (.ofList (Field.stripMarkers raw.toList))

theorem snd_outcome (columns : List Column) (s : Setting) (d : Directive) :
    (outcome columns s d).2 = s.declare d := rfl

theorem fst_outcome_of_isDeclaration (columns : List Column) (s : Setting) {d : Directive}
    (h : d.isDeclaration) : (outcome columns s d).1 = .ok .declaration := by
  cases d <;> first | rfl | simp [isDeclaration] at h

end Directive

/-- What a written directive comes to, and the setting behind it. -/
def outcomeOf (columns : List Column) (s : Setting) (raw : String) :
    Except Failure Outcome × Setting :=
  (Directive.ofMarked raw).outcome columns s

end SurveyReport
