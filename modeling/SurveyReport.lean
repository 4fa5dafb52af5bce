import SurveyReport.Column.Tally
import SurveyReport.Column.Reference
import SurveyReport.Main
import SurveyReport.Directive.Printer
import SurveyReport.Chart.Listing
import SurveyReport.Proofs.Pass.Substitution
import SurveyReport.Proofs.Outcome.SameData
import SurveyReport.Proofs.Csv.RoundTrip
import SurveyReport.Proofs.Csv.InStep
import SurveyReport.Proofs.Pass.Strict
import SurveyReport.Proofs.Table.Frequencies
import SurveyReport.Proofs.Chart.Grouped
import SurveyReport.Proofs.Directive.RoundTrip
import SurveyReport.Proofs.Outcome.Declarations
import SurveyReport.Proofs.Outcome.OneColumn
import SurveyReport.Proofs.Table.Addressing
import SurveyReport.Proofs.Template.Calls
import SurveyReport.Proofs.Outcome.Referenced
import SurveyReport.Proofs.Bounds.Session
import SurveyReport.Proofs.CommandLine.AllOrNothing
import SurveyReport.Proofs.Pass.Drawing
import SurveyReport.Proofs.Chart.Arrange
import SurveyReport.Proofs.Column.Aligned
import SurveyReport.Proofs.Chart.Shape
import SurveyReport.Proofs.Chart.Placed
import SurveyReport.Proofs.Table.Renaming
import SurveyReport.Proofs.Summary.Numbers
import SurveyReport.Proofs.Chart.Pie
import SurveyReport.Proofs.Outcome.FirstAnswer
import SurveyReport.Proofs.Outcome.Slots
import SurveyReport.Proofs.Table.Placeholders
import SurveyReport.Proofs.Table.Echoes
import SurveyReport.Proofs.Csv.Pieces
import SurveyReport.Proofs.Column.Labels
