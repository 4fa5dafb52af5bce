import SurveyReport.Column.Tally
import SurveyReport.CommandLine.Arguments
import SurveyReport.Options
import SurveyReport.Pass.Renderers

/-!
# The command line

The program reads the options, the survey and the template, fills the template in one pass, and writes
the document only when all went well. It stops at the first thing that fails.

Results:
* `run_of_ok`, `run_of_error`: how the program ends, and that nothing is put out when a report stops.
* `deliver_error`: an output that cannot be written leaves the disk as it is.
-/

namespace SurveyReport

/-- Why the program stops. -/
inductive Stop where
  | unreadableOptions (path : String) (cause : DiskError)
  | badOptions (path : String)
  | unreadableSurvey (path : String) (cause : DiskError)
  | badSurvey (path : String) (cause : Failure)
  | unreadableTemplate (path : String) (cause : DiskError)
  | aborted (cause : Failure)
  | unwritable (path : String) (cause : DiskError)
  deriving DecidableEq, Repr

namespace Stop

/-- What could not be done. -/
def circumstance : Stop → String
  | .unreadableOptions path _ => s!"Failed to read config '{path}'"
  | .badOptions path => s!"Failed to parse config '{path}'"
  | .unreadableSurvey path _ => s!"Failed to read CSV file '{path}'"
  | .badSurvey path _ => s!"Failed to import '{path}'"
  | .unreadableTemplate path _ => s!"Failed to read template '{path}'"
  | .aborted _ => "Document pass aborted"
  | .unwritable path _ => s!"Failed to write output '{path}'"

/-- Why it could not be done, if that can be said. -/
def cause? : Stop → Option String
  | .unreadableOptions _ cause => some cause.message
  | .badOptions _ => none
  | .unreadableSurvey _ cause => some cause.message
  | .badSurvey _ cause => some cause.message
  | .unreadableTemplate _ cause => some cause.message
  | .aborted cause => some cause.message
  | .unwritable _ cause => some cause.message

/-- Both on one line. -/
def message (s : Stop) : String := ": ".intercalate (s.circumstance :: s.cause?.toList)

/-- A text with each of its lines moved to the right. -/
def indented (s : String) : String :=
  .ofList (s.toList.flatMap fun c => if c = '\n' then "\n    ".toList else [c])

/-- What is told when the program stops. -/
def report (s : Stop) : String :=
  let reason (cause : String) : String := s!"\n\nCaused by:\n    {indented cause}\n"
  s!"Error: {s.circumstance}" ++ (s.cause?.map reason).getD ""

end Stop

namespace CommandLine

/-! ## Reading -/

/-- The options of a file, or the ones that nothing sets. -/
def optionsOf (d : Disk) : Option String → Except Stop Options
  | none => .ok .initial
  | some path =>
    match d.readText path with
    | .error cause => .error (.unreadableOptions path cause)
    | .ok text =>
      match Options.parse? text with
      | none => .error (.badOptions path)
      | some options => .ok options

/-- The table of a file. -/
def tableOf (d : Disk) (path : String) : Except Stop Table :=
  match d.readText path with
  | .error cause => .error (.unreadableSurvey path cause)
  | .ok text =>
    match Table.ofCsv text with
    | .error row => .error (.badSurvey path (.missingHeader row))
    | .ok table => .ok table

/-- The template of a file. -/
def templateOf (d : Disk) (path : String) : Except Stop Template :=
  match d.readText path with
  | .error cause => .error (.unreadableTemplate path cause)
  | .ok text => .ok (.ofText text)

/-- What a pass needs. -/
structure Job where
  columns : List Column
  template : Template
  options : Options

/-- Reads what a pass needs. The arguments come before the options file. -/
def jobOf (a : Arguments) (d : Disk) : Except Stop Job := do
  let options ← optionsOf d a.options
  let table ← tableOf d a.survey
  let template ← templateOf d a.template
  return {
    columns := table.columns
    template
    options := { options with
      imageDirectory := a.imageDirectory.getD options.imageDirectory
      strict := a.strict || options.strict } }

/-! ## Filling the template -/

/-- What a pass leaves: its report, the document, the listings and the disk. -/
structure Filled where
  report : Except Failure Report
  document : String
  listings : String
  disk : Disk

/-- Runs the pass, with listings or with pictures. -/
def fill (t : Job) (listing : Bool) (d : Disk) : Filled :=
  let palette := t.options.initialPalette
  let strict := t.options.strict
  if listing then
    let (report, template, listed) :=
      Pass.run (Template.host Listed.renderer) t.columns palette strict (t.template, .empty)
    ⟨report, template.text, listed.text, d⟩
  else
    let renderer := Gallery.renderer ⟨t.options.imageDirectory, t.options.pictureSize?⟩
    let (report, template, gallery) :=
      Pass.run (Template.host renderer) t.columns palette strict (t.template, ⟨d, 0⟩)
    ⟨report, template.text, "", gallery.disk⟩

/-! ## Writing -/

/-- Writes the document; without a path it goes to the standard output. -/
def deliver (document : String) (d : Disk) : Option String → Except Stop String × Disk
  | none => (.ok document, d)
  | some path =>
    match d.write path (.ofText document) with
    | .error cause => (.error (.unwritable path cause), d)
    | .ok d => (.ok "", d)

theorem deliver_error {document : String} {d d' : Disk} {output : Option String} {stop : Stop}
    (h : deliver document d output = (.error stop, d')) : d' = d := by
  unfold deliver at h
  split at h
  · simp at h
  · split at h <;> simp_all

/-! ## The program -/

/-- How the program ends: its exit code, what it wrote to both outputs, and the disk. -/
structure Ending where
  code : Nat
  out : String
  err : String
  disk : Disk

/-- What a report comes to: the text for the standard output, the listings, and the disk. -/
def report (a : Arguments) (d : Disk) : Except Stop String × String × Disk :=
  match jobOf a d with
  | .error stop => (.error stop, "", d)
  | .ok job =>
    let filled := fill job a.listing d
    match filled.report with
    | .error failure => (.error (.aborted failure), filled.listings, filled.disk)
    | .ok _ =>
      let (result, disk) := deliver filled.document filled.disk a.output
      (result, filled.listings, disk)

/-- How to call the program. -/
def usage : String := "Usage: surveygraph [OPTIONS] <CSV> <TEMPLATE>\n"

/-- What the program is for and what its arguments mean. -/
def help : String :=
  "Fill a report template with statistics and charts from a survey CSV export\n\n" ++ usage ++
  "
Arguments:
  <CSV>       Survey export whose first two rows are header rows
  <TEMPLATE>  Template text containing \x7b\x7b\x7b ... \x7d\x7d\x7d directives

Options:
  -o, --output <OUTPUT>        Output file (defaults to stdout)
      --config <CONFIG>        JSON file with render options
      --image-dir <IMAGE_DIR>  Directory for rendered chart images
      --strict                 Abort on the first directive that fails
      --dump-series            Print assembled chart series as JSON on stderr instead of drawing them
  -h, --help                   Print help
"

/-- The program. -/
def run (arguments : List String) (d : Disk) : Ending :=
  match Request.read arguments with
  | .refused => ⟨2, "", usage, d⟩
  | .help => ⟨0, help, "", d⟩
  | .report a =>
    let (result, listings, disk) := report a d
    match result with
    | .ok out => ⟨0, out, listings, disk⟩
    | .error stop => ⟨1, "", listings ++ stop.report, disk⟩

section Reports

variable {arguments : List String} {a : Arguments} {d e : Disk} {listings : String}

theorem run_of_ok {out : String} (ha : Request.read arguments = .report a)
    (h : report a d = (.ok out, listings, e)) : run arguments d = ⟨0, out, listings, e⟩ := by
  simp only [run, ha, h]

theorem run_of_error {stop : Stop} (ha : Request.read arguments = .report a)
    (h : report a d = (.error stop, listings, e)) :
    run arguments d = ⟨1, "", listings ++ stop.report, e⟩ := by
  simp only [run, ha, h]

end Reports

end CommandLine

end SurveyReport
