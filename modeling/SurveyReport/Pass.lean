import SurveyReport.Outcome
import SurveyReport.Template

/-!
# Passes

A pass takes the directives of a document in turn and puts what they come to in their places. The
setting goes from each directive to the next. A directive that fails stays in its place and is
recorded, or ends the pass when it is strict; a fault of the document or the renderer always ends it.

Results:
* `processed_enter`, `processed_record`: each directive is counted once.
* `put_text`, `put_declaration`: texts and declarations need no renderer.
* `put_chart_of_ok`, `put_chart_of_error`: a chart is put in its place once it is rendered.
-/

namespace SurveyReport

/-! ## Reports -/

/-- What came of the directives of a pass. -/
structure Report where
  texts : Nat
  charts : Nat
  declarations : Nat
  failures : List (String × Failure)
  warnings : List Warning
  deriving DecidableEq, Repr

namespace Report

/-- The report before the first directive. -/
def empty : Report := ⟨0, 0, 0, [], []⟩

/-- How many directives there were. -/
def processed (r : Report) : Nat := r.texts + r.charts + r.declarations + r.failures.length

/-- The report with one more outcome. -/
def enter (r : Report) : Outcome → Report
  | .text _ => { r with texts := r.texts + 1 }
  | .declaration => { r with declarations := r.declarations + 1 }
  | .chart c => { r with charts := r.charts + 1, warnings := r.warnings ++ c.warnings }

/-- The report with one more failure. -/
def record (r : Report) (raw : String) (f : Failure) : Report :=
  { r with failures := r.failures ++ [(raw, f)] }

@[simp] theorem processed_enter (r : Report) (o : Outcome) :
    (r.enter o).processed = r.processed + 1 := by
  cases o <;> simp only [enter, processed] <;> omega

@[simp] theorem processed_record (r : Report) (raw : String) (f : Failure) :
    (r.record raw f).processed = r.processed + 1 := by
  simp only [record, processed, List.length_append, List.length_singleton]
  omega

end Report

/-! ## What a pass works on -/

/-- What an action comes to on a state, and the state behind it. -/
abbrev Action (σ α : Type) := σ → Except Fault α × σ

/-- Turns charts into pictures or records of them and gives the path of each. -/
structure Renderer (ρ : Type) where
  render : Chart → Action ρ String

/-- A document and a renderer. The document hands out its directives and takes texts and pictures into
    the place of the latest one; `left` bounds how many directives there still are. -/
structure Host (σ : Type) where
  next : Action σ (Option String)
  replace (text : String) : Action σ Unit
  replaceWithImage (path title : String) : Action σ Unit
  render (chart : Chart) : Action σ String
  left : σ → Nat

namespace Template

/-- Does what may fail to the template; a failure leaves it as it is. -/
def attempt {ρ : Type} (f : Template → Except Fault Template) : Action (Template × ρ) Unit :=
  fun (t, r) =>
    match f t with
    | .error fault => (.error fault, (t, r))
    | .ok u => (.ok (), (u, r))

/-- A template together with a renderer. -/
def host {ρ : Type} (renderer : Renderer ρ) : Host (Template × ρ) where
  next := fun (t, r) => (.ok t.next.1, (t.next.2, r))
  replace text := attempt (·.replace text)
  replaceWithImage path title := attempt (·.replaceWithImage path title)
  render chart := fun (t, r) =>
    let (result, r) := renderer.render chart r
    (result, (t, r))
  left := fun (t, _) => t.rest.length

end Template

/-! ## Running -/

namespace Pass

variable {σ : Type}

/-- Puts an outcome into the place of its directive. -/
def put (host : Host σ) : Outcome → Action σ Unit
  | .text t => host.replace t
  | .declaration => host.replace ""
  | .chart c => fun s =>
    match host.render c s with
    | (.error fault, s) => (.error fault, s)
    | (.ok path, s) => host.replaceWithImage path c.title s

@[simp] theorem put_text (host : Host σ) (t : String) : put host (.text t) = host.replace t := rfl

@[simp] theorem put_declaration (host : Host σ) : put host .declaration = host.replace "" := rfl

theorem put_chart_of_ok {host : Host σ} {c : Chart} {s t : σ} {path : String}
    (h : host.render c s = (.ok path, t)) :
    put host (.chart c) s = host.replaceWithImage path c.title t := by
  simp only [put, h]

theorem put_chart_of_error {host : Host σ} {c : Chart} {s t : σ} {fault : Fault}
    (h : host.render c s = (.error fault, t)) : put host (.chart c) s = (.error fault, t) := by
  simp only [put, h]

/-- Takes the directives in turn, `fuel` of them at most. -/
def go (host : Host σ) (columns : List Column) (strict : Bool) :
    (fuel : Nat) → Setting → Report → σ → Except Failure Report × σ
  | 0, _, report, s => (.ok report, s)
  | fuel + 1, setting, report, s =>
    match host.next s with
    | (.error fault, s) => (.error (.fault fault), s)
    | (.ok none, s) => (.ok report, s)
    | (.ok (some raw), s) =>
      let (result, setting) := outcomeOf columns setting raw
      match result with
      | .error failure =>
        if strict then (.error failure, s)
        else go host columns strict fuel setting (report.record raw failure) s
      | .ok outcome =>
        match put host outcome s with
        | (.error fault, s) => (.error (.fault fault), s)
        | (.ok (), s) => go host columns strict fuel setting (report.enter outcome) s

/-- Runs a pass that starts with the given palette and without an order. -/
def run (host : Host σ) (columns : List Column) (palette : Palette) (strict : Bool) (s : σ) :
    Except Failure Report × σ :=
  go host columns strict (host.left s + 1) ⟨palette, []⟩ .empty s

end Pass

end SurveyReport
