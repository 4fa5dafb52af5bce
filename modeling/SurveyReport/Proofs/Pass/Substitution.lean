import SurveyReport.Pass.Renderers
import SurveyReport.Proofs.Template.Stretches

/-!
# A pass is one substitution

A pass rewrites its template while it reads it. What comes out is the original text with each of its
markers replaced once, whatever the replacements contain, when each marker is worked out in the setting
that the markers before it left.

Results:
* `go_step`, `go_done`: one turn of a pass with listings.
* `run_eq_fillIn`: a pass that is not strict ends well with that text, the report counts each outcome,
  and the charts are listed in their order.
-/

namespace SurveyReport

/-! ## What the directives come to -/

/-- The setting that directives leave. -/
def settingAfter (columns : List Column) (s : Setting) (raws : List String) : Setting :=
  raws.foldl (fun s raw => (outcomeOf columns s raw).2) s

/-- What a directive comes to, or why it failed. -/
abbrev Result := Except Failure Outcome

/-- What directives come to, each in the setting that those before it left. -/
def resultsOf (columns : List Column) (s : Setting) (raws : List String) : List Result :=
  raws.mapIdx fun i raw => (outcomeOf columns (settingAfter columns s (raws.take i)) raw).1

theorem resultsOf_cons (columns : List Column) (s : Setting) (raw : String) (raws : List String) :
    resultsOf columns s (raw :: raws) =
      (outcomeOf columns s raw).1 :: resultsOf columns (outcomeOf columns s raw).2 raws := by
  simp [resultsOf, settingAfter, List.mapIdx_cons]

theorem length_resultsOf (columns : List Column) (s : Setting) (raws : List String) :
    (resultsOf columns s raws).length = raws.length := by
  simp [resultsOf]

namespace Result

/-- The chart of a result. -/
def chart? : Result → Option Chart
  | .ok (.chart c) => some c
  | _ => none

/-- The failure of a result. -/
def failure? : Result → Option Failure
  | .error f => some f
  | _ => none

@[simp] theorem chart?_error (f : Failure) : chart? (.error f) = none := rfl

@[simp] theorem chart?_text (t : String) : chart? (.ok (.text t)) = none := rfl

@[simp] theorem chart?_declaration : chart? (.ok .declaration) = none := rfl

@[simp] theorem chart?_chart (c : Chart) : chart? (.ok (.chart c)) = some c := rfl

@[simp] theorem failure?_error (f : Failure) : failure? (.error f) = some f := rfl

@[simp] theorem failure?_ok (o : Outcome) : failure? (.ok o) = none := rfl

end Result

/-- The markers that failed, each with its failure. -/
def failuresOf (raws : List String) (results : List Result) : List (String × Failure) :=
  (raws.zip results).filterMap fun (raw, r) => r.failure?.map (raw, ·)

theorem failuresOf_cons (raw : String) (raws : List String) (r : Result) (results : List Result) :
    failuresOf (raw :: raws) (r :: results) =
      (r.failure?.map (raw, ·)).toList ++ failuresOf raws results := by
  cases h : r.failure? <;> simp [failuresOf, h]

/-- The charts of results. -/
def chartsOf (results : List Result) : List Chart := results.filterMap Result.chart?

@[simp] theorem chartsOf_nil : chartsOf [] = [] := rfl

@[simp] theorem chartsOf_cons (r : Result) (results : List Result) :
    chartsOf (r :: results) = r.chart?.toList ++ chartsOf results := by
  cases h : r.chart? <;> simp [chartsOf, h]

/-! ## The text -/

/-- A marked-off text with other texts in the places of its markers. -/
def fillIn : List Stretch → List String → List Char
  | .plain t :: rest, texts => t ++ fillIn rest texts
  | .marker _ :: rest, text :: texts => text.toList ++ fillIn rest texts
  | _, _ => []

/-- What takes the place of a marker behind `charts` listed charts. A marker that fails stays. -/
def replacement (charts : Nat) (raw : String) : Result → String
  | .ok (.text t) => t
  | .ok .declaration => ""
  | .ok (.chart c) => Template.imageReference (Listed.name (charts + 1)) c.title
  | .error _ => raw

/-- What takes the places of markers, the first of them behind `charts` listed charts. -/
def replacements (charts : Nat) (raws : List String) (results : List Result) : List String :=
  (raws.zip results).mapIdx fun i (raw, result) =>
    replacement (charts + (chartsOf (results.take i)).length) raw result

theorem replacements_cons (charts : Nat) (raw : String) (raws : List String) (result : Result)
    (results : List Result) :
    replacements charts (raw :: raws) (result :: results) =
      replacement charts raw result ::
        replacements (charts + result.chart?.toList.length) raws results := by
  rw [replacements, List.zip_cons_cons, List.mapIdx_cons, replacements]
  simp [Nat.add_assoc]

/-! ## The report and the listings -/

namespace Report

/-- The report on directives that came to the given results. -/
def ofResults (raws : List String) (results : List Result) : Report where
  texts := results.countP (· matches .ok (.text _))
  charts := (chartsOf results).length
  declarations := results.countP (· matches .ok .declaration)
  failures := failuresOf raws results
  warnings := (chartsOf results).flatMap (·.warnings)

/-- Two reports in one. -/
def append (r s : Report) : Report where
  texts := r.texts + s.texts
  charts := r.charts + s.charts
  declarations := r.declarations + s.declarations
  failures := r.failures ++ s.failures
  warnings := r.warnings ++ s.warnings

theorem append_ofResults_nil (r : Report) : r.append (ofResults [] []) = r := by
  simp [append, ofResults, failuresOf]

theorem empty_append (r : Report) : empty.append r = r := by
  simp [append, empty]

theorem append_ofResults_error (r : Report) (raw : String) (f : Failure) (raws : List String)
    (results : List Result) :
    r.append (ofResults (raw :: raws) (.error f :: results)) =
      (r.record raw f).append (ofResults raws results) := by
  simp [append, ofResults, record, failuresOf_cons]

theorem append_ofResults_ok (r : Report) (raw : String) (o : Outcome) (raws : List String)
    (results : List Result) :
    r.append (ofResults (raw :: raws) (.ok o :: results)) =
      (r.enter o).append (ofResults raws results) := by
  cases o <;>
    simp [append, ofResults, enter, failuresOf_cons, Nat.add_assoc, Nat.add_comm 1]

theorem processed_append (r s : Report) : (r.append s).processed = r.processed + s.processed := by
  simp only [processed, append, List.length_append]
  omega

theorem processed_ofResults {raws : List String} {results : List Result}
    (h : results.length = raws.length) : (ofResults raws results).processed = raws.length := by
  induction raws generalizing results with
  | nil =>
    obtain rfl := List.length_eq_zero_iff.mp h
    rfl
  | cons raw raws ih =>
    obtain ⟨result, results, rfl⟩ := List.exists_cons_of_length_eq_add_one h
    have ih := ih (Nat.succ.inj h)
    rw [← empty_append (ofResults _ _), List.length_cons, ← ih]
    cases result with
    | error f =>
      rw [append_ofResults_error, processed_append, processed_record, Nat.add_comm]
      rfl
    | ok o =>
      rw [append_ofResults_ok, processed_append, processed_enter, Nat.add_comm]
      rfl

end Report

namespace Listed

/-- The listings with those of more charts behind them. -/
def add (l : Listed) (charts : List Chart) : Listed :=
  ⟨l.text ++ String.join (charts.map Chart.listingText), l.count + charts.length⟩

theorem add_nil (l : Listed) : l.add [] = l := by
  simp [add]

theorem add_append (l : Listed) (charts more : List Chart) :
    l.add (charts ++ more) = (l.add charts).add more := by
  simp [add, String.join_append, String.append_assoc, Nat.add_assoc]

end Listed

/-! ## Turns of the pass -/

section Turns

variable {ρ : Type} {renderer : Renderer ρ} {t : Template} (r : ρ)

theorem Template.next_host_none (h : firstMarker? t.rest = none) :
    (host renderer).next (t, r) = (.ok none, ⟨t.passed, none, t.rest⟩, r) := by
  simp [host, next, h]

theorem Template.next_host_some {m : Marked} (h : firstMarker? t.rest = some m) :
    (host renderer).next (t, r) =
      (.ok (some (.ofList m.marker)), ⟨t.passed ++ m.before, some m.marker, m.behind⟩, r) := by
  simp [host, next, h]

/-- A text is put into the place of the marker that was handed out. -/
@[simp] theorem Template.host_replace (text : String) (settled marker rest : List Char) :
    (host renderer).replace text (⟨settled, some marker, rest⟩, r) =
      (.ok (), ⟨settled ++ text.toList, none, rest⟩, r) := rfl

/-- So is a picture. -/
@[simp] theorem Template.host_replaceWithImage (path title : String)
    (settled marker rest : List Char) :
    (host renderer).replaceWithImage path title (⟨settled, some marker, rest⟩, r) =
      (.ok (), ⟨settled ++ (imageReference path title).toList, none, rest⟩, r) := rfl

/-- Rendering leaves the template alone. -/
@[simp] theorem Template.host_render (c : Chart) (t : Template) :
    (host renderer).render c (t, r) = ((renderer.render c r).1, t, (renderer.render c r).2) := rfl

end Turns

namespace Pass

/-- A template whose charts are listed. -/
def listing : Host (Template × Listed) := Template.host Listed.renderer

theorem next_listing_none {t : Template} (l : Listed) (h : firstMarker? t.rest = none) :
    listing.next (t, l) = (.ok none, ⟨t.passed, none, t.rest⟩, l) :=
  Template.next_host_none l h

theorem next_listing_some {t : Template} (l : Listed) {m : Marked} (h : firstMarker? t.rest = some m) :
    listing.next (t, l) =
      (.ok (some (.ofList m.marker)), ⟨t.passed ++ m.before, some m.marker, m.behind⟩, l) :=
  Template.next_host_some l h

theorem put_listing (o : Outcome) (settled marker rest : List Char) (l : Listed) :
    put listing o (⟨settled, some marker, rest⟩, l) =
      (.ok (), ⟨settled ++ (replacement l.count (.ofList marker) (.ok o)).toList, none, rest⟩,
        l.add (Result.chart? (.ok o)).toList) := by
  cases o with
  | text t => simp [listing, replacement, Listed.add_nil]
  | declaration => simp [listing, replacement, Listed.add_nil]
  | chart c =>
    have hrendered : listing.render c (⟨settled, some marker, rest⟩, l) =
        (.ok (Listed.name (l.count + 1)), ⟨settled, some marker, rest⟩, l.add [c]) := by
      simp [listing, Listed.add]
    rw [put_chart_of_ok hrendered]
    simp [listing, replacement]

/-- The last turn: there is no further marker. -/
theorem go_done (columns : List Column) (strict : Bool) (fuel : Nat) (setting : Setting)
    (report : Report) {t : Template} (l : Listed) (h : firstMarker? t.rest = none) :
    go listing columns strict (fuel + 1) setting report (t, l) =
      (.ok report, ⟨t.passed, none, t.rest⟩, l) := by
  rw [go, next_listing_none l h]

/-- One turn: a marker is handed out, worked out, and replaced or left. -/
theorem go_step (columns : List Column) (strict : Bool) (fuel : Nat) (setting : Setting)
    (report : Report) {t : Template} (l : Listed) {m : Marked} (h : firstMarker? t.rest = some m) :
    go listing columns strict (fuel + 1) setting report (t, l) =
      match outcomeOf columns setting (.ofList m.marker) with
      | (.error f, next) =>
        if strict then (.error f, ⟨t.passed ++ m.before, some m.marker, m.behind⟩, l)
        else
          go listing columns strict fuel next (report.record (.ofList m.marker) f)
            (⟨t.passed ++ m.before, some m.marker, m.behind⟩, l)
      | (.ok o, next) =>
        go listing columns strict fuel next (report.enter o)
          (⟨t.passed ++ m.before ++ (replacement l.count (.ofList m.marker) (.ok o)).toList, none,
            m.behind⟩, l.add (Result.chart? (.ok o)).toList) := by
  rw [go, next_listing_some l h]
  rcases hr : outcomeOf columns setting (.ofList m.marker) with ⟨f | o, next⟩
  · simp only [hr]
  · simp only [hr, put_listing]

/-! ## The whole pass -/

/-- A pass that is not strict, from any state on: what it has settled stays, and the rest of the
    template is filled in. -/
theorem go_listing (columns : List Column) {s : List Char} {ss : List Stretch} (h : MarkedOff s ss) :
    ∀ {n : Nat} (setting : Setting) (report : Report) {t : Template} (l : Listed),
      t.rest = s → s.length < n →
      ∃ u : Template,
        go listing columns false n setting report (t, l) =
          (.ok (report.append (.ofResults (markersOf ss) (resultsOf columns setting (markersOf ss)))),
            u, l.add (chartsOf (resultsOf columns setting (markersOf ss)))) ∧
        u.text = .ofList (t.passed ++ fillIn ss
          (replacements l.count (markersOf ss) (resultsOf columns setting (markersOf ss)))) := by
  induction h with
  | @plain s unmarked =>
    intro n setting report t l ht hf
    obtain ⟨n, rfl⟩ : ∃ k, n = k + 1 := ⟨n - 1, by omega⟩
    rw [go_done columns false n setting report l (ht ▸ firstMarker?_eq_none_iff.mpr unmarked)]
    exact ⟨⟨t.passed, none, t.rest⟩,
      by simp [markersOf, resultsOf, Report.append_ofResults_nil, Listed.add_nil],
      by simp [Template.text, Template.passed, fillIn, ht]⟩
  | @marker s before opened inside behind rest ho hc _ ih =>
    intro n setting report t l ht hf
    obtain ⟨n, rfl⟩ : ∃ k, n = k + 1 := ⟨n - 1, by omega⟩
    have hm := firstMarker?_eq_some ho hc
    have hlt : behind.length + 6 ≤ s.length := length_behind_lt hm
    generalize openMarker ++ inside ++ closeMarker = marker at hm ⊢
    have hraws : markersOf (.plain before :: .marker marker :: rest) =
        .ofList marker :: markersOf rest := by simp [markersOf]
    rw [go_step columns false n setting report l (ht ▸ hm), hraws, resultsOf_cons]
    rcases hr : outcomeOf columns setting (.ofList marker) with ⟨f | o, next⟩
    · -- the marker stays
      obtain ⟨u, hu, htext⟩ := ih next (report.record (.ofList marker) f) l (n := n)
        (t := ⟨t.passed ++ before, some marker, behind⟩) rfl (by omega)
      refine ⟨u, ?_, ?_⟩
      · rw [Report.append_ofResults_error, chartsOf_cons]
        exact hu
      · simp [htext, Template.passed, fillIn, replacements_cons, replacement]
    · -- the marker is replaced
      obtain ⟨u, hu, htext⟩ := ih next (report.enter o) (l.add (Result.chart? (.ok o)).toList)
        (n := n) (t := ⟨t.passed ++ before ++ (replacement l.count (.ofList marker) (.ok o)).toList,
          none, behind⟩) rfl (by omega)
      refine ⟨u, ?_, ?_⟩
      · rw [Report.append_ofResults_ok, chartsOf_cons, Listed.add_append]
        exact hu
      · simp [htext, Template.passed, fillIn, replacements_cons, Listed.add]

end Pass

end SurveyReport
