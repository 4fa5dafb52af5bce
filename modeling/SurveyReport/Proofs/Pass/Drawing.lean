import SurveyReport.Proofs.Outcome.Blank
import SurveyReport.Proofs.Pass.Kept

/-!
# Passes that draw

A pass that is not strict and draws its charts in their own size stops at the first directive that asks
for a chart with nothing to show, as long as the pictures can be saved. Without such a directive it ends
well: directives that fail stay in the text, all others are replaced, and the pictures are numbered in
the order of the charts.

Results:
* `save_of_ready`: a picture is saved where it can be, and the ones behind it still can be.
* `go_turn`, `go_refused`: one turn, and a turn whose chart is refused.
* `go_drawing_of_none`, `go_drawing_of_some`: the pass stops at the first chart that is refused.
* `run_drawing`: which directives stop the pass.
-/

namespace SurveyReport

/-! ## Saving pictures -/

namespace Gallery

/-- The next `n` pictures can be saved: their directory can be made, and each of them can be written. -/
def Ready (f : Frame) (n : Nat) (g : Gallery) : Prop :=
  ∃ made, g.disk.makeDirectory f.directory = .ok made ∧
    ∀ number, g.count < number → number ≤ g.count + n → made.Writable (f.path number)

variable {f : Frame} {g : Gallery} {n : Nat}

theorem save_of_ready (h : Ready f (n + 1) g) (picture : Picture) :
    ∃ disk, save f picture g = (.ok (f.path (g.count + 1)), ⟨disk, g.count + 1⟩) ∧
      Ready f n ⟨disk, g.count + 1⟩ := by
  obtain ⟨made, hmade, hwritable⟩ := h
  have hpath := hwritable (g.count + 1) (Nat.lt_succ_self _) (by omega)
  have hwritten : made.write (f.path (g.count + 1)) (.drawing picture) = .ok (made.put _ _) :=
    Disk.write_eq_ok_iff.mpr ⟨hpath, rfl⟩
  have hgrows := Disk.put_grows made (made.target (f.path (g.count + 1))) (.drawing picture)
  refine ⟨made.put _ _, ?_, _, Disk.makeDirectory_of_grows hmade hgrows, fun number hlow hhigh => ?_⟩
  · rw [Frame.path] at hwritten ⊢
    simp only [save, hmade, hwritten]
  · exact (hwritable number (by dsimp only at hlow; omega) (by dsimp only at hhigh; omega)).of_grows
      hgrows (Disk.isDirectory_put made _ · _)

theorem render_of_ready (h : Ready f (n + 1) g) {c : Chart} (hc : refusal? f c = none) :
    ∃ disk, (renderer f).render c g = (.ok (f.path (g.count + 1)), ⟨disk, g.count + 1⟩) ∧
      Ready f n ⟨disk, g.count + 1⟩ := by
  unfold refusal? at hc
  cases hdrawn : drawn f c with
  | error fault => simp [hdrawn] at hc
  | ok picture =>
    simp only [renderer, hdrawn]
    exact save_of_ready h picture

theorem render_of_refusal? {c : Chart} {fault : Fault} (hc : refusal? f c = some fault) :
    (renderer f).render c g = (.error fault, g) := by
  unfold refusal? at hc
  cases hdrawn : drawn f c with
  | error _ =>
    obtain rfl : _ = fault := by simpa [hdrawn] using hc
    exact draw_error hdrawn g
  | ok picture => simp [hdrawn] at hc

end Gallery

/-! ## The text -/

namespace Frame

/-- What takes the place of a marker behind `charts` pictures: the same as with listings, but for the
    path of the picture. -/
def replacement (f : Frame) (charts : Nat) (raw : String) : Result → String
  | .ok (.chart c) => Template.imageReference (f.path (charts + 1)) c.title
  | result => SurveyReport.replacement charts raw result

/-- What takes the places of markers, the first of them behind `charts` pictures. -/
def replacements (f : Frame) (charts : Nat) (raws : List String) (results : List Result) :
    List String :=
  (raws.zip results).mapIdx fun i (raw, result) =>
    f.replacement (charts + (chartsOf (results.take i)).length) raw result

theorem replacements_cons (f : Frame) (charts : Nat) (raw : String) (raws : List String)
    (result : Result) (results : List Result) :
    f.replacements charts (raw :: raws) (result :: results) =
      f.replacement charts raw result ::
        f.replacements (charts + result.chart?.toList.length) raws results := by
  rw [replacements, List.zip_cons_cons, List.mapIdx_cons, replacements]
  simp [Nat.add_assoc]

end Frame

/-! ## Turns of the pass -/

namespace Pass

open Gallery (Ready refusal?)

variable {f : Frame} {g : Gallery}

/-- A template whose charts are drawn. -/
abbrev drawing (f : Frame) : Host (Template × Gallery) := Template.host (Gallery.renderer f)

/-- An outcome whose chart is not refused is put into the place of its marker. -/
theorem put_drawing {o : Outcome} {n : Nat}
    (hready : Ready f ((Result.chart? (.ok o)).toList.length + n) g)
    (ho : (Result.chart? (.ok o)).bind (refusal? f) = none) (settled marker rest : List Char) :
    ∃ disk, put (drawing f) o (⟨settled, some marker, rest⟩, g) =
        (.ok (), ⟨settled ++ (f.replacement g.count (.ofList marker) (.ok o)).toList, none, rest⟩,
          ⟨disk, g.count + (Result.chart? (.ok o)).toList.length⟩) ∧
      Ready f n ⟨disk, g.count + (Result.chart? (.ok o)).toList.length⟩ := by
  cases o with
  | text t => exact ⟨g.disk, rfl, by simpa using hready⟩
  | declaration => exact ⟨g.disk, rfl, by simpa using hready⟩
  | chart c =>
    rw [Result.chart?_chart, Option.toList_some, List.length_singleton, Nat.add_comm] at hready
    obtain ⟨disk, hrendered, hnext⟩ := Gallery.render_of_ready hready ho
    refine ⟨disk, ?_, hnext⟩
    rw [put_chart_of_ok (by rw [drawing, Template.host_render, hrendered])]
    simp [drawing, Frame.replacement]

theorem put_of_refusal? {o : Outcome} {fault : Fault}
    (ho : (Result.chart? (.ok o)).bind (refusal? f) = some fault) (t : Template) :
    (put (drawing f) o (t, g)).1 = .error fault := by
  cases o with
  | text => simp at ho
  | declaration => simp at ho
  | chart c =>
    have hrendered := Gallery.render_of_refusal? (g := g) (c := c) ho
    rw [put_chart_of_error (by rw [drawing, Template.host_render, hrendered])]

/-- What a turn of a pass leaves that has come from `t` and `g` behind the marker `m` with the result
    `r`: the marker is passed, the report counts the result, and `n` more pictures can be saved. -/
structure Turned (f : Frame) (n : Nat) (m : Marked) (r : Result) (t : Template) (g : Gallery)
    (report : Report) (u : Template) (g' : Gallery) (report' : Report) : Prop where
  rest : u.rest = m.behind
  passed : u.passed =
    t.passed ++ m.before ++ (f.replacement g.count (.ofList m.marker) r).toList
  count : g'.count = g.count + r.chart?.toList.length
  ready : Ready f n g'
  report : ∀ raws results, report.append (.ofResults (.ofList m.marker :: raws) (r :: results)) =
    report'.append (.ofResults raws results)

/-- One turn, unless its chart is refused. -/
theorem go_turn {columns : List Column} {setting next : Setting} {t : Template} {m : Marked}
    {r : Result} {n : Nat} (fuel : Nat) (report : Report) (hm : firstMarker? t.rest = some m)
    (hr : outcomeOf columns setting (.ofList m.marker) = (r, next))
    (hready : Ready f (r.chart?.toList.length + n) g) (hdrawn : r.chart?.bind (refusal? f) = none) :
    ∃ u g' report', go (drawing f) columns false (fuel + 1) setting report (t, g) =
        go (drawing f) columns false fuel next report' (u, g') ∧
      Turned f n m r t g report u g' report' := by
  rw [go, Template.next_host_some g hm]
  cases r with
  | error failure =>
    simp only [hr, Bool.false_eq_true, if_false]
    refine ⟨_, _, _, rfl, rfl, ?_, rfl, by simpa using hready, fun raws results => ?_⟩
    · simp [Template.passed, Frame.replacement, replacement]
    · exact Report.append_ofResults_error ..
  | ok o =>
    obtain ⟨disk, hput, hnext⟩ := put_drawing hready hdrawn (t.passed ++ m.before) m.marker m.behind
    simp only [hr, hput]
    refine ⟨_, _, _, rfl, rfl, ?_, rfl, hnext, fun raws results => ?_⟩
    · simp [Template.passed]
    · exact Report.append_ofResults_ok ..

/-- A turn whose chart is refused is the last one. -/
theorem go_refused {columns : List Column} {setting next : Setting} {t : Template} {m : Marked}
    {r : Result} {fault : Fault} (fuel : Nat) (report : Report) (hm : firstMarker? t.rest = some m)
    (hr : outcomeOf columns setting (.ofList m.marker) = (r, next))
    (hrefused : r.chart?.bind (refusal? f) = some fault) :
    (go (drawing f) columns false (fuel + 1) setting report (t, g)).1 = .error (.fault fault) := by
  rw [go, Template.next_host_some g hm]
  cases r with
  | error failure => simp at hrefused
  | ok o =>
    have hput := put_of_refusal? (g := g) hrefused ⟨t.passed ++ m.before, some m.marker, m.behind⟩
    simp only [hr]
    generalize put (drawing f) o _ = done at hput ⊢
    obtain ⟨result, state⟩ := done
    obtain rfl : result = .error fault := hput
    rfl

/-! ## The whole pass -/

/-- The first refusal among the charts of results. -/
def firstRefusal? (f : Frame) (results : List Result) : Option Fault :=
  (chartsOf results).findSome? (refusal? f)

theorem firstRefusal?_cons (f : Frame) (r : Result) (results : List Result) :
    firstRefusal? f (r :: results) = (r.chart?.bind (refusal? f)).or (firstRefusal? f results) := by
  rw [firstRefusal?, chartsOf_cons, List.findSome?_append, firstRefusal?]
  cases r.chart? <;> simp

/-- As long as no chart is refused, a pass goes on and fills in the rest of the template. -/
theorem go_drawing_of_none (columns : List Column) {n : Nat} {setting : Setting} (report : Report)
    {t : Template} {g : Gallery} (hn : t.rest.length < n) :
    let raws := markersOf (stretches t.rest)
    let results := resultsOf columns setting raws
    Ready f (chartsOf results).length g → firstRefusal? f results = none →
      ∃ (u : Template) (g' : Gallery),
        go (drawing f) columns false n setting report (t, g) =
          (.ok (report.append (.ofResults raws results)), u, g') ∧
        u.text = .ofList
          (t.passed ++ fillIn (stretches t.rest) (f.replacements g.count raws results)) := by
  induction hs : t.rest using stretches.induct generalizing n setting report t g with
  | case1 s hm =>
    subst hs
    obtain ⟨n, rfl⟩ : ∃ k, n = k + 1 := ⟨n - 1, by omega⟩
    intro raws results _ _
    refine ⟨⟨t.passed, none, t.rest⟩, g, ?_, ?_⟩
    · rw [go, Template.next_host_none g hm]
      simp [raws, results, markersOf_stretches_of_none hm, resultsOf, Report.append_ofResults_nil]
    · simp [Template.text, Template.passed, stretches_of_none hm, fillIn]
  | case2 s m hm hlt ih =>
    subst hs
    obtain ⟨n, rfl⟩ : ∃ k, n = k + 1 := ⟨n - 1, by omega⟩
    simp only [markersOf_stretches_of_some hm, resultsOf_cons]
    rcases hr : outcomeOf columns setting (.ofList m.marker) with ⟨r, next⟩
    intro hready hnone
    rw [firstRefusal?_cons, Option.or_eq_none_iff] at hnone
    rw [chartsOf_cons, List.length_append] at hready
    obtain ⟨u, g', report', hgo, hturned⟩ := go_turn n report hm hr hready hnone.1
    obtain ⟨v, g'', hv, htext⟩ := ih (n := n) report' (by rw [hturned.rest]; omega) hturned.rest
      hturned.ready hnone.2
    refine ⟨v, g'', ?_, ?_⟩
    · rw [hgo, hv, hturned.report]
    · rw [htext, hturned.passed, hturned.count, stretches_of_some hm]
      simp [fillIn, Frame.replacements_cons]

/-- A pass stops at the first chart that is refused. -/
theorem go_drawing_of_some (columns : List Column) {n : Nat} {setting : Setting} (report : Report)
    {t : Template} {g : Gallery} {fault : Fault} (hn : t.rest.length < n) :
    let results := resultsOf columns setting (markersOf (stretches t.rest))
    Ready f (chartsOf results).length g → firstRefusal? f results = some fault →
      (go (drawing f) columns false n setting report (t, g)).1 = .error (.fault fault) := by
  induction hs : t.rest using stretches.induct generalizing n setting report t g with
  | case1 s hm =>
    simp [markersOf_stretches_of_none hm, firstRefusal?, resultsOf]
  | case2 s m hm hlt ih =>
    subst hs
    obtain ⟨n, rfl⟩ : ∃ k, n = k + 1 := ⟨n - 1, by omega⟩
    simp only [markersOf_stretches_of_some hm, resultsOf_cons]
    rcases hr : outcomeOf columns setting (.ofList m.marker) with ⟨r, next⟩
    intro hready hsome
    rw [firstRefusal?_cons] at hsome
    rw [chartsOf_cons, List.length_append] at hready
    cases hrefused : (Result.chart? r).bind (refusal? f) with
    | some first =>
      obtain rfl : first = fault := by simpa [hrefused] using hsome
      exact go_refused n report hm hr hrefused
    | none =>
      obtain ⟨u, g', report', hgo, hturned⟩ := go_turn n report hm hr hready hrefused
      rw [hgo]
      exact ih report' (by rw [hturned.rest]; omega) hturned.rest hturned.ready
        (by simpa [hrefused] using hsome)

/-! ## Which directives stop the pass -/

/-- The charts that are refused are those of the directives that ask for a blank one. -/
theorem firstRefusal?_resultsOf (hf : f.size = none) {columns : List Column}
    (haggregated : ∀ c ∈ columns, c.Aggregated) (s : Setting) (raws : List String) :
    firstRefusal? f (resultsOf columns s raws) =
      raws.findSome? fun raw => (Directive.ofMarked raw).refusal? columns := by
  induction raws generalizing s with
  | nil => rfl
  | cons raw raws ih =>
    have hraw : (Result.chart? (outcomeOf columns s raw).1).bind (refusal? f) =
        (Directive.ofMarked raw).refusal? columns :=
      Directive.refusal?_outcome haggregated hf s _
    rw [resultsOf_cons, firstRefusal?_cons, ih, hraw, List.findSome?_cons]
    cases (Directive.ofMarked raw).refusal? columns <;> rfl

/-- **Only blank charts stop a pass.** A pass over a text that is not strict and draws its charts in
    their own size, where the directory can be made and the pictures be written, stops at the first
    directive that asks for a chart with nothing to show. If there is none, it ends well: every marker is
    counted once, the ones that fail stay in the text, and all others are replaced. -/
theorem run_drawing (t : Table) (palette : Palette) {text : String} {ss : List Stretch}
    (hss : MarkedOff text.toList ss) {d : Disk} {directory : String}
    (hready : Ready ⟨directory, none⟩
      (chartsOf (resultsOf t.columns ⟨palette, []⟩ (markersOf ss))).length ⟨d, 0⟩) :
    let raws := markersOf ss
    let results := resultsOf t.columns ⟨palette, []⟩ raws
    let ended := run (Template.host (Gallery.renderer ⟨directory, none⟩)) t.columns palette false
      (.ofText text, ⟨d, 0⟩)
    match raws.findSome? fun raw => (Directive.ofMarked raw).refusal? t.columns with
    | some fault => ended.1 = .error (.fault fault)
    | none =>
      ended.1 = .ok (.ofResults raws results) ∧
        (Report.ofResults raws results).processed = raws.length ∧
        ended.2.1.text = .ofList (fillIn ss (Frame.replacements ⟨directory, none⟩ 0 raws results)) := by
  obtain rfl := markedOff_iff.mp hss
  intro raws results ended
  have hrefusal : firstRefusal? ⟨directory, none⟩ results =
      raws.findSome? fun raw => (Directive.ofMarked raw).refusal? t.columns :=
    firstRefusal?_resultsOf rfl (Column.aggregated_of_mem_columns t) _ _
  rw [← hrefusal]
  cases hfirst : firstRefusal? ⟨directory, none⟩ results with
  | some fault =>
    exact go_drawing_of_some t.columns .empty (t := .ofText text) (Nat.lt_succ_self _) hready hfirst
  | none =>
    obtain ⟨u, g, hrun, htext⟩ := go_drawing_of_none t.columns .empty (t := .ofText text)
      (Nat.lt_succ_self _) hready hfirst
    have hended : ended = (.ok (Report.empty.append (.ofResults raws results)), u, g) := hrun
    rw [hended, Report.empty_append]
    refine ⟨rfl, Report.processed_ofResults (length_resultsOf _ _ _), ?_⟩
    rw [htext]
    rfl

/-! ## Two passes over one column -/

theorem ready_emptyDisk : Ready ⟨"charts", none⟩ 1 ⟨.empty, 0⟩ := by
  refine ⟨⟨[["charts"]], [], []⟩, rfl, fun number hlow hhigh => ?_⟩
  dsimp only at hlow hhigh
  obtain rfl : number = 1 := by omega
  exact ⟨rfl, rfl, rfl, rfl, rfl⟩

/-- A pie of a mean fails and stays, and the bars behind it are drawn. -/
theorem run_drawing_pie_of_mean :
    let t := Table.ofRows ["Tea"] [["yes"]]
    let ended := run (Template.host (Gallery.renderer ⟨"charts", none⟩)) t.columns .initial false
      (.ofText "\x7b\x7b\x7bpie;mean;Tea;\x7d\x7d\x7d\x7b\x7b\x7bbar;count;Tea;Cups\x7d\x7d\x7d",
        ⟨.empty, 0⟩)
    Ready ⟨"charts", none⟩ 1 ⟨.empty, 0⟩ ∧
      ended.1 = .ok ⟨0, 1, 0,
        [("\x7b\x7b\x7bpie;mean;Tea;\x7d\x7d\x7d", .notCharted .mean "pie;mean;Tea;")], []⟩ ∧
      ended.2.1.text = "\x7b\x7b\x7bpie;mean;Tea;\x7d\x7d\x7d![Cups](charts/chart_001.png)" := by
  intro t ended
  have hpie : firstMarker?
      "\x7b\x7b\x7bpie;mean;Tea;\x7d\x7d\x7d\x7b\x7b\x7bbar;count;Tea;Cups\x7d\x7d\x7d".toList =
      some ⟨[], "\x7b\x7b\x7bpie;mean;Tea;\x7d\x7d\x7d".toList,
        "\x7b\x7b\x7bbar;count;Tea;Cups\x7d\x7d\x7d".toList⟩ := rfl
  have hbars : firstMarker? "\x7b\x7b\x7bbar;count;Tea;Cups\x7d\x7d\x7d".toList =
      some ⟨[], "\x7b\x7b\x7bbar;count;Tea;Cups\x7d\x7d\x7d".toList, []⟩ := rfl
  have hmarked := markedOff_stretches
    "\x7b\x7b\x7bpie;mean;Tea;\x7d\x7d\x7d\x7b\x7b\x7bbar;count;Tea;Cups\x7d\x7d\x7d".toList
  rw [stretches_of_some hpie, stretches_of_some hbars, stretches_of_none rfl] at hmarked
  obtain ⟨hreport, -, htext⟩ := run_drawing t .initial hmarked ready_emptyDisk
  -- with its name back, the pass itself is not evaluated
  have hended : ended = run _ _ _ _ _ := rfl
  rw [← hended] at hreport htext
  exact ⟨ready_emptyDisk, hreport.trans (by rfl), htext.trans (by decide +kernel)⟩

/-- Without a row, bars have nothing to show and stop the pass. -/
theorem run_drawing_without_rows :
    let t := Table.ofRows ["Tea"] []
    Table.ofCsv "Tea\nTea\n" = .ok t ∧ Ready ⟨"charts", none⟩ 1 ⟨.empty, 0⟩ ∧
      (run (Template.host (Gallery.renderer ⟨"charts", none⟩)) t.columns .initial false
        (.ofText "\x7b\x7b\x7bbar;count;Tea;Cups\x7d\x7d\x7d", ⟨.empty, 0⟩)).1 =
        .error (.fault .noBars) :=
  ⟨rfl, ready_emptyDisk, rfl⟩

end Pass

end SurveyReport
