import SurveyReport.Proofs.Pass.Substitution

/-!
# Strict passes

A strict pass ends at the first marker that fails. Up to there it is a pass over the part of the
template that stands before this marker; what stands behind is not looked at.

Results:
* `MarkedOff.front`: the part before a marker is marked off as it is in the whole text.
* `go_strict_of_all_ok`, `go_strict_of_first`: a strict pass without failures, and with a first one.
* `run_strict`: a strict pass compared with one that is not strict.
-/

namespace SurveyReport

/-! ## The part before a marker -/

/-- The text of a stretch. -/
def Stretch.text : Stretch → List Char
  | .plain t => t
  | .marker m => m

/-- The text that stretches make up. -/
def written (ss : List Stretch) : List Char := ss.flatMap Stretch.text

@[simp] theorem written_cons (s : Stretch) (ss : List Stretch) :
    written (s :: ss) = s.text ++ written ss := by
  simp [written]

theorem MarkedOff.written_eq {s : List Char} {ss : List Stretch} (h : MarkedOff s ss) :
    written ss = s := by
  induction h with
  | plain => simp [written, Stretch.text]
  | marker opening closing _ ih => simp [ih, Stretch.text, opening.1, closing.1]

/-- A first mark is the first one in every part of the text that it stands in. -/
theorem Text.FirstMark.of_append {mark before behind tail s : List Char}
    (h : FirstMark mark before (behind ++ tail) (s ++ tail)) : FirstMark mark before behind s := by
  obtain ⟨hs, hmin⟩ := h
  refine ⟨?_, fun earlier rest he => hmin earlier (rest ++ tail) (by simp [he])⟩
  rw [← List.append_assoc] at hs
  exact List.append_cancel_right hs

/-- There is no marker before the first opening. -/
theorem unmarked_of_firstMark {before opened s : List Char}
    (h : Text.FirstMark openMarker before opened s) : Unmarked before := by
  intro earlier inside behind he
  have hle := h.2 earlier (inside ++ closeMarker ++ behind ++ openMarker ++ opened)
    (by rw [h.1, he]; simp)
  rw [he] at hle
  simp only [openMarker, List.length_append, List.length_cons, List.length_nil] at hle
  omega

/-- The part before a marker is marked off as it is in the whole text. -/
theorem MarkedOff.front {s : List Char} {ss : List Stretch} (h : MarkedOff s ss) :
    ∀ {front : List Stretch} {raw : List Char} {back : List Stretch},
      ss = front ++ .marker raw :: back → MarkedOff (written front) front := by
  induction h with
  | plain unmarked =>
    intro front raw back hss
    match front, hss with
    | [], hss => simp at hss
    | _ :: front, hss => simp at hss
  | @marker s before opened inside behind rest opening closing others ih =>
    intro front raw back hss
    match front, hss with
    | [], hss => simp at hss
    | [p], hss =>
      obtain ⟨rfl, -⟩ := by simpa using hss
      have hbefore : written [.plain before] = before := by simp [written, Stretch.text]
      rw [hbefore]
      exact .plain (unmarked_of_firstMark opening)
    | p :: m :: front, hss =>
      obtain ⟨rfl, rfl, hrest⟩ := by simpa using hss
      have hfront := ih hrest
      -- the rest of the whole text is the front of the rest, and what stands behind
      have htail : behind = written front ++ (raw ++ written back) := by
        rw [← others.written_eq, hrest]
        simp [written, Stretch.text]
      have hs : s = (before ++ (openMarker ++ inside ++ closeMarker) ++ written front) ++
          (raw ++ written back) := by
        rw [opening.1, closing.1, htail]
        simp
      have hopened : opened = (inside ++ closeMarker ++ written front) ++ (raw ++ written back) := by
        rw [closing.1, htail]
        simp
      have hopening := opening
      have hclosing := closing
      rw [hs, hopened] at hopening
      rw [hopened, htail] at hclosing
      have hmarked := MarkedOff.marker hopening.of_append hclosing.of_append hfront
      simpa [Stretch.text] using hmarked

/-! ## Directives before and behind -/

theorem resultsOf_append (columns : List Column) (s : Setting) (raws more : List String) :
    resultsOf columns s (raws ++ more) =
      resultsOf columns s raws ++ resultsOf columns (settingAfter columns s raws) more := by
  induction raws generalizing s with
  | nil => rfl
  | cons raw raws ih => simp [resultsOf_cons, ih, settingAfter]

theorem chartsOf_append (results more : List Result) :
    chartsOf (results ++ more) = chartsOf results ++ chartsOf more := List.filterMap_append

theorem Listed.prefix_add (l : Listed) (charts : List Chart) :
    l.text.toList <+: (l.add charts).text.toList := by
  simp [add]

theorem replacements_append (charts : Nat) {raws : List String} {results : List Result}
    (h : results.length = raws.length) (raws' : List String) (results' : List Result) :
    replacements charts (raws ++ raws') (results ++ results') =
      replacements charts raws results ++
        replacements (charts + (chartsOf results).length) raws' results' := by
  induction raws generalizing charts results with
  | nil =>
    obtain rfl := List.length_eq_zero_iff.mp h
    rfl
  | cons raw raws ih =>
    obtain ⟨result, results, rfl⟩ := List.exists_cons_of_length_eq_add_one h
    simp only [List.cons_append, replacements_cons, ih _ (Nat.succ.inj h), chartsOf_cons,
      List.length_append, Nat.add_assoc]

theorem length_replacements (charts : Nat) {raws : List String} {results : List Result}
    (h : results.length = raws.length) : (replacements charts raws results).length = raws.length := by
  simp [replacements, h]

theorem fillIn_append {ss : List Stretch} {texts : List String}
    (h : texts.length = (markersOf ss).length) (ss' : List Stretch) (texts' : List String) :
    fillIn (ss ++ ss') (texts ++ texts') = fillIn ss texts ++ fillIn ss' texts' := by
  induction ss generalizing texts with
  | nil =>
    obtain rfl := List.length_eq_zero_iff.mp h
    rfl
  | cons s ss ih =>
    cases s with
    | plain t => simp [fillIn, ih h]
    | marker m =>
      obtain ⟨text, texts, rfl⟩ := List.exists_cons_of_length_eq_add_one h
      simp [fillIn, ih (Nat.succ.inj h)]

/-! ## The first failure -/

/-- No marker of `before` fails, and the marker behind it does. -/
structure FirstFailure (columns : List Column) (s : Setting) (before : List Stretch) (raw : String)
    (f : Failure) : Prop where
  before_ok : failuresOf (markersOf before) (resultsOf columns s (markersOf before)) = []
  fails : (outcomeOf columns (settingAfter columns s (markersOf before)) raw).1 = .error f

theorem exists_firstFailure {columns : List Column} {ss : List Stretch} :
    ∀ {s : Setting} {raw : String} {f : Failure} {others : List (String × Failure)},
      failuresOf (markersOf ss) (resultsOf columns s (markersOf ss)) = (raw, f) :: others →
      ∃ before behind, ss = before ++ .marker raw.toList :: behind ∧
        FirstFailure columns s before raw f := by
  induction ss with
  | nil =>
    intro s raw f others h
    simp [failuresOf] at h
  | cons stretch ss ih =>
    intro s raw f others h
    cases stretch with
    | plain t =>
      obtain ⟨before, behind, hss, hok, hfails⟩ := ih h
      exact ⟨.plain t :: before, behind, by simp [hss], by simpa using hok, by simpa using hfails⟩
    | marker m =>
      rw [markersOf_marker, resultsOf_cons, failuresOf_cons] at h
      cases hr : (outcomeOf columns s (.ofList m)).1 with
      | error g =>
        rw [hr] at h
        obtain ⟨⟨rfl, rfl⟩, -⟩ := by simpa using h
        exact ⟨[], ss, by simp, by simp [failuresOf], by simpa [settingAfter] using hr⟩
      | ok o =>
        rw [hr] at h
        obtain ⟨before, behind, hss, hok, hfails⟩ := ih (by simpa using h)
        refine ⟨.marker m :: before, behind, by simp [hss], ?_, ?_⟩
        · rw [markersOf_marker, resultsOf_cons, failuresOf_cons, hr, hok]
          rfl
        · rwa [markersOf_marker, settingAfter, List.foldl_cons, ← settingAfter]

namespace Pass

/-! ## Strict runs -/

/-- Without a failure it makes no difference whether a pass is strict. -/
theorem go_strict_of_all_ok (columns : List Column) {s : List Char} {ss : List Stretch}
    (h : MarkedOff s ss) :
    ∀ {n : Nat} (setting : Setting) (report : Report) {t : Template} (l : Listed),
      t.rest = s → s.length < n →
      failuresOf (markersOf ss) (resultsOf columns setting (markersOf ss)) = [] →
      go listing columns true n setting report (t, l) =
        go listing columns false n setting report (t, l) := by
  induction h with
  | @plain s unmarked =>
    intro n setting report t l ht hf _
    obtain ⟨n, rfl⟩ : ∃ k, n = k + 1 := ⟨n - 1, by omega⟩
    have hnone := ht ▸ firstMarker?_eq_none_iff.mpr unmarked
    rw [go_done columns true n setting report l hnone, go_done columns false n setting report l hnone]
  | @marker s before opened inside behind rest ho hc _ ih =>
    intro n setting report t l ht hf hok
    obtain ⟨n, rfl⟩ : ∃ k, n = k + 1 := ⟨n - 1, by omega⟩
    have hm := firstMarker?_eq_some ho hc
    have hlt : behind.length + 6 ≤ s.length := length_behind_lt hm
    generalize openMarker ++ inside ++ closeMarker = marker at hm hok
    rw [markersOf_plain, markersOf_marker, resultsOf_cons, failuresOf_cons] at hok
    rw [go_step columns true n setting report l (ht ▸ hm),
      go_step columns false n setting report l (ht ▸ hm)]
    rcases hr : outcomeOf columns setting (.ofList marker) with ⟨g | o, next⟩
    · simp [hr] at hok
    · exact ih next _ _ rfl (by omega) (by simpa [hr] using hok)

/-- A strict pass ends at the first failure. The markers before it are filled in, and the text from it
    on is left as it was. -/
theorem go_strict_of_first (columns : List Column) {s : List Char} {ss : List Stretch}
    (h : MarkedOff s ss) :
    ∀ {n : Nat} {setting : Setting} (report : Report) {t : Template} (l : Listed)
      {before : List Stretch} {raw : String} {f : Failure} {behind : List Stretch},
      t.rest = s → s.length < n → ss = before ++ .marker raw.toList :: behind →
      FirstFailure columns setting before raw f →
      ∃ u : Template,
        go listing columns true n setting report (t, l) =
          (.error f, u, l.add (chartsOf (resultsOf columns setting (markersOf before)))) ∧
        u.text = .ofList (t.passed ++ fillIn before
          (replacements l.count (markersOf before) (resultsOf columns setting (markersOf before))) ++
          raw.toList ++ written behind) := by
  induction h with
  | plain unmarked =>
    intro n setting report t l before raw f behind ht hf hss
    match before, hss with
    | [], hss => simp at hss
    | _ :: before, hss => simp at hss
  | @marker s start opened inside tail rest ho hc others ih =>
    intro n setting report t l before raw f behind ht hf hss hfirst
    obtain ⟨n, rfl⟩ : ∃ k, n = k + 1 := ⟨n - 1, by omega⟩
    have hm := firstMarker?_eq_some ho hc
    have hlt : tail.length + 6 ≤ s.length := length_behind_lt hm
    generalize openMarker ++ inside ++ closeMarker = marker at hm hss
    rw [go_step columns true n setting report l (ht ▸ hm)]
    match before, hss with
    | [], hss => simp at hss
    | [p], hss =>
      -- the marker at hand is the one that fails
      obtain ⟨rfl, rfl, rfl⟩ := by simpa using hss
      have hfails : (outcomeOf columns setting raw).1 = .error f := hfirst.fails
      rw [String.ofList_toList]
      rcases hr : outcomeOf columns setting raw with ⟨g | o, next⟩
      · rw [hr] at hfails
        obtain rfl := Except.error.inj hfails
        refine ⟨⟨t.passed ++ start, some raw.toList, tail⟩, ?_, ?_⟩
        · have hnone : chartsOf (resultsOf columns setting (markersOf [.plain start])) = [] := rfl
          rw [hnone, Listed.add_nil]
          rfl
        · simp [Template.text, Template.passed, fillIn, others.written_eq]
      · rw [hr] at hfails
        cases hfails
    | p :: m :: before, hss =>
      obtain ⟨rfl, rfl, hrest⟩ := by simpa using hss
      obtain ⟨hok, hfails⟩ := hfirst
      rw [markersOf_plain, markersOf_marker, resultsOf_cons, failuresOf_cons] at hok
      rw [markersOf_plain, markersOf_marker, settingAfter, List.foldl_cons, ← settingAfter] at hfails
      rw [markersOf_plain, markersOf_marker, resultsOf_cons]
      rcases hr : outcomeOf columns setting (.ofList marker) with ⟨g | o, next⟩
      · simp [hr] at hok
      · rw [hr] at hfails hok
        obtain ⟨u, hu, htext⟩ := ih (n := n) (report.enter o)
          (t := ⟨t.passed ++ start ++ (replacement l.count (.ofList marker) (.ok o)).toList, none,
            tail⟩) (l.add (Result.chart? (.ok o)).toList) rfl (by omega) hrest
          ⟨by simpa using hok, hfails⟩
        refine ⟨u, ?_, ?_⟩
        · rw [chartsOf_cons, Listed.add_append]
          exact hu
        · simp [htext, Template.passed, fillIn, replacements_cons, Listed.add]

/-! ## Strict and not strict -/

/-- A pass over a text whose charts are listed. -/
abbrev overText (columns : List Column) (palette : Palette) (strict : Bool) (text : String) :
    Except Failure Report × Template × Listed :=
  run (Template.host Listed.renderer) columns palette strict (.ofText text, .empty)

/-- A pass that is not strict over a text that is marked off. -/
theorem exists_overText {text : String} {ss : List Stretch} (h : MarkedOff text.toList ss)
    (columns : List Column) (palette : Palette) :
    ∃ t : Template,
      overText columns palette false text =
        (.ok (.ofResults (markersOf ss) (resultsOf columns ⟨palette, []⟩ (markersOf ss))), t,
          Listed.empty.add (chartsOf (resultsOf columns ⟨palette, []⟩ (markersOf ss)))) ∧
      t.text = .ofList (fillIn ss
        (replacements 0 (markersOf ss) (resultsOf columns ⟨palette, []⟩ (markersOf ss)))) := by
  obtain ⟨t, hrun, htext⟩ := go_listing columns h ⟨palette, []⟩ .empty (t := .ofText text) .empty rfl
    (Nat.lt_succ_self _)
  rw [Report.empty_append] at hrun
  exact ⟨t, hrun, htext⟩

/-- A strict pass over `text` ends at the marker `raw` because of `f`; `before` and `behind` are the
    stretches around the marker. The pass that is not strict leaves `t` and `l`, and over the text before
    the marker alone it leaves `u` and `k`. -/
structure EndsAt (columns : List Column) (palette : Palette) (text raw : String) (f : Failure)
    (before behind : List Stretch) (t u : Template) (l k : Listed) : Prop where
  marker : MarkedOff text.toList (before ++ .marker raw.toList :: behind)
  parts : text.toList = written before ++ raw.toList ++ written behind
  passed : ∃ report, report.failures = [] ∧
    overText columns palette false (.ofList (written before)) = (.ok report, u, k)
  ended : ∃ v : Template, overText columns palette true text = (.error f, v, k) ∧
    v.text = u.text ++ raw ++ .ofList (written behind)
  charts : k = Listed.empty.add (chartsOf (resultsOf columns ⟨palette, []⟩ (markersOf before)))
  document : (u.text ++ raw).toList <+: t.text.toList
  listings : k.text.toList <+: l.text.toList

theorem endsAt_of_first {columns : List Column} {palette : Palette} {text raw : String} {f : Failure}
    {before behind : List Stretch} {t : Template}
    (hmarked : MarkedOff text.toList (before ++ .marker raw.toList :: behind))
    (hfirst : FirstFailure columns ⟨palette, []⟩ before raw f)
    (htext : t.text = .ofList (fillIn (before ++ .marker raw.toList :: behind)
      (replacements 0 (markersOf (before ++ .marker raw.toList :: behind))
        (resultsOf columns ⟨palette, []⟩ (markersOf (before ++ .marker raw.toList :: behind)))))) :
    ∃ u k, EndsAt columns palette text raw f before behind t u
      (Listed.empty.add (chartsOf
        (resultsOf columns ⟨palette, []⟩ (markersOf (before ++ .marker raw.toList :: behind))))) k := by
  have hfront : MarkedOff (String.ofList (written before)).toList before := by
    simpa using hmarked.front rfl
  obtain ⟨u, hrun, hu⟩ := exists_overText hfront columns palette
  obtain ⟨v, hstrict, hv⟩ := go_strict_of_first columns hmarked .empty (t := .ofText text) .empty rfl
    (Nat.lt_succ_self _) rfl hfirst
  have hmarkers : markersOf (before ++ .marker raw.toList :: behind) =
      markersOf before ++ raw :: markersOf behind := by simp [markersOf_append]
  have hlength := length_resultsOf columns ⟨palette, []⟩ (markersOf before)
  rw [hmarkers, resultsOf_append, resultsOf_cons, hfirst.fails] at htext ⊢
  refine ⟨u, _, hmarked, ?_, ⟨_, hfirst.before_ok, hrun⟩, ⟨v, hstrict, ?_⟩, rfl, ?_, ?_⟩
  · rw [← hmarked.written_eq]
    simp [written, Stretch.text]
  · rw [hv, hu]
    simp [Template.passed, Template.ofText, Listed.empty, String.append_assoc]
  · rw [htext, hu, replacements_append 0 hlength, replacements_cons,
      fillIn_append (length_replacements 0 hlength)]
    simp [fillIn, replacement]
  · rw [chartsOf_append, Listed.add_append]
    exact Listed.prefix_add _ _

/-- **Strict and not strict.** A pass that is not strict never fails. The strict pass over the same
    text fails exactly if there is a failure in the report, and then it ends at the marker of the first one
    because of this failure. Else both passes come to the same. -/
theorem run_strict (columns : List Column) (palette : Palette) (text : String) :
    ∃ report t l, overText columns palette false text = (.ok report, t, l) ∧
      ((∃ f, (overText columns palette true text).1 = .error f) ↔ report.failures ≠ []) ∧
      match report.failures with
      | [] => overText columns palette true text = (.ok report, t, l)
      | (raw, f) :: _ => ∃ before behind u k,
          EndsAt columns palette text raw f before behind t u l k := by
  have hmarked := markedOff_stretches text.toList
  obtain ⟨t, hrun, htext⟩ := exists_overText hmarked columns palette
  refine ⟨_, t, _, hrun, ?_⟩
  cases hfailures : failuresOf (markersOf (stretches text.toList))
      (resultsOf columns ⟨palette, []⟩ (markersOf (stretches text.toList))) with
  | nil =>
    have hstrict : overText columns palette true text = overText columns palette false text :=
      go_strict_of_all_ok columns hmarked ⟨palette, []⟩ .empty (t := .ofText text) .empty rfl
        (Nat.lt_succ_self _) hfailures
    rw [hstrict, hrun]
    simp [Report.ofResults, hfailures]
  | cons first others =>
    obtain ⟨raw, f⟩ := first
    obtain ⟨before, behind, hsplit, hfirst⟩ := exists_firstFailure hfailures
    rw [hsplit] at hmarked htext hfailures ⊢
    obtain ⟨u, k, hends⟩ := endsAt_of_first hmarked hfirst htext
    obtain ⟨v, hstrict, -⟩ := hends.ended
    rw [Report.ofResults, hfailures]
    refine ⟨?_, before, behind, u, k, hends⟩
    simp [hstrict]

end Pass

end SurveyReport
