import SurveyReport.Template

/-!
# The markers of a text

What the markers of a text are, said without searching for them: the first opening in the text, up to
the first closing behind it; then the same behind that closing, as long as there is a closed marker.

Results:
* `cutAt_eq_some_iff`, `cutAt_eq_none_iff`: a text is cut at the first mark in it.
* `markedOff_iff`: every text is marked off in one way only, into its `stretches`.
* `markersOf_stretches_of_some`: the first marker of a text, and those behind it.
-/

namespace SurveyReport

/-! ## The first mark -/

namespace Text

/-- The text has `mark` between `before` and `behind`, and nowhere earlier. -/
def FirstMark (mark before behind s : List Char) : Prop :=
  s = before ++ mark ++ behind ∧
    ∀ earlier rest, s = earlier ++ mark ++ rest → before.length ≤ earlier.length

theorem FirstMark.unique {mark s before before' behind behind' : List Char}
    (h : FirstMark mark before behind s) (h' : FirstMark mark before' behind' s) :
    before = before' ∧ behind = behind' := by
  have hlen : before.length = before'.length :=
    Nat.le_antisymm (h.2 _ _ h'.1) (h'.2 _ _ h.1)
  have heq : before ++ (mark ++ behind) = before' ++ (mark ++ behind') := by
    simpa using h.1.symm.trans h'.1
  obtain ⟨hb, hm⟩ := List.append_inj heq hlen
  exact ⟨hb, List.append_cancel_left hm⟩

theorem FirstMark.cons {mark before behind s : List Char} {c : Char}
    (h : FirstMark mark before behind s) (hc : ¬ mark <+: c :: s) :
    FirstMark mark (c :: before) behind (c :: s) := by
  refine ⟨by simp [h.1], fun earlier rest he => ?_⟩
  cases earlier with
  | nil => exact absurd ⟨rest, he.symm⟩ hc
  | cons d earlier =>
    have hs : s = earlier ++ mark ++ rest := (List.cons.inj he).2
    simpa using h.2 _ _ hs

theorem firstMark_of_cutAt {mark s before behind : List Char}
    (h : cutAt mark s = some (before, behind)) : FirstMark mark before behind s := by
  induction s generalizing before with
  | nil =>
    have hs := eq_of_cutAt h
    have hb : before = [] := (List.append_eq_nil_iff.mp (List.append_eq_nil_iff.mp hs.symm).1).1
    exact ⟨hs, by simp [hb]⟩
  | cons c rest ih =>
    have hs := eq_of_cutAt h
    rw [cutAt] at h
    split at h
    · obtain ⟨rfl, -⟩ := by simpa using h
      exact ⟨hs, by simp⟩
    · rename_i hp
      obtain ⟨cut, hcut, he⟩ := Option.map_eq_some_iff.mp h
      obtain ⟨rfl, rfl⟩ := by simpa using he
      exact (ih hcut).cons fun hpre => hp (List.isPrefixOf_iff_prefix.mpr hpre)

theorem cutAt_eq_none_iff {mark s : List Char} :
    cutAt mark s = none ↔ ∀ before behind, s ≠ before ++ mark ++ behind := by
  induction s with
  | nil =>
    simp only [cutAt, List.isEmpty_iff, ite_eq_right_iff, reduceCtorEq, imp_false]
    constructor
    · intro hm before behind h
      exact hm (List.append_eq_nil_iff.mp (List.append_eq_nil_iff.mp h.symm).1).2
    · intro h hm
      exact h [] [] (by simp [hm])
  | cons c rest ih =>
    rw [cutAt]
    split
    · rename_i hp
      obtain ⟨tail, ht⟩ := List.isPrefixOf_iff_prefix.mp hp
      simp only [reduceCtorEq, false_iff]
      exact fun h => h [] tail (by simpa using ht.symm)
    · rename_i hp
      rw [Option.map_eq_none_iff, ih]
      constructor
      · intro h before behind he
        cases before with
        | nil => exact hp (List.isPrefixOf_iff_prefix.mpr ⟨behind, by simpa using he.symm⟩)
        | cons d before => exact h before behind (List.cons.inj he).2
      · intro h before behind he
        exact h (c :: before) behind (by simp [he])

theorem cutAt_eq_some_iff {mark s before behind : List Char} :
    cutAt mark s = some (before, behind) ↔ FirstMark mark before behind s := by
  refine ⟨firstMark_of_cutAt, fun h => ?_⟩
  cases hc : cutAt mark s with
  | none => exact absurd h.1 (cutAt_eq_none_iff.mp hc _ _)
  | some cut =>
    obtain ⟨hb, hr⟩ := h.unique (firstMark_of_cutAt hc)
    rw [hb, hr]

end Text

/-! ## Marking off -/

/-- The text has no opening with a closing behind it. -/
def Unmarked (s : List Char) : Prop :=
  ∀ before inside behind, s ≠ before ++ openMarker ++ inside ++ closeMarker ++ behind

/-- A text is marked off into plain stretches and markers. A marker goes from the first opening to the
    first closing behind it; the rest of the text is marked off in the same way. -/
inductive MarkedOff : List Char → List Stretch → Prop
  | plain {s : List Char} (unmarked : Unmarked s) : MarkedOff s [.plain s]
  | marker {s before opened inside behind : List Char} {rest : List Stretch}
      (opening : Text.FirstMark openMarker before opened s)
      (closing : Text.FirstMark closeMarker inside behind opened)
      (others : MarkedOff behind rest) :
      MarkedOff s (.plain before :: .marker (openMarker ++ inside ++ closeMarker) :: rest)

theorem firstMarker?_eq_some {s before opened inside behind : List Char}
    (ho : Text.FirstMark openMarker before opened s)
    (hc : Text.FirstMark closeMarker inside behind opened) :
    firstMarker? s = some ⟨before, openMarker ++ inside ++ closeMarker, behind⟩ := by
  simp [firstMarker?, Text.cutAt_eq_some_iff.mpr ho, Text.cutAt_eq_some_iff.mpr hc]

theorem exists_firstMark_of_firstMarker? {s : List Char} {m : Marked} (h : firstMarker? s = some m) :
    ∃ opened inside, Text.FirstMark openMarker m.before opened s ∧
      Text.FirstMark closeMarker inside m.behind opened ∧
      m.marker = openMarker ++ inside ++ closeMarker := by
  simp only [firstMarker?, Option.bind_eq_bind, Option.bind_eq_some_iff, Prod.exists,
    Option.pure_def, Option.some.injEq] at h
  obtain ⟨before, opened, ho, inside, behind, hc, rfl⟩ := h
  exact ⟨opened, inside, Text.firstMark_of_cutAt ho, Text.firstMark_of_cutAt hc, rfl⟩

/-- A marker that is closed anywhere lets the first opening be closed. -/
theorem firstMarker?_eq_none_iff {s : List Char} : firstMarker? s = none ↔ Unmarked s := by
  constructor
  · intro h before inside behind hs
    cases ho : Text.cutAt openMarker s with
    | none =>
      exact Text.cutAt_eq_none_iff.mp ho before (inside ++ closeMarker ++ behind) (by simpa using hs)
    | some cut =>
      obtain ⟨first, opened⟩ := cut
      have hc : Text.cutAt closeMarker opened = none :=
        Option.eq_none_iff_forall_ne_some.mpr (by simpa [firstMarker?, ho] using h)
      obtain ⟨hf, hmin⟩ := Text.firstMark_of_cutAt ho
      have hle := hmin before (inside ++ closeMarker ++ behind) (by simpa using hs)
      -- What stands behind the first opening contains what stands behind a later one.
      have hsplit : first ++ openMarker ++ opened =
          (before ++ openMarker ++ inside) ++ (closeMarker ++ behind) := by
        rw [← hf, hs]; simp
      obtain ⟨k, hk⟩ : ∃ k, before ++ openMarker ++ inside = first ++ openMarker ++ k := by
        have hprefix : first ++ openMarker <+: before ++ openMarker ++ inside :=
          List.prefix_of_prefix_length_le ⟨opened, rfl⟩ ⟨_, hsplit.symm⟩ (by simp; omega)
        obtain ⟨k, hk⟩ := hprefix
        exact ⟨k, hk.symm⟩
      rw [hk, List.append_assoc (first ++ openMarker)] at hsplit
      have hopened := List.append_cancel_left hsplit
      exact Text.cutAt_eq_none_iff.mp hc k behind (by simpa using hopened)
  · intro h
    cases hm : firstMarker? s with
    | none => rfl
    | some m =>
      obtain ⟨inside, hi, hs⟩ := exists_of_firstMarker? hm
      exact absurd (by rw [hs, hi]; simp) (h m.before inside m.behind)

theorem stretches_of_none {s : List Char} (h : firstMarker? s = none) : stretches s = [.plain s] := by
  rw [stretches]
  split
  · rfl
  · simp_all

theorem stretches_of_some {s : List Char} {m : Marked} (h : firstMarker? s = some m) :
    stretches s = .plain m.before :: .marker m.marker :: stretches m.behind := by
  rw [stretches]
  split
  · simp_all
  · rename_i m' h'
    obtain rfl : m = m' := Option.some.inj (h.symm.trans h')
    rfl

theorem eq_stretches_of_markedOff {s : List Char} {ss : List Stretch} (h : MarkedOff s ss) :
    ss = stretches s := by
  induction h with
  | plain unmarked => rw [stretches_of_none (firstMarker?_eq_none_iff.mpr unmarked)]
  | marker opening closing _ ih =>
    rw [stretches_of_some (firstMarker?_eq_some opening closing), ← ih]

theorem markedOff_stretches (s : List Char) : MarkedOff s (stretches s) := by
  induction s using stretches.induct with
  | case1 s h =>
    rw [stretches_of_none h]
    exact .plain (firstMarker?_eq_none_iff.mp h)
  | case2 s m h _ ih =>
    obtain ⟨opened, inside, ho, hc, hm⟩ := exists_firstMark_of_firstMarker? h
    rw [stretches_of_some h, hm]
    exact .marker ho hc ih

/-- **Marking off.** There is one way to mark off a text, and `stretches` finds it. -/
theorem markedOff_iff {s : List Char} {ss : List Stretch} : MarkedOff s ss ↔ ss = stretches s :=
  ⟨eq_stretches_of_markedOff, fun h => h ▸ markedOff_stretches s⟩

/-! ## The markers -/

/-- The markers of a marked-off text. -/
def markersOf (ss : List Stretch) : List String :=
  ss.filterMap fun
    | .plain _ => none
    | .marker m => some (.ofList m)

@[simp] theorem markersOf_nil : markersOf [] = [] := rfl

@[simp] theorem markersOf_plain (t : List Char) (ss : List Stretch) :
    markersOf (.plain t :: ss) = markersOf ss := rfl

@[simp] theorem markersOf_marker (m : List Char) (ss : List Stretch) :
    markersOf (.marker m :: ss) = .ofList m :: markersOf ss := rfl

theorem markersOf_append (ss more : List Stretch) :
    markersOf (ss ++ more) = markersOf ss ++ markersOf more := by
  simp [markersOf]

theorem markersOf_stretches_of_none {s : List Char} (h : firstMarker? s = none) :
    markersOf (stretches s) = [] := by
  rw [stretches_of_none h]
  rfl

theorem markersOf_stretches_of_some {s : List Char} {m : Marked} (h : firstMarker? s = some m) :
    markersOf (stretches s) = .ofList m.marker :: markersOf (stretches m.behind) := by
  rw [stretches_of_some h]
  rfl

end SurveyReport
