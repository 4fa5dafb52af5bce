import SurveyReport.Template

/-!
# Templates in bytes

A template can be kept as one text with offsets into its bytes: how far it is searched, and where the
marker that waits begins and ends. A text can only be cut between two of its characters, so that every
step of such a template may come to nothing. It never does: the offsets of a template always stand
between characters, and step by step both forms do the same.

Results:
* `cutAtByte?_eq_some_iff`: where a text can be cut, and what the parts are.
* `onBorders_inBytes`: the offsets of a template stand between characters.
* `next?_inBytes`, `replace?_inBytes`: the steps of both forms.
-/

namespace SurveyReport

/-! ## Sizes in bytes -/

namespace Text

/-- How many bytes characters take. -/
def byteSize (s : List Char) : Nat := (String.ofList s).utf8ByteSize

@[simp] theorem byteSize_append (s t : List Char) : byteSize (s ++ t) = byteSize s + byteSize t := by
  simp [byteSize, String.ofList_append, String.utf8ByteSize_append]

theorem byteSize_toList (s : String) : byteSize s.toList = s.utf8ByteSize := by
  rw [byteSize, String.ofList_toList]

/-- A text cut at an offset in its bytes, if no character stands across the offset. -/
def cutAtByte? (s : String) (offset : Nat) : Option (String × String) :=
  if h : (String.Pos.Raw.mk offset).IsValid s then
    let border := s.pos ⟨offset⟩ h
    some ((s.sliceTo border).copy, (s.sliceFrom border).copy)
  else none

/-- A text can be cut where some first characters of it end. -/
theorem cutAtByte?_eq_some_iff {s front back : String} {offset : Nat} :
    cutAtByte? s offset = some (front, back) ↔ s = front ++ back ∧ offset = front.utf8ByteSize := by
  unfold cutAtByte?
  split
  · rename_i h
    have hsplits := (s.pos ⟨offset⟩ h).splits
    constructor
    · intro heq
      obtain ⟨rfl, rfl⟩ := Prod.mk.inj (Option.some.inj heq)
      exact ⟨hsplits.eq_append, congrArg String.Pos.Raw.byteIdx hsplits.offset_eq_rawEndPos⟩
    · rintro ⟨hs, hoffset⟩
      have hparts : (s.pos ⟨offset⟩ h).Splits front back := ⟨hs, String.Pos.Raw.ext hoffset⟩
      show some (_, _) = _
      rw [hsplits.eq_left hparts, hsplits.eq_right hparts]
  · rename_i h
    constructor
    · intro heq
      cases heq
    · rintro ⟨hs, hoffset⟩
      have hvalid := String.Pos.Raw.isValid_iff_exists_append.mpr
        ⟨front, back, hs, String.Pos.Raw.ext hoffset⟩
      exact absurd hvalid h

/-- Characters with others before them begin where those end. -/
theorem cutAtByte?_ofList (s t : List Char) :
    cutAtByte? (.ofList (s ++ t)) (byteSize s) = some (.ofList s, .ofList t) :=
  cutAtByte?_eq_some_iff.mpr ⟨String.ofList_append, rfl⟩

theorem isValid_byteSize (s t : List Char) :
    (String.Pos.Raw.mk (byteSize s)).IsValid (.ofList (s ++ t)) :=
  String.Pos.Raw.isValid_iff_exists_append.mpr ⟨.ofList s, .ofList t, String.ofList_append, rfl⟩

/-- A text with other bytes in the place of those between two offsets. -/
def replaceRange? (s : String) (start stop : Nat) (text : String) : Option String := do
  let (front, _) ← cutAtByte? s start
  let (_, back) ← cutAtByte? s stop
  if start ≤ stop then some (front ++ text ++ back) else none

theorem replaceRange?_ofList (s m t : List Char) (text : String) :
    replaceRange? (.ofList (s ++ m ++ t)) (byteSize s) (byteSize s + byteSize m) text =
      some (.ofList (s ++ text.toList ++ t)) := by
  have hstart := cutAtByte?_ofList s (m ++ t)
  have hstop := cutAtByte?_ofList (s ++ m) t
  rw [← List.append_assoc] at hstart
  rw [byteSize_append] at hstop
  rw [replaceRange?, hstart, hstop]
  simp [String.ofList_append, String.append_assoc]

end Text

/-! ## The form in bytes -/

namespace Template

/-- A template as one text. The search goes on at the cursor; the span of the waiting marker, if there
    is one, begins and ends at two offsets. -/
structure InBytes where
  text : String
  cursor : Nat
  span : Option (Nat × Nat)
  deriving DecidableEq, Repr

namespace InBytes

/-- A text of which nothing is searched yet. -/
def ofText (text : String) : InBytes := ⟨text, 0, none⟩

/-- Hands out the next marker, if the text can be cut at the cursor. -/
def next? (b : InBytes) : Option (Option String × InBytes) := do
  let (_, remaining) ← Text.cutAtByte? b.text b.cursor
  match firstMarker? remaining.toList with
  | none => some (none, { b with span := none })
  | some m =>
    let start := b.cursor + Text.byteSize m.before
    let stop := start + Text.byteSize m.marker
    some (some (.ofList m.marker), ⟨b.text, stop, some (start, stop)⟩)

/-- Puts a text into the place of the waiting marker, if the text can be cut around it. -/
def replace? (b : InBytes) (text : String) : Option (Except Fault InBytes) :=
  match b.span with
  | none => some (.error .nothingPending)
  | some (start, stop) => do
    let replaced ← Text.replaceRange? b.text start stop text
    some (.ok ⟨replaced, start + text.utf8ByteSize, none⟩)

/-- The cursor stands between two characters of the text, and so do the two ends of the span. -/
structure OnBorders (b : InBytes) : Prop where
  cursor : (String.Pos.Raw.mk b.cursor).IsValid b.text
  span : ∀ start stop, b.span = some (start, stop) → start ≤ stop ∧ stop ≤ b.cursor ∧
    (String.Pos.Raw.mk start).IsValid b.text ∧ (String.Pos.Raw.mk stop).IsValid b.text

end InBytes

/-- The form in bytes of a template. -/
def inBytes (t : Template) : InBytes where
  text := t.text
  cursor := Text.byteSize t.passed
  span := t.pending.map fun m => (Text.byteSize t.settled, Text.byteSize t.settled + Text.byteSize m)

theorem inBytes_ofText (text : String) : (ofText text).inBytes = .ofText text := by
  simp [inBytes, ofText, InBytes.ofText, Template.text, passed, Text.byteSize]

theorem passed_of_pending {t : Template} {m : List Char} (h : t.pending = some m) :
    t.passed = t.settled ++ m := by
  rw [passed, h]
  rfl

/-- The offsets of a template stand between its characters. -/
theorem onBorders_inBytes (t : Template) : t.inBytes.OnBorders where
  cursor := Text.isValid_byteSize t.passed t.rest
  span := by
    intro start stop hspan
    obtain ⟨m, hm, heq⟩ := Option.map_eq_some_iff.mp hspan
    obtain ⟨rfl, rfl⟩ := Prod.mk.inj heq
    have hstart := Text.isValid_byteSize t.settled (m ++ t.rest)
    have hstop := Text.isValid_byteSize (t.settled ++ m) t.rest
    rw [Text.byteSize_append] at hstop
    rw [← List.append_assoc] at hstart
    rw [inBytes, Template.text, passed_of_pending hm, Text.byteSize_append]
    exact ⟨Nat.le_add_right _ _, Nat.le_refl _, hstart, hstop⟩

/-- What stands behind the cursor is what is still to be searched. -/
theorem cutAtByte?_cursor (t : Template) :
    Text.cutAtByte? t.inBytes.text t.inBytes.cursor = some (.ofList t.passed, .ofList t.rest) :=
  Text.cutAtByte?_ofList t.passed t.rest

/-! ## Steps -/

/-- Handing out a marker never fails, and is the same in bytes. -/
theorem next?_inBytes (t : Template) : t.inBytes.next? = some (t.next.1, t.next.2.inBytes) := by
  have htext := t.text_next
  rw [InBytes.next?, cutAtByte?_cursor]
  simp only [Option.bind_eq_bind, Option.bind_some, String.toList_ofList]
  unfold next at htext ⊢
  cases hm : firstMarker? t.rest with
  | none => simp [inBytes, Template.text, passed]
  | some m =>
    rw [hm] at htext
    simp only [inBytes] at htext ⊢
    rw [htext]
    simp [passed, Nat.add_assoc]

/-- Replacing never meets a border that is none, and is the same in bytes. -/
theorem replace?_inBytes (t : Template) (text : String) :
    t.inBytes.replace? text = some ((t.replace text).map inBytes) := by
  cases hm : t.pending with
  | none => simp [InBytes.replace?, inBytes, replace, hm, Except.map]
  | some m =>
    have hspan : t.inBytes.span =
        some (Text.byteSize t.settled, Text.byteSize t.settled + Text.byteSize m) := by
      rw [inBytes, hm]
      rfl
    have hrange := Text.replaceRange?_ofList t.settled m t.rest text
    rw [← passed_of_pending hm] at hrange
    have htext : t.inBytes.text = .ofList (t.passed ++ t.rest) := rfl
    rw [InBytes.replace?, hspan, htext]
    simp only [Option.bind_eq_bind, hrange, Option.bind_some, replace, hm, Except.map]
    simp [inBytes, Template.text, passed, Text.byteSize_toList]

end Template

end SurveyReport
