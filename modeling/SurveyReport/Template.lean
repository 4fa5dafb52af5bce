import SurveyReport.Failure
import SurveyReport.Text.Blank

/-!
# Templates

A template is a text with markers in it: a directive between three opening and three closing braces.
Its markers are handed out from front to back, and each may be replaced until the next one is asked
for. What was put in is never searched for markers.

Results:
* `eq_of_firstMarker?`: finding a marker loses nothing of the text.
* `length_behind_lt`: a marker takes six characters at least.
* `text_replace`, `text_next`: how the text changes, and that handing out changes nothing.
* `replace_eq_error_iff`: replacing fails exactly when no marker waits.
-/

namespace SurveyReport

/-! ## Markers -/

def openMarker : List Char := ['\x7b', '\x7b', '\x7b']

def closeMarker : List Char := ['\x7d', '\x7d', '\x7d']

/-- A text at its first marker: what stands before it, the marker with its braces, and the rest. -/
structure Marked where
  before : List Char
  marker : List Char
  behind : List Char
  deriving DecidableEq, Repr

/-- The first marker of a text. It goes from the first opening to the first closing behind it. -/
def firstMarker? (s : List Char) : Option Marked := do
  let (before, opened) ← Text.cutAt openMarker s
  let (inside, behind) ← Text.cutAt closeMarker opened
  return ⟨before, openMarker ++ inside ++ closeMarker, behind⟩

theorem exists_of_firstMarker? {s : List Char} {m : Marked} (h : firstMarker? s = some m) :
    ∃ inside, m.marker = openMarker ++ inside ++ closeMarker ∧
      s = m.before ++ m.marker ++ m.behind := by
  simp only [firstMarker?, Option.bind_eq_bind, Option.bind_eq_some_iff, Prod.exists,
    Option.pure_def, Option.some.injEq] at h
  obtain ⟨before, opened, ho, inside, behind, hc, rfl⟩ := h
  exact ⟨inside, rfl, by simp [Text.eq_of_cutAt ho, Text.eq_of_cutAt hc]⟩

theorem eq_of_firstMarker? {s : List Char} {m : Marked} (h : firstMarker? s = some m) :
    s = m.before ++ m.marker ++ m.behind := by
  obtain ⟨_, _, hs⟩ := exists_of_firstMarker? h
  exact hs

theorem length_behind_lt {s : List Char} {m : Marked} (h : firstMarker? s = some m) :
    m.behind.length + 6 ≤ s.length := by
  obtain ⟨inside, hm, hs⟩ := exists_of_firstMarker? h
  rw [hs, hm]
  simp only [openMarker, closeMarker, List.length_append, List.length_cons, List.length_nil]
  omega

/-- A stretch of a text: plain, or a marker. -/
inductive Stretch where
  | plain (text : List Char)
  | marker (text : List Char)
  deriving DecidableEq, Repr

/-- The whole text, cut at its markers. -/
def stretches (s : List Char) : List Stretch :=
  match h : firstMarker? s with
  | none => [.plain s]
  | some m =>
    have := length_behind_lt h
    .plain m.before :: .marker m.marker :: stretches m.behind
termination_by s.length

/-! ## Templates at work -/

/-- A template whose markers are being replaced: what is done with, the marker that was handed out
    and waits, and what is still to be searched. -/
structure Template where
  settled : List Char
  pending : Option (List Char)
  rest : List Char
  deriving DecidableEq, Repr

namespace Template

/-- A template of which nothing is searched yet. -/
def ofText (text : String) : Template := ⟨[], none, text.toList⟩

/-- What is done with when the waiting marker stays as it is. -/
def passed (t : Template) : List Char := t.settled ++ t.pending.getD []

/-- The text as it stands now. -/
def text (t : Template) : String := .ofList (t.passed ++ t.rest)

/-- Hands out the next marker. -/
def next (t : Template) : Option String × Template :=
  match firstMarker? t.rest with
  | none => (none, ⟨t.passed, none, t.rest⟩)
  | some m => (some (.ofList m.marker), ⟨t.passed ++ m.before, some m.marker, m.behind⟩)

/-- Puts a text into the place of the waiting marker. -/
def replace (t : Template) (text : String) : Except Fault Template :=
  match t.pending with
  | none => .error .nothingPending
  | some _ => .ok ⟨t.settled ++ text.toList, none, t.rest⟩

/-- The reference to a picture with a title. -/
def imageReference (path title : String) : String := s!"![{title}]({path})"

/-- Puts a picture into the place of the waiting marker. -/
def replaceWithImage (t : Template) (path title : String) : Except Fault Template :=
  t.replace (imageReference path title)

theorem text_next (t : Template) : t.next.2.text = t.text := by
  unfold next
  split
  · simp [text, passed]
  · rename_i m h
    have := eq_of_firstMarker? h
    simp [text, passed, this]

theorem text_replace {t u : Template} {s : String} (h : t.replace s = .ok u) :
    u.text = .ofList (t.settled ++ s.toList ++ t.rest) := by
  unfold replace at h
  split at h
  · contradiction
  · obtain rfl := by simpa using h
    simp [text, passed]

theorem replace_eq_error_iff (t : Template) (s : String) :
    t.replace s = .error .nothingPending ↔ t.pending = none := by
  unfold replace
  split <;> simp_all

end Template

end SurveyReport
