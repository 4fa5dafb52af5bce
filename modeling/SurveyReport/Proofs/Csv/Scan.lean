import Mathlib.Tactic.SplitIfs
import SurveyReport.Csv.Record

/-!
# How far a scan reads

A scan goes from place to place, one character at a time, and stops at the first line end that is not
in quotes. Up to there it loses quotes and commas only.

Results:
* `exists_unbroken`: the stretch that is scanned, and the line end that stops the scan.
* `scan_append_break`: the scan hands on what stands behind that line end.
* `countP_scan_append`: every character that is no quote and no comma is in the cells.
* `scan_append_cases`: what becomes of the beginning of a text.
-/

namespace SurveyReport.Csv

variable {place : Place} {c : Char}

/-! ## One character -/

/-- The place behind a character. A line end outside quotes ends the record, and the next one
    opens. -/
def Place.next (place : Place) (c : Char) : Place :=
  if place = .quoted then if c = '"' then .quoteSeen else .quoted
  else if c = ',' || Text.isLineEnd c then .opening
  else if c = '"' && place ≠ .bare then .quoted
  else .bare

/-- What a character adds to the cells behind it. -/
def Place.add (place : Place) (c : Char) : Scanned → Scanned :=
  if place = .quoted then if c = '"' then id else .push c
  else if c = ',' then .newCell
  else if c = '"' && place = .opening then id
  else .push c

theorem scan_cons (h : Text.isLineEnd c → place = .quoted) (rest : List Char) :
    scan place (c :: rest) = place.add c (scan (place.next c) rest) := by
  cases place with
  | quoted => by_cases hc : c = '"' <;> simp [scan, Place.add, Place.next, hc]
  | opening | bare | quoteSeen =>
    have hend : Text.isLineEnd c = false := by simpa using h
    by_cases hq : c = '"'
    · subst hq; simp [scan, Place.add, Place.next, hend]
    · by_cases hc : c = ',' <;> simp [scan, Place.add, Place.next, hend, hq, hc]

theorem scan_cons_of_lineEnd (hc : Text.isLineEnd c) (h : place ≠ .quoted) (rest : List Char) :
    scan place (c :: rest) = ([[]], rest) := by
  have hcomma : c ≠ ',' := by rintro rfl; exact absurd hc (by decide)
  cases place <;> simp_all [scan]

theorem Place.add_snd (s : Scanned) : (place.add c s).2 = s.2 := by
  unfold Place.add
  split_ifs <;> simp [Scanned.newCell]

theorem Place.add_fst_congr {s t : Scanned} (h : s.1 = t.1) :
    (place.add c s).1 = (place.add c t).1 := by
  obtain ⟨cells, rest⟩ := s
  obtain ⟨_, rest'⟩ := t
  subst h
  unfold Place.add
  split_ifs <;> cases cells <;> rfl

theorem Scanned.flatten_push (s : Scanned) : (s.push c).1.flatten = c :: s.1.flatten := by
  obtain ⟨_ | ⟨cell, cells⟩, rest⟩ := s <;> rfl

theorem Place.countP_add {f : Char → Bool} (hquote : f '"' = false) (hcomma : f ',' = false)
    (s : Scanned) :
    (place.add c s).1.flatten.countP f = [c].countP f + s.1.flatten.countP f := by
  unfold Place.add
  split_ifs with h₁ h₂ h₃ h₄ <;>
    simp_all [Scanned.flatten_push, Scanned.newCell, List.countP_cons, Nat.add_comm]

/-! ## A stretch of text -/

/-- The place behind a stretch of text. -/
def Place.after (place : Place) (s : List Char) : Place := s.foldl Place.next place

theorem Place.after_append (place : Place) (s t : List Char) :
    place.after (s ++ t) = (place.after s).after t := List.foldl_append

/-- All line ends of the stretch stand in quotes. -/
def Unbroken (place : Place) : List Char → Prop
  | [] => True
  | c :: rest => (Text.isLineEnd c → place = .quoted) ∧ Unbroken (place.next c) rest

theorem unbroken_append {s t : List Char} :
    Unbroken place (s ++ t) ↔ Unbroken place s ∧ Unbroken (place.after s) t := by
  induction s generalizing place with
  | nil => simp [Unbroken, Place.after]
  | cons c s ih => simp [Unbroken, Place.after, ih, and_assoc]

theorem unbroken_iff {s : List Char} :
    Unbroken place s ↔ ∀ before c behind, s = before ++ c :: behind → Text.isLineEnd c →
      place.after before = .quoted := by
  constructor
  · rintro h before c behind rfl hc
    exact (unbroken_append.mp h).2.1 hc
  · intro h
    induction s generalizing place with
    | nil => trivial
    | cons c s ih =>
      refine ⟨h [] c s rfl, ih ?_⟩
      rintro before d behind rfl hd
      exact h (c :: before) d behind rfl hd

/-- A text is unbroken up to the line end that stops its scan. -/
theorem exists_unbroken (place : Place) (s : List Char) :
    ∃ e v, s = e ++ v ∧ Unbroken place e ∧
      (v = [] ∨ ∃ c behind, v = c :: behind ∧ Text.isLineEnd c ∧ place.after e ≠ .quoted) := by
  induction s generalizing place with
  | nil => exact ⟨[], [], rfl, trivial, .inl rfl⟩
  | cons c s ih =>
    by_cases hc : Text.isLineEnd c → place = .quoted
    · obtain ⟨e, v, rfl, he, hv⟩ := ih (place.next c)
      exact ⟨c :: e, v, rfl, ⟨hc, he⟩, hv⟩
    · obtain ⟨hend, hplace⟩ := Classical.not_imp.mp hc
      exact ⟨[], c :: s, rfl, trivial, .inr ⟨c, s, rfl, hend, hplace⟩⟩

/-- A line end outside quotes stops the scan, which hands on what stands behind it. -/
theorem scan_append_break {e : List Char} (he : Unbroken place e) (hc : Text.isLineEnd c)
    (h : place.after e ≠ .quoted) (rest : List Char) :
    scan place (e ++ c :: rest) = ((scan place e).1, rest) := by
  induction e generalizing place with
  | nil => exact scan_cons_of_lineEnd hc h rest
  | cons d e ih =>
    have hrest := ih he.2 h
    rw [List.cons_append, scan_cons he.1, scan_cons he.1, hrest]
    refine Prod.ext ?_ ?_
    · exact Place.add_fst_congr rfl
    · rw [Place.add_snd]

theorem scan_snd_of_unbroken {s : List Char} (h : Unbroken place s) : (scan place s).2 = [] := by
  induction s generalizing place with
  | nil => rfl
  | cons c s ih => rw [scan_cons h.1, Place.add_snd, ih h.2]

/-! ## What a scan keeps -/

section Kept

variable {f : Char → Bool} (hquote : f '"' = false) (hcomma : f ',' = false)

include hquote hcomma

/-- Characters in an unbroken stretch go into the cells, quotes and commas apart. -/
theorem countP_scan_append {e : List Char} (he : Unbroken place e) (rest : List Char) :
    (scan place (e ++ rest)).1.flatten.countP f =
      e.countP f + (scan (place.after e) rest).1.flatten.countP f := by
  induction e generalizing place with
  | nil => simp [Place.after]
  | cons c e ih =>
    rw [List.cons_append, scan_cons he.1, Place.countP_add hquote hcomma, ih he.2,
      List.countP_cons, List.countP_cons]
    simp only [List.countP_nil, Place.after, List.foldl_cons]
    omega

theorem countP_scan {e : List Char} (he : Unbroken place e) :
    (scan place e).1.flatten.countP f = e.countP f := by
  have h := countP_scan_append hquote hcomma he []
  rw [List.append_nil] at h
  rw [h, scan]
  rfl

/-- A scan makes up no characters. -/
theorem countP_scan_le (place : Place) (s : List Char) :
    (scan place s).1.flatten.countP f ≤ s.countP f := by
  obtain ⟨e, v, rfl, he, hv⟩ := exists_unbroken place s
  rcases hv with rfl | ⟨c, behind, rfl, hc, hplace⟩
  · rw [List.append_nil]
    exact Nat.le_of_eq (countP_scan hquote hcomma he)
  · rw [scan_append_break he hc hplace, countP_scan hquote hcomma he, List.countP_append]
    exact Nat.le_add_right _ _

end Kept

/-- The beginning of a text is scanned up to a line end that stops the scan, if there is one. -/
theorem scan_append_cases (place : Place) (q rest : List Char) :
    ∃ e v, q = e ++ v ∧ Unbroken place e ∧
      (∀ f : Char → Bool, f '"' = false → f ',' = false →
        e.countP f ≤ (scan place (q ++ rest)).1.flatten.countP f) ∧
      (v = [] ∨ ∃ c behind, v = c :: behind ∧ Text.isLineEnd c ∧ place.after e ≠ .quoted ∧
        (scan place (q ++ rest)).2 = behind ++ rest) := by
  obtain ⟨e, v, rfl, he, hv⟩ := exists_unbroken place q
  refine ⟨e, v, rfl, he, ?_, hv.imp id ?_⟩
  · intro f hquote hcomma
    rw [List.append_assoc, countP_scan_append hquote hcomma he]
    omega
  · rintro ⟨c, behind, rfl, hc, hplace⟩
    refine ⟨c, behind, rfl, hc, hplace, ?_⟩
    rw [List.append_assoc, List.cons_append, scan_append_break he hc hplace]

end SurveyReport.Csv
