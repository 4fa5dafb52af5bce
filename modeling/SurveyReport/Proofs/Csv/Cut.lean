import SurveyReport.Csv.Cut
import SurveyReport.Csv.Record

/-!
# Cutting character by character

The records of a text are cut line by line, with a flag for an open quote. The same cuts are made by
one walk over the characters: behind every newline that an even number of quotes precedes.

Results:
* `gather_lines`: both ways of cutting agree.
* `pieces_eq_cons`: the first piece of a text, and the text behind it.
* `pieces_induction`: induction over the pieces of a text.
* `pieces_write`: a written table is cut into its rows.
-/

namespace SurveyReport.Csv

/-- The records of a text with all line ends they end with. -/
def pieces (text : List Char) : List (List Char) := gather [] false (lines text)

/-- Cuts a text behind each newline outside quotes. `held` is the beginning of the current piece, and
    `quoted` tells whether an odd number of quotes precedes. -/
def cutFrom (held : List Char) (quoted : Bool) : List Char → List (List Char)
  | [] => if held.isEmpty then [] else [held]
  | c :: rest =>
    if c = '\n' && !quoted then (held ++ [c]) :: cutFrom [] false rest
    else cutFrom (held ++ [c]) (quoted != (c == '"')) rest

theorem switches_cons (c : Char) (line : List Char) :
    switches (c :: line) = ((c == '"') != switches line) := by
  by_cases h : c = '"'
  · have hpar : line.count '"' % 2 = 0 ∨ line.count '"' % 2 = 1 := by omega
    rcases hpar with hp | hp <;> simp [switches, h, Nat.add_mod, hp]
  · simp [switches, h, beq_eq_false_iff_ne.mpr h]

theorem gather_lines (held : List Char) (quoted : Bool) (text : List Char) :
    gather held quoted (lines text) = cutFrom held quoted text := by
  induction text generalizing held quoted with
  | nil => rfl
  | cons c rest ih =>
    rw [lines, cutFrom]
    by_cases hc : c = '\n'
    · subst hc
      cases quoted <;> simp [gather, switches, ih]
    · have ih := ih (held ++ [c]) (quoted != (c == '"'))
      simp only [hc, if_false, decide_false, Bool.false_and, Bool.false_eq_true]
      rw [← ih]
      cases lines rest with
      | nil => cases hs : quoted != switches [c] <;> simp [gather, hs]
      | cons line others => simp [gather, switches_cons]

theorem pieces_eq_cutFrom (text : List Char) : pieces text = cutFrom [] false text :=
  gather_lines [] false text

/-! ## The first piece -/

/-- The first cut does not depend on what is held. -/
theorem exists_cutFrom_eq (quoted : Bool) {text : List Char} (h : text ≠ []) :
    ∃ u rest, text = u ++ rest ∧ u ≠ [] ∧ (rest = [] ∨ ∃ v, u = v ++ ['\n']) ∧
      ∀ held, cutFrom held quoted text = (held ++ u) :: pieces rest := by
  induction text generalizing quoted with
  | nil => exact absurd rfl h
  | cons c rest ih =>
    by_cases hc : (c = '\n' && !quoted) = true
    · have hn : c = '\n' := by simpa using (Bool.and_eq_true_iff.mp hc).1
      refine ⟨[c], rest, rfl, by simp, .inr ⟨[], by simp [hn]⟩, fun held => ?_⟩
      rw [cutFrom, if_pos hc, pieces_eq_cutFrom]
    · by_cases hr : rest = []
      · subst hr
        refine ⟨[c], [], rfl, by simp, .inl rfl, fun held => ?_⟩
        rw [cutFrom, if_neg hc]
        simp [cutFrom, pieces_eq_cutFrom]
      · obtain ⟨u, rest', hrest, hne, hend, hcut⟩ := ih (quoted != (c == '"')) hr
        refine ⟨c :: u, rest', by simp [hrest], by simp, ?_, fun held => ?_⟩
        · exact hend.imp id fun ⟨v, hv⟩ => ⟨c :: v, by simp [hv]⟩
        · rw [cutFrom, if_neg hc, hcut]
          simp

theorem pieces_nil : pieces [] = [] := rfl

/-- The first piece of a text ends with a newline, unless it is the last one. -/
theorem pieces_eq_cons {text : List Char} (h : text ≠ []) :
    ∃ piece rest, text = piece ++ rest ∧ piece ≠ [] ∧ (rest = [] ∨ ∃ v, piece = v ++ ['\n']) ∧
      pieces text = piece :: pieces rest := by
  obtain ⟨u, rest, htext, hne, hend, hcut⟩ := exists_cutFrom_eq false h
  exact ⟨u, rest, htext, hne, hend, by rw [pieces_eq_cutFrom, hcut, List.nil_append]⟩

/-- A character in front of a text, neither a newline nor a quote, goes into the first piece. -/
theorem pieces_cons_eq_cons {c : Char} (hn : c ≠ '\n') (hq : c ≠ '"') {text : List Char}
    (h : text ≠ []) :
    ∃ piece rest, text = piece ++ rest ∧ (rest = [] ∨ ∃ v, piece = v ++ ['\n']) ∧
      pieces text = piece :: pieces rest ∧ pieces (c :: text) = (c :: piece) :: pieces rest := by
  obtain ⟨u, rest, htext, -, hend, hcut⟩ := exists_cutFrom_eq false h
  refine ⟨u, rest, htext, hend, by rw [pieces_eq_cutFrom, hcut, List.nil_append], ?_⟩
  rw [pieces_eq_cutFrom, cutFrom]
  simp [hn, beq_eq_false_iff_ne.mpr hq, hcut]

/-- What holds of the empty text and of a piece in front of a text, if it does of that text, holds of
    every text. -/
theorem pieces_induction {motive : List Char → Prop} (nil : motive [])
    (cons : ∀ piece rest, piece ≠ [] → (rest = [] ∨ ∃ v, piece = v ++ ['\n']) →
      pieces (piece ++ rest) = piece :: pieces rest → motive rest → motive (piece ++ rest))
    (text : List Char) : motive text := by
  induction hn : text.length using Nat.strongRecOn generalizing text with
  | ind n ih =>
    by_cases h : text = []
    · rwa [h]
    · obtain ⟨piece, rest, rfl, hne, hend, hpieces⟩ := pieces_eq_cons h
      refine cons piece rest hne hend hpieces (ih rest.length ?_ rest rfl)
      have hpos := List.length_pos_iff.mpr hne
      rw [List.length_append] at hn
      omega

/-! ## Written tables -/

/-- Inside quotes no newline is cut, and the quotes of an escaped text come in pairs. -/
theorem cutFrom_escape (held s rest : List Char) :
    cutFrom held true (escape s ++ rest) = cutFrom (held ++ escape s) true rest := by
  induction s generalizing held with
  | nil => simp [escape]
  | cons c s ih =>
    rw [escape]
    split
    · simp [cutFrom, ih]
    · rename_i hc
      simp [cutFrom, beq_eq_false_iff_ne.mpr hc, ih]

theorem cutFrom_writeCell (held : List Char) (cell : String) (rest : List Char) :
    cutFrom held false (writeCell cell ++ rest) = cutFrom (held ++ writeCell cell) false rest := by
  simp [writeCell, cutFrom, cutFrom_escape]

theorem writeRow_cons_cons (cell next : String) (row : List String) :
    writeRow [] (cell :: next :: row) = writeCell cell ++ ',' :: writeRow [] (next :: row) := by
  simp [writeRow, List.intercalate]

theorem writeRow_eq_append (eol : List Char) (row : List String) :
    writeRow eol row = writeRow [] row ++ eol := by
  simp [writeRow]

theorem cutFrom_writeRow (held : List Char) (row : List String) (rest : List Char) :
    cutFrom held false (writeRow [] row ++ rest) = cutFrom (held ++ writeRow [] row) false rest := by
  induction row generalizing held with
  | nil => simp [writeRow]
  | cons cell row ih =>
    cases row with
    | nil => simpa [writeRow] using cutFrom_writeCell held cell rest
    | cons next row =>
      rw [writeRow_cons_cons, List.append_assoc, cutFrom_writeCell, List.cons_append, cutFrom]
      simp [ih]

/-- A written table is cut into its rows. -/
theorem pieces_write {eol : List Char} (heol : eol = ['\n'] ∨ eol = ['\r', '\n'])
    (rows : List (List String)) : pieces (write eol rows) = rows.map (writeRow eol) := by
  induction rows with
  | nil => rfl
  | cons row rows ih =>
    rw [pieces_eq_cutFrom] at ih ⊢
    rw [List.map_cons, ← ih, write, List.map_cons, List.flatten_cons, writeRow_eq_append,
      List.append_assoc, cutFrom_writeRow, List.nil_append]
    rcases heol with rfl | rfl <;> simp [cutFrom, write]

end SurveyReport.Csv
