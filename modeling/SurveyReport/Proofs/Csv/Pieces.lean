import Mathlib.Data.List.Forall2
import SurveyReport.Proofs.Csv.Cut
import SurveyReport.Proofs.Csv.Offsets
import SurveyReport.Proofs.Text.Trim

/-!
# Where a text is cut

Where the records of a text end can be told from the whole text at once: at every newline that an even
number of quotes precedes. The records are the stretches between these cuts, without the line ends that
they end with.

Results:
* `cutFrom_eq`: the walk over the characters makes these cuts, as its flag tells whether an odd number of
  quotes precedes.
* `records_append`: on both sides of a cut the records are those of that side.
* `records_cutBehind`: the records of a text.
-/

namespace SurveyReport.Csv

open Text

variable {text : List Char}

/-! ## Cuts -/

/-- The character at an index is a newline, and the quotes before it are even in number. -/
def EndsPiece (text : List Char) (index : Nat) : Prop :=
  text[index]? = some '\n' ∧ (text.take index).count '"' % 2 = 0

instance : DecidablePred (EndsPiece text) := fun _ => inferInstanceAs (Decidable (_ ∧ _))

/-- The positions right behind these newlines, in order. -/
def cuts (text : List Char) : List Nat :=
  ((List.range text.length).filter (EndsPiece text ·)).map (· + 1)

/-- The stretches of a text from one position to the next, and what stands behind the last one, unless
    it is empty. -/
def cutBehind (text : List Char) (start : Nat) : List Nat → List (List Char)
  | [] => if text.length ≤ start then [] else [text.drop start]
  | stop :: stops => (text.drop start).take (stop - start) :: cutBehind text stop stops

theorem mem_cuts {position : Nat} :
    position ∈ cuts text ↔ ∃ index, EndsPiece text index ∧ position = index + 1 := by
  simp only [cuts, List.mem_map, List.mem_filter, List.mem_range, decide_eq_true_eq]
  constructor
  · rintro ⟨index, ⟨-, hends⟩, rfl⟩
    exact ⟨index, hends, rfl⟩
  · rintro ⟨index, hends, rfl⟩
    exact ⟨index, ⟨(List.getElem?_eq_some_iff.mp hends.1).1, hends⟩, rfl⟩

/-! ## The walk over the characters -/

theorem switches_append (s t : List Char) : switches (s ++ t) = (switches s != switches t) := by
  induction s with
  | nil => simp [switches]
  | cons c s ih => rw [List.cons_append, switches_cons, switches_cons, ih, Bool.bne_assoc]

theorem switches_eq_false_iff {s : List Char} : switches s = false ↔ s.count '"' % 2 = 0 := by
  rw [switches, beq_eq_false_iff_ne]
  omega

/-- A text is cut behind the next character exactly if it is a newline and no quoted cell is open. -/
theorem endsPiece_length (done : List Char) (c : Char) (rest : List Char) :
    EndsPiece (done ++ c :: rest) done.length ↔ c = '\n' ∧ switches done = false := by
  rw [EndsPiece, List.getElem?_append_right (Nat.le_refl _), Nat.sub_self, List.getElem?_cons_zero,
    Option.some.injEq, List.take_left, switches_eq_false_iff]

/-- The cuts of a text that stand in its second part. -/
def cutsBehind (done rest : List Char) : List Nat :=
  ((List.range' done.length rest.length).filter (EndsPiece (done ++ rest) ·)).map (· + 1)

theorem cuts_eq_cutsBehind (text : List Char) : cuts text = cutsBehind [] text := by
  rw [cuts, List.range_eq_range']
  rfl

theorem cutsBehind_cons (done : List Char) (c : Char) (rest : List Char) :
    cutsBehind done (c :: rest) =
      if c = '\n' ∧ switches done = false then (done.length + 1) :: cutsBehind (done ++ [c]) rest
      else cutsBehind (done ++ [c]) rest := by
  have htext : done ++ c :: rest = done ++ [c] ++ rest := by simp
  have hrest : cutsBehind (done ++ [c]) rest =
      ((List.range' (done.length + 1) rest.length).filter
        (EndsPiece (done ++ c :: rest) ·)).map (· + 1) := by
    rw [cutsBehind, ← htext, List.length_append, List.length_singleton]
  have hends := endsPiece_length done c rest
  rw [cutsBehind, List.length_cons, List.range'_succ, hrest]
  split
  · rename_i hcut
    rw [List.filter_cons_of_pos (by simpa using hends.mpr hcut), List.map_cons]
  · rename_i hcut
    rw [List.filter_cons_of_neg (by simpa using mt hends.mp hcut)]

/-- The walk holds what stands behind the last cut, and its flag tells whether the quotes up to here are
    odd in number. -/
theorem cutFrom_eq (done rest : List Char) {start : Nat} (hstart : start ≤ done.length) :
    cutFrom (done.drop start) (switches done) rest =
      cutBehind (done ++ rest) start (cutsBehind done rest) := by
  induction rest generalizing done start with
  | nil => simp [cutFrom, cutsBehind, cutBehind]
  | cons c rest ih =>
    have htext : done ++ c :: rest = done ++ [c] ++ rest := by simp
    have hlength : (done ++ [c]).length = done.length + 1 := by simp
    have hheld : done.drop start ++ [c] = (done ++ [c]).drop start := by
      rw [List.drop_append_of_le_length hstart]
    rw [cutFrom, cutsBehind_cons, hheld, htext]
    by_cases hcut : c = '\n' ∧ switches done = false
    · obtain ⟨rfl, heven⟩ := hcut
      -- nothing is held behind the cut, and no quote is open there
      have hrest := ih (done ++ ['\n']) (Nat.le_refl _)
      have hclosed : switches (done ++ ['\n']) = false := by
        rw [switches_append, heven]
        rfl
      rw [List.drop_length, hclosed] at hrest
      rw [if_pos (by simp [heven]), if_pos ⟨rfl, heven⟩, cutBehind, ← hlength, ← List.drop_take,
        List.take_left, hrest]
    · have hwalk : ¬ (c = '\n' && !switches done) = true := by simpa using hcut
      have hflag : (switches done != (c == '"')) = switches (done ++ [c]) := by
        rw [switches_append, switches_cons]
        simp [switches]
      rw [if_neg hwalk, if_neg hcut, hflag]
      exact ih (done ++ [c]) (Nat.le_trans hstart (by omega))

/-- The pieces of a text are the stretches between its cuts. -/
theorem pieces_eq_cutBehind (text : List Char) : pieces text = cutBehind text 0 (cuts text) := by
  rw [pieces_eq_cutFrom, cuts_eq_cutsBehind]
  exact cutFrom_eq [] text (Nat.le_refl 0)

/-! ## Both sides of a cut -/

theorem cutFrom_append_newline {quoted : Bool} {s : List Char} (h : (quoted != switches s) = false)
    (held rest : List Char) :
    cutFrom held quoted (s ++ '\n' :: rest) = cutFrom held quoted (s ++ ['\n']) ++ pieces rest := by
  induction s generalizing held quoted with
  | nil =>
    obtain rfl : quoted = false := by simpa [switches] using h
    simp [cutFrom, pieces_eq_cutFrom]
  | cons c s ih =>
    rw [switches_cons, ← Bool.bne_assoc] at h
    rw [List.cons_append, List.cons_append, cutFrom, cutFrom]
    split
    · rename_i hc
      obtain ⟨rfl, rfl⟩ : c = '\n' ∧ quoted = false := by simpa using hc
      have hclosed : (false != switches s) = false := h
      rw [ih hclosed, List.cons_append]
    · exact ih h _

theorem records_eq_map (text : List Char) : records text = (pieces text).map (trimEnd isLineEnd) := rfl

theorem records_append_newline {s : List Char} (h : switches s = false) (rest : List Char) :
    records (s ++ '\n' :: rest) = records (s ++ ['\n']) ++ records rest := by
  have hclosed : (false != switches s) = false := by rw [h]; rfl
  have hcut := cutFrom_append_newline hclosed [] rest
  rw [← pieces_eq_cutFrom, ← pieces_eq_cutFrom] at hcut
  rw [records_eq_map, records_eq_map, records_eq_map, hcut, List.map_append]

/-- On both sides of a cut the records are those of that side. -/
theorem records_append {before rest : List Char}
    (h : before = [] ∨ before.length ∈ cuts (before ++ rest)) :
    records (before ++ rest) = records before ++ records rest := by
  rcases h with rfl | h
  · rfl
  · obtain ⟨index, hends, hlength⟩ := mem_cuts.mp h
    obtain ⟨s, c, rfl⟩ : ∃ s c, before = s ++ [c] := by
      refine ⟨before.dropLast, before.getLast ?_, (List.dropLast_concat_getLast _).symm⟩
      rintro rfl
      cases hlength
    obtain rfl : index = s.length := by simpa using hlength.symm
    rw [List.append_assoc, List.singleton_append, endsPiece_length] at hends
    obtain ⟨rfl, heven⟩ := hends
    rw [List.append_assoc, List.singleton_append, records_append_newline heven]

/-- A line without quotes is one piece. -/
theorem cutFrom_line {line : List Char} (h : ∀ c ∈ line, c ≠ '\n' ∧ c ≠ '"') (held : List Char) :
    cutFrom held false (line ++ ['\n']) = [held ++ (line ++ ['\n'])] := by
  induction line generalizing held with
  | nil => simp [cutFrom]
  | cons c line ih =>
    obtain ⟨hnewline, hquote⟩ := h c List.mem_cons_self
    rw [List.cons_append, cutFrom, if_neg (by simp [hnewline]), beq_false_of_ne hquote]
    simp [ih fun d hd => h d (List.mem_cons_of_mem _ hd)]

/-- A blank line outside quotes is a blank record. -/
theorem records_blank {run : List Char} (h : ∀ c ∈ run, c = '\r') (rest : List Char) :
    records (run ++ '\n' :: rest) = [] :: records rest := by
  have hplain : ∀ c ∈ run, c ≠ '\n' ∧ c ≠ '"' := by
    intro c hc
    rw [h c hc]
    decide
  have hquotes : switches run = false := by
    rw [switches_eq_false_iff, List.count_eq_zero.mpr fun hmem => (hplain _ hmem).2 rfl]
  have hends : trimEnd isLineEnd (run ++ ['\n']) = [] := by
    rw [trimEnd_concat_of_pos rfl, trimEnd_eq_nil_iff]
    intro c hc
    rw [h c hc]
    rfl
  rw [records_append_newline hquotes, records_eq_map, pieces_eq_cutFrom, cutFrom_line hplain,
    List.map_singleton, List.nil_append, hends, List.singleton_append]

/-! ## Records -/

/-- The piece is the record with a run of line ends behind it, and the record does not end with one. -/
def IsRecordOf (record piece : List Char) : Prop :=
  ∃ tail, piece = record ++ tail ∧ (∀ c ∈ tail, c = '\r' ∨ c = '\n') ∧
    ∀ c, record.getLast? = some c → c ≠ '\r' ∧ c ≠ '\n'

theorem isRecordOf_trimEnd (piece : List Char) : IsRecordOf (trimEnd isLineEnd piece) piece := by
  obtain ⟨tail, hpiece, htail⟩ := exists_trimEnd isLineEnd piece
  refine ⟨tail, hpiece, fun c hc => by simpa [isLineEnd] using htail c hc, fun c hc => ?_⟩
  have hlast := not_of_getLast?_trimEnd hc
  simpa [isLineEnd] using hlast

/-- **The records of a text.** The stretches between the cuts make up the text. The records are these
    stretches in order, each without the run of line ends behind it and with nothing else missing. A
    blank line outside quotes is a blank record between the records before and behind it. And the same
    records are found by offsets into the bytes of the text, whatever its characters are. -/
theorem records_cutBehind (text : List Char) :
    (cutBehind text 0 (cuts text)).flatten = text ∧
      List.Forall₂ IsRecordOf (records text) (cutBehind text 0 (cuts text)) ∧
      (∀ before run after, text = before ++ (run ++ '\n' :: after) →
        before = [] ∨ before.length ∈ cuts text → (∀ c ∈ run, c = '\r') →
        records text = records before ++ [] :: records after) ∧
      recordsInBytes? (.ofList text) = some ((records text).map .ofList) := by
  rw [← pieces_eq_cutBehind]
  refine ⟨?_, ?_, ?_, ?_⟩
  · rw [pieces, flatten_gather, flatten_lines, List.nil_append]
  · rw [records_eq_map, List.forall₂_map_left_iff, List.forall₂_same]
    exact fun piece _ => isRecordOf_trimEnd piece
  · rintro before run after rfl hcut hrun
    rw [records_append hcut, records_blank hrun]
  · rw [recordsInBytes?_eq, String.toList_ofList]

/-- Of three blank lines the one outside quotes is a record. -/
theorem records_cutBehind_blank_line :
    let text := "Tea,\"1\n\n\n2\"\r\n\r\nü\n".toList
    cuts text = [13, 15, 17] ∧
      records text = ["Tea,\"1\n\n\n2\"".toList, [], "ü".toList] ∧
      recordsInBytes? (.ofList text) = some ["Tea,\"1\n\n\n2\"", "", "ü"] := by
  intro text
  obtain ⟨-, -, hblank, hbytes⟩ := records_cutBehind text
  have hcuts : cuts text = [13, 15, 17] := by decide
  have hrecords : records text = ["Tea,\"1\n\n\n2\"".toList, [], "ü".toList] :=
    hblank "Tea,\"1\n\n\n2\"\r\n".toList ['\r'] "ü\n".toList rfl (.inr (by decide)) (by simp)
  refine ⟨hcuts, hrecords, hbytes.trans ?_⟩
  rw [hrecords]
  rfl

end SurveyReport.Csv
