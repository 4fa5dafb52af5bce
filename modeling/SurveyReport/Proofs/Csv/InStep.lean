import SurveyReport.Proofs.Csv.Cut
import SurveyReport.Proofs.Csv.Read
import SurveyReport.Proofs.Table.Export

/-!
# When pieces are records

A text is cut into pieces where the quotes before a newline are even in number, and one record is
taken from each piece. Reading the text from front to back finds the same records exactly if every
piece is one record. Once the reader has got ahead of the cuts, or stays behind them, it never finds
the records of the pieces again.

Results:
* `readOn_append_ne`: text left over from a piece is not caught up with.
* `readOn_append_eq_iff`: one piece and the text behind it.
* `readOn_eq_iff`: a whole text.
* `tokenised_eq_readAll_iff`: the condition on a text.
* `ofCsv_rows_inStep`: the rows of an import, and when they are the records of the text.
-/

namespace SurveyReport

namespace Csv

open Text

variable {piece rest : List Char}

/-! ## The conditions -/

/-- The text ends with a line end. -/
def EndsLine (s : List Char) : Prop := ∃ c, s.getLast? = some c ∧ isLineEnd c

/-- The piece is one record at most. Without the line ends around it, it has line ends in quotes
    only, and the line ends behind it are outside quotes. -/
structure InOneRecord (piece : List Char) : Prop where
  inQuotes : ∀ before c behind, trim isLineEnd piece = before ++ c :: behind → isLineEnd c →
    Place.after .opening before = .quoted
  closed : EndsLine piece → Place.after .opening (trim isLineEnd piece) ≠ .quoted

/-- The text is cut where its records end, and no piece but the first begins with a byte order
    mark. -/
structure InStep (text : List Char) : Prop where
  inOneRecord : ∀ piece ∈ pieces (dropByteOrderMark text), InOneRecord piece
  unmarked : ∀ piece ∈ (pieces (dropByteOrderMark text)).tail, piece.head? ≠ some '\uFEFF'

/-- The rows that an import reads: the cells of each record, blank records left out. -/
def tokenised (text : List Char) : List (List String) :=
  ((records text).map cells).filter (· ≠ [])

/-- The row that an import reads from a piece, if there is one. -/
def taken (piece : List Char) : List (List String) := (readAll (trimEnd isLineEnd piece)).take 1

/-! ## Line ends -/

theorem endsLine_append {s : List Char} (h : s ≠ []) (t : List Char) :
    EndsLine (t ++ s) ↔ EndsLine s := by
  rw [EndsLine, EndsLine, List.getLast?_append_of_ne_nil t h]

/-- Text behind a line end ends with a line end if the whole does. -/
theorem endsLine_behind {e behind : List Char} {c : Char} (hbehind : ∃ d ∈ behind, ¬ isLineEnd d)
    (h : EndsLine (e ++ c :: behind)) : EndsLine behind := by
  have hne : behind ≠ [] := by
    rintro rfl
    simp at hbehind
  rw [← List.singleton_append, ← List.append_assoc] at h
  exact (endsLine_append hne _).mp h

/-- A piece ends with a line end, unless it is the last one. -/
theorem endsLine_of_piece (h : rest = [] ∨ ∃ v, piece = v ++ ['\n']) :
    rest = [] ∨ EndsLine piece := by
  refine h.imp id ?_
  rintro ⟨v, rfl⟩
  exact ⟨'\n', by simp, rfl⟩

theorem endsLine_of_run {s : List Char} (hs : s ≠ []) (h : ∀ c ∈ s, isLineEnd c) : EndsLine s :=
  ⟨s.getLast hs, List.getLast?_eq_some_getLast hs, h _ (List.getLast_mem hs)⟩

theorem countP_pos_of_endsLine {s : List Char} (h : EndsLine s) : 0 < s.countP isLineEnd := by
  obtain ⟨c, hlast, hc⟩ := h
  exact List.countP_pos_iff.mpr ⟨c, List.mem_of_getLast? hlast, hc⟩

theorem not_endsLine_trimEnd (s : List Char) : ¬ EndsLine (trimEnd isLineEnd s) := by
  rintro ⟨c, hlast, hc⟩
  exact not_of_getLast?_trimEnd hlast hc

/-- Quotes stay open over line ends. -/
theorem after_quoted_run {s : List Char} (h : ∀ c ∈ s, isLineEnd c) :
    Place.after .quoted s = .quoted := by
  induction s with
  | nil => rfl
  | cons c s ih =>
    have hc : c ≠ '"' := by
      rintro rfl
      exact absurd (h '"' List.mem_cons_self) (by decide)
    have hnext : Place.next .quoted c = .quoted := by simp [Place.next, hc]
    rw [Place.after, List.foldl_cons, hnext]
    exact ih fun d hd => h d (List.mem_cons_of_mem c hd)

/-! ## Falling out of step -/

theorem dropByteOrderMark_of_head {s : List Char} (h : s.head? ≠ some '\uFEFF') :
    dropByteOrderMark s = s := by
  unfold dropByteOrderMark
  split
  · simp at h
  · rfl

theorem countP_dropByteOrderMark_le (f : Char → Bool) (s : List Char) :
    (dropByteOrderMark s).countP f ≤ s.countP f := by
  unfold dropByteOrderMark
  split
  · rw [List.countP_cons]
    omega
  · exact le_rfl

theorem taken_eq_nil_or (piece : List Char) : taken piece = [] ∨ ∃ row, taken piece = [row] := by
  rw [taken]
  cases readAll (trimEnd isLineEnd piece) with
  | nil => exact .inl rfl
  | cons row rows => exact .inr ⟨row, rfl⟩

theorem taken_run (h : ∀ c ∈ piece, isLineEnd c) : taken piece = [] := by
  rw [taken, trimEnd_eq_nil_iff.mpr h]
  rfl

theorem countIn_taken_le {f : Char → Bool} (hquote : f '"' = false) (hcomma : f ',' = false)
    {row : List String} (h : taken piece = [row]) :
    countIn f row ≤ (dropByteOrderMark (trimEnd isLineEnd piece)).countP f := by
  rw [taken, readAll_eq] at h
  exact countIn_le_of_mem_take hquote hcomma (by rw [h]; exact List.mem_cons_self)

/-- The first record of a text leaves over some text of the beginning, or it holds the beginning. -/
theorem scan_leaves_or_holds {q : List Char} (hend : rest = [] ∨ EndsLine q) :
    (∃ v, (∃ c ∈ v, ¬ isLineEnd c) ∧ (rest = [] ∨ EndsLine v) ∧
      (scan .opening (q ++ rest)).2 = v ++ rest) ∨
    ∀ f : Char → Bool, f '"' = false → f ',' = false →
      (trimEnd isLineEnd q).countP f ≤ (scan .opening (q ++ rest)).1.flatten.countP f := by
  obtain ⟨e, v, rfl, -, hkept, hv⟩ := scan_append_cases .opening q rest
  rcases hv with rfl | ⟨c, behind, rfl, hc, -, hsnd⟩
  · refine .inr fun f hquote hcomma => ?_
    rw [List.append_nil] at hkept ⊢
    exact (countP_trimEnd_le f e).trans (hkept f hquote hcomma)
  · by_cases hbehind : ∃ d ∈ behind, ¬ isLineEnd d
    · exact .inl ⟨behind, hbehind, hend.imp id (endsLine_behind hbehind), hsnd⟩
    · refine .inr fun f hquote hcomma => ?_
      have hrun : ∀ d ∈ c :: behind, isLineEnd d := by simpa [hc] using hbehind
      rw [trimEnd_append_run e hrun]
      exact (countP_trimEnd_le f e).trans (hkept f hquote hcomma)

/-- **Text left over is not caught up with.** Text before a whole number of pieces makes the records
    read different from the rows that are taken from the pieces. -/
theorem readOn_append_ne {text s : List Char} (hs : ∃ c ∈ s, ¬ isLineEnd c)
    (hlast : text = [] ∨ EndsLine s) : readOn (s ++ text) ≠ (pieces text).flatMap taken := by
  induction text using pieces_induction generalizing s with
  | nil =>
    obtain ⟨lead, c, r, rfl, hlead, hc⟩ := exists_lead hs
    rw [List.append_nil, readOn_lead hlead hc]
    simp [pieces_nil]
  | cons piece rest hne hend hpieces ih =>
    have hline : rest = [] ∨ EndsLine piece := endsLine_of_piece hend
    rw [hpieces, List.flatMap_cons]
    rcases taken_eq_nil_or piece with hnil | ⟨row, hrow⟩
    · -- a piece without a row is text left over as well
      rw [hnil, List.nil_append, ← List.append_assoc]
      refine ih ?_ (hline.imp id (endsLine_append hne s).mpr)
      obtain ⟨c, hmem, hc⟩ := hs
      exact ⟨c, List.mem_append_left piece hmem, hc⟩
    · intro heq
      obtain ⟨lead, c, r, rfl, hlead, hc⟩ := exists_lead hs
      rw [List.append_assoc, List.cons_append, readOn_lead hlead hc, hrow,
        List.singleton_append] at heq
      obtain ⟨hhead, htail⟩ := List.cons.inj heq
      rw [← List.cons_append, ← List.append_assoc] at hhead htail
      rcases scan_leaves_or_holds (hline.imp id (endsLine_append hne (c :: r)).mpr) with
        ⟨v, hv, hvline, hsnd⟩ | hkept
      · rw [hsnd] at htail
        exact ih hv hvline htail
      · -- the row read holds the line ends of the text left over, beside those of the piece
        have htext : ∃ d ∈ piece, ¬ isLineEnd d := by
          by_contra hrun
          rw [taken_run (by simpa using hrun)] at hrow
          simp at hrow
        have hkept := hkept isLineEnd rfl rfl
        rw [trimEnd_append (c :: r) htext, List.countP_append, ← countIn_map_ofList, hhead] at hkept
        have hrowle := (countIn_taken_le (f := isLineEnd) rfl rfl hrow).trans
          (countP_dropByteOrderMark_le _ _)
        have hends : EndsLine (c :: r) :=
          (endsLine_append (by simp) lead).mp (hlast.resolve_left (by simp [hne]))
        have hpos := countP_pos_of_endsLine hends
        omega

/-! ## One piece -/

theorem inOneRecord_of_run (h : ∀ c ∈ piece, isLineEnd c) : InOneRecord piece := by
  have htrim : trim isLineEnd piece = [] := by
    rw [trim, List.dropWhile_eq_nil_iff.mpr h, trimEnd_nil]
  constructor
  · intro before c behind hsplit
    rw [htrim] at hsplit
    simp at hsplit
  · intro _
    rw [htrim]
    simp [Place.after]

theorem inOneRecord_iff {lead : List Char} (hlead : ∀ d ∈ lead, isLineEnd d) {c : Char}
    (hc : ¬ isLineEnd c) (r : List Char) :
    InOneRecord (lead ++ c :: r) ↔ Unbroken .opening (trimEnd isLineEnd (c :: r)) ∧
      (EndsLine (c :: r) → Place.after .opening (trimEnd isLineEnd (c :: r)) ≠ .quoted) := by
  rw [← trim_lead hlead hc r, ← endsLine_append (s := c :: r) (by simp) lead]
  exact ⟨fun h => ⟨unbroken_iff.mpr h.inQuotes, h.closed⟩,
    fun ⟨hun, hclosed⟩ => ⟨unbroken_iff.mp hun, hclosed⟩⟩

/-- What is scanned before a break has no open quote when line ends are taken away from its end. -/
theorem unbroken_trimEnd_of_break {e behind : List Char} (he : Unbroken .opening e)
    (hplace : Place.after .opening e ≠ .quoted) (hrun : ∀ b ∈ behind, isLineEnd b) :
    Unbroken .opening (trimEnd isLineEnd (e ++ behind)) ∧
      Place.after .opening (trimEnd isLineEnd (e ++ behind)) ≠ .quoted := by
  obtain ⟨t, het, ht⟩ := exists_trimEnd isLineEnd e
  rw [trimEnd_append_run e hrun]
  refine ⟨(unbroken_append.mp (het ▸ he)).1, fun hquoted => hplace ?_⟩
  rw [het, Place.after_append, hquoted, after_quoted_run ht]

/-- The record of a piece is scanned as it stands alone, and reading goes on behind the piece. -/
theorem exists_scan_append_eq {q : List Char} (hun : Unbroken .opening (trimEnd isLineEnd q))
    (hclosed : EndsLine q → Place.after .opening (trimEnd isLineEnd q) ≠ .quoted)
    (hend : rest = [] ∨ EndsLine q) :
    ∃ behind, readOn behind = readOn rest ∧
      scan .opening (q ++ rest) = ((scan .opening (trimEnd isLineEnd q)).1, behind) := by
  obtain ⟨tail, hq, htail⟩ := exists_trimEnd isLineEnd q
  cases tail with
  | nil =>
    rw [List.append_nil] at hq
    have hnil : rest = [] := hend.resolve_right (hq ▸ not_endsLine_trimEnd q)
    refine ⟨[], by rw [hnil], ?_⟩
    rw [← hq] at hun ⊢
    rw [hnil, List.append_nil]
    exact Prod.ext rfl (scan_snd_of_unbroken hun)
  | cons d tail =>
    have hends : EndsLine q := by
      rw [hq, endsLine_append (by simp)]
      exact endsLine_of_run (by simp) htail
    refine ⟨tail ++ rest, readOn_run (fun e he => htail e (List.mem_cons_of_mem d he)) rest, ?_⟩
    rw [← scan_append_break hun (htail d List.mem_cons_self) (hclosed hends), ← List.cons_append,
      ← List.append_assoc, ← hq]

/-- A piece in one record is read to its end. -/
theorem InOneRecord.readOn_append (h : InOneRecord piece) (hend : rest = [] ∨ EndsLine piece) :
    (readOn (trimEnd isLineEnd piece)).length ≤ 1 ∧
      readOn (piece ++ rest) = readOn (trimEnd isLineEnd piece) ++ readOn rest := by
  by_cases hs : ∃ d ∈ piece, ¬ isLineEnd d
  · obtain ⟨lead, c, r, rfl, hlead, hc⟩ := exists_lead hs
    obtain ⟨hun, hclosed⟩ := (inOneRecord_iff hlead hc r).mp h
    rw [endsLine_append (by simp)] at hend
    obtain ⟨behind, hbehind, hscan⟩ := exists_scan_append_eq hun hclosed hend
    have hread : readOn (trimEnd isLineEnd (lead ++ c :: r)) =
        [(scan .opening (trimEnd isLineEnd (c :: r))).1.map .ofList] := by
      rw [trimEnd_lead lead hc, trimEnd_cons hc, readOn_lead hlead hc, ← trimEnd_cons hc,
        scan_snd_of_unbroken hun, readOn_nil]
    rw [hread, List.append_assoc, List.cons_append, readOn_lead hlead hc, ← List.cons_append, hscan,
      hbehind]
    exact ⟨by simp, rfl⟩
  · have hrun : ∀ d ∈ piece, isLineEnd d := by simpa using hs
    rw [trimEnd_eq_nil_iff.mpr hrun, readOn_run hrun, readOn_nil]
    exact ⟨by simp, rfl⟩

/-- A piece that is not in one record brings reading out of step. -/
theorem readOn_append_ne_of_not (h : ¬ InOneRecord piece) (hend : rest = [] ∨ EndsLine piece) :
    readOn (piece ++ rest) ≠
      (readOn (trimEnd isLineEnd piece)).take 1 ++ (pieces rest).flatMap taken := by
  intro heq
  refine h ?_
  by_cases hs : ∃ d ∈ piece, ¬ isLineEnd d
  · obtain ⟨lead, c, r, rfl, hlead, hc⟩ := exists_lead hs
    rw [endsLine_append (by simp)] at hend
    rw [trimEnd_lead lead hc, trimEnd_cons hc, readOn_lead hlead hc, List.take_succ_cons,
      List.take_zero, List.append_assoc, List.cons_append, readOn_lead hlead hc,
      List.singleton_append, ← trimEnd_cons hc, ← List.cons_append] at heq
    obtain ⟨hhead, htail⟩ := List.cons.inj heq
    have hcount : (scan .opening (c :: r ++ rest)).1.flatten.countP isLineEnd ≤
        (trimEnd isLineEnd (c :: r)).countP isLineEnd := by
      rw [← countIn_map_ofList, hhead, countIn_map_ofList]
      exact countP_scan_le rfl rfl _ _
    obtain ⟨e, v, hsplit, he, hkept, hv⟩ := scan_append_cases .opening (c :: r) rest
    rw [inOneRecord_iff hlead hc]
    rcases hv with rfl | ⟨d, behind, rfl, hd, hplace, hsnd⟩
    · -- the record read holds all line ends of the piece, so that none were trimmed
      rw [List.append_nil] at hsplit
      have hself : trimEnd isLineEnd (c :: r) = c :: r := by
        refine trimEnd_eq_self_of_countP (le_trans ?_ hcount)
        have hall := hkept isLineEnd rfl rfl
        rwa [← hsplit] at hall
      refine ⟨by rwa [hself, hsplit], fun hends => ?_⟩
      exact absurd (hself.symm ▸ hends) (not_endsLine_trimEnd (c :: r))
    · by_cases hbehind : ∃ d ∈ behind, ¬ isLineEnd d
      · rw [hsplit] at hend
        rw [hsnd] at htail
        exact absurd htail (readOn_append_ne hbehind (hend.imp id (endsLine_behind hbehind)))
      · have hbreak : ∀ b ∈ d :: behind, isLineEnd b := by simpa [hd] using hbehind
        obtain ⟨hun, hclosed⟩ := unbroken_trimEnd_of_break he hplace hbreak
        rw [hsplit]
        exact ⟨hun, fun _ => hclosed⟩
  · exact inOneRecord_of_run (by simpa using hs)

theorem readOn_append_eq_iff (hend : rest = [] ∨ EndsLine piece) :
    readOn (piece ++ rest) =
        (readOn (trimEnd isLineEnd piece)).take 1 ++ (pieces rest).flatMap taken ↔
      InOneRecord piece ∧ readOn rest = (pieces rest).flatMap taken := by
  by_cases h : InOneRecord piece
  · obtain ⟨hone, hread⟩ := h.readOn_append hend
    rw [hread, List.take_of_length_le hone, List.append_cancel_left_eq]
    exact ⟨fun heq => ⟨h, heq⟩, And.right⟩
  · exact ⟨fun heq => absurd heq (readOn_append_ne_of_not h hend), fun ⟨hone, _⟩ => absurd hone h⟩

/-! ## Byte order marks -/

theorem readAll_trimEnd_of_unmarked (h : piece.head? ≠ some '\uFEFF') :
    readAll (trimEnd isLineEnd piece) = readOn (trimEnd isLineEnd piece) := by
  rw [readAll_eq, dropByteOrderMark_of_head]
  intro hmark
  obtain ⟨tail, hpiece, -⟩ := exists_trimEnd isLineEnd piece
  rw [hpiece, List.head?_append, hmark] at h
  simp at h

/-- A byte order mark inside a text is read, but is not in the row taken from its piece. -/
theorem readOn_append_ne_of_marked (hmark : piece.head? = some '\uFEFF')
    (hend : rest = [] ∨ EndsLine piece) :
    readOn (piece ++ rest) ≠ taken piece ++ (pieces rest).flatMap taken := by
  obtain ⟨r, rfl⟩ : ∃ r, piece = '\uFEFF' :: r := by
    cases piece with
    | nil => simp at hmark
    | cons c r => exact ⟨r, by simpa using hmark⟩
  have hc : ¬ isLineEnd '\uFEFF' := by decide
  rcases taken_eq_nil_or ('\uFEFF' :: r) with hnil | ⟨row, hrow⟩
  · rw [hnil, List.nil_append]
    exact readOn_append_ne ⟨'\uFEFF', List.mem_cons_self, hc⟩ hend
  · intro heq
    rw [hrow, List.cons_append, readOn_cons hc, List.singleton_append, ← List.cons_append] at heq
    obtain ⟨hhead, htail⟩ := List.cons.inj heq
    rcases scan_leaves_or_holds hend with ⟨v, hv, hvline, hsnd⟩ | hkept
    · rw [hsnd] at htail
      exact readOn_append_ne hv hvline htail
    · have hkept := hkept (· == '\uFEFF') rfl rfl
      have hrowle := countIn_taken_le (f := (· == '\uFEFF')) rfl rfl hrow
      rw [← countIn_map_ofList, hhead, trimEnd_cons hc, List.countP_cons] at hkept
      rw [trimEnd_cons hc, dropByteOrderMark] at hrowle
      simp only [beq_self_eq_true, if_true] at hkept
      omega

/-! ## Whole texts -/

theorem readOn_eq_iff (text : List Char) :
    readOn text = (pieces text).flatMap taken ↔
      ∀ piece ∈ pieces text, InOneRecord piece ∧ piece.head? ≠ some '\uFEFF' := by
  induction text using pieces_induction with
  | nil => simp [pieces_nil, readOn_nil]
  | cons piece rest hne hend hpieces ih =>
    have hline : rest = [] ∨ EndsLine piece := endsLine_of_piece hend
    rw [hpieces, List.flatMap_cons, List.forall_mem_cons, ← ih]
    by_cases hmark : piece.head? = some '\uFEFF'
    · exact ⟨fun heq => absurd heq (readOn_append_ne_of_marked hmark hline),
        fun ⟨⟨_, hun⟩, _⟩ => absurd hmark hun⟩
    · rw [taken, readAll_trimEnd_of_unmarked hmark, readOn_append_eq_iff hline]
      exact ⟨fun ⟨hone, hrest⟩ => ⟨⟨hone, hmark⟩, hrest⟩, fun ⟨⟨hone, _⟩, hrest⟩ => ⟨hone, hrest⟩⟩

theorem tokenised_eq (text : List Char) : tokenised text = (pieces text).flatMap taken := by
  show (((pieces text).map (trimEnd isLineEnd)).map cells).filter (· ≠ []) = _
  rw [List.map_map, List.map_eq_flatMap, List.filter_flatMap]
  exact List.flatMap_congr fun piece _ => take_readAll _

/-- The first piece of a text without its byte order mark, and the record it is in the whole text. -/
theorem exists_first_piece {text : List Char} (h : dropByteOrderMark text ≠ []) :
    ∃ whole piece rest, dropByteOrderMark text = piece ++ rest ∧ (rest = [] ∨ EndsLine piece) ∧
      pieces text = whole :: pieces rest ∧ pieces (dropByteOrderMark text) = piece :: pieces rest ∧
      readAll (trimEnd isLineEnd whole) = readOn (trimEnd isLineEnd piece) := by
  by_cases hmark : text.head? = some '\uFEFF'
  · obtain ⟨body, rfl⟩ : ∃ body, text = '\uFEFF' :: body := by
      cases text with
      | nil => simp at hmark
      | cons c body => exact ⟨body, by simpa using hmark⟩
    obtain ⟨piece, rest, hbody, hend, hpieces, hwhole⟩ :=
      pieces_cons_eq_cons (c := '\uFEFF') (by decide) (by decide) h
    refine ⟨'\uFEFF' :: piece, piece, rest, hbody, endsLine_of_piece hend, hwhole, hpieces, ?_⟩
    rw [trimEnd_cons (by decide), readAll_eq]
    rfl
  · rw [dropByteOrderMark_of_head hmark] at h ⊢
    obtain ⟨piece, rest, htext, hne, hend, hpieces⟩ := pieces_eq_cons h
    refine ⟨piece, piece, rest, htext, endsLine_of_piece hend, hpieces, hpieces, ?_⟩
    refine readAll_trimEnd_of_unmarked ?_
    rwa [htext, List.head?_append_of_ne_nil piece hne] at hmark

theorem eq_nil_or_mark_of_dropByteOrderMark {text : List Char} (h : dropByteOrderMark text = []) :
    text = [] ∨ text = ['\uFEFF'] := by
  unfold dropByteOrderMark at h
  split at h
  · exact .inr (by rw [h])
  · exact .inl h

/-- The rows that an import reads are the records of the text exactly if the text is in step. -/
theorem tokenised_eq_readAll_iff (text : List Char) :
    tokenised text = readAll text ↔ InStep text := by
  by_cases h : dropByteOrderMark text = []
  · have hstep : InStep text := by constructor <;> simp [h, pieces_nil]
    rcases eq_nil_or_mark_of_dropByteOrderMark h with rfl | rfl
    · exact iff_of_true rfl hstep
    · exact iff_of_true (by decide) hstep
  · obtain ⟨whole, piece, rest, hbody, hend, hwhole, hpieces, hrow⟩ := exists_first_piece h
    rw [tokenised_eq, hwhole, List.flatMap_cons, taken, hrow, readAll_eq, hbody, eq_comm,
      readOn_append_eq_iff hend, readOn_eq_iff]
    constructor
    · rintro ⟨hone, hrest⟩
      refine ⟨?_, ?_⟩
      · rw [hpieces, List.forall_mem_cons]
        exact ⟨hone, fun p hp => (hrest p hp).1⟩
      · rw [hpieces, List.tail_cons]
        exact fun p hp => (hrest p hp).2
    · rintro ⟨hone, hunmarked⟩
      rw [hpieces, List.forall_mem_cons] at hone
      rw [hpieces, List.tail_cons] at hunmarked
      exact ⟨hone.1, fun p hp => ⟨hone.2 p hp, hunmarked p hp⟩⟩

/-- In step, no record of the import holds more than one record. -/
theorem InStep.length_readAll_le {text : List Char} (h : InStep text) :
    ∀ record ∈ records text, (readAll record).length ≤ 1 := by
  intro record hrecord
  obtain ⟨p, hp, rfl⟩ := List.mem_map.mp hrecord
  change p ∈ pieces text at hp
  by_cases hnil : dropByteOrderMark text = []
  · rcases eq_nil_or_mark_of_dropByteOrderMark hnil with rfl | rfl
    · simp [pieces_nil] at hp
    · have hmark : pieces ['\uFEFF'] = [['\uFEFF']] := by decide
      rw [hmark, List.mem_singleton] at hp
      rw [hp]
      decide
  · obtain ⟨whole, piece, rest, -, hend, hwhole, hpieces, hrow⟩ := exists_first_piece hnil
    obtain ⟨hone, hunmarked⟩ := h
    rw [hpieces, List.forall_mem_cons] at hone
    rw [hpieces, List.tail_cons] at hunmarked
    rw [hwhole, List.mem_cons] at hp
    rcases hp with rfl | hp
    · rw [hrow]
      exact (hone.1.readOn_append hend).1
    · rw [readAll_trimEnd_of_unmarked (hunmarked p hp)]
      exact ((hone.2 p hp).readOn_append (.inl rfl)).1

end Csv

namespace Table

/-! ## The rows of an import -/

/-- **When nothing is swallowed.** The rows that an import reads are the records of the text exactly
    if the text is in step. Then no record of the import holds more than one, and the rows of the
    table are made from the records behind the first two, with a row for a blank line too. -/
theorem ofCsv_rows_inStep (text : String) :
    (Csv.tokenised text.toList = Csv.readAll text.toList ↔ Csv.InStep text.toList) ∧
      (Csv.InStep text.toList →
        (∀ record ∈ Csv.records text.toList, (Csv.readAll record).length ≤ 1) ∧
        ∀ first second data, Csv.records text.toList = first :: second :: data →
          ∃ table lines, ofCsv text = .ok table ∧
            table.rows = lines.map (fun row =>
              (headings (Csv.cells first) (Csv.cells second)).map fun column =>
                answer row column.1) ∧
            Csv.readAll text.toList =
              ([Csv.cells first, Csv.cells second] ++ lines).filter (· ≠ [])) := by
  have hiff := Csv.tokenised_eq_readAll_iff text.toList
  refine ⟨hiff, fun hstep => ⟨hstep.length_readAll_le, ?_⟩⟩
  intro first second data hrecords
  refine ⟨build (Csv.cells first) (Csv.cells second) data, (dropBlankEnd data).map Csv.cells,
    ?_, ?_, ?_⟩
  · rw [ofCsv, hrecords]
  · rw [build_rows, List.map_map]
    rfl
  · rw [← hiff.mpr hstep, Csv.tokenised, hrecords, List.filter_append, filter_cells_dropBlankEnd,
      ← List.filter_append]
    rfl

/-- A text with a line end in quotes and a blank line is in step. -/
theorem rows_inStep_of_quoted_line :
    Csv.InStep "Nail,Size\n,\n\"5\nnail\",x\n\n6,y\n".toList ∧
      ∀ record ∈ Csv.records "Nail,Size\n,\n\"5\nnail\",x\n\n6,y\n".toList,
        (Csv.readAll record).length ≤ 1 := by
  have hiff := ofCsv_rows_inStep "Nail,Size\n,\n\"5\nnail\",x\n\n6,y\n"
  have hstep := hiff.1.mp (by decide)
  exact ⟨hstep, (hiff.2 hstep).1⟩

/-- Two quotes in cells that are not quoted join the lines that they stand in. One record of the text
    is then part of another, and its row is lost. -/
theorem rows_swallowed_of_stray_quotes :
    ¬ (∀ record ∈ Csv.records "Nail,Size\n,\n5\" nail,x\n6\" nail,y\n".toList,
        (Csv.readAll record).length ≤ 1) ∧
      (ofCsv "Nail,Size\n,\n5\" nail,x\n6\" nail,y\n").toOption.map (·.rows) =
        some [["5\" nail", "x"]] ∧
      Csv.readAll "Nail,Size\n,\n5\" nail,x\n6\" nail,y\n".toList =
        [["Nail", "Size"], ["", ""], ["5\" nail", "x"], ["6\" nail", "y"]] := by
  refine ⟨?_, ?_, ?_⟩ <;> decide

end Table

end SurveyReport
