import SurveyReport.Proofs.Csv.Scan
import SurveyReport.Proofs.Text.Trim

/-!
# Reading record by record

A text is read from front to back: line ends are passed over, then one record is scanned, and so on
with what the scan hands on.

Results:
* `recordsFor_eq`: as many scans as the text has characters are enough.
* `readOn_run`, `readOn_cons`: one round of reading.
* `take_readAll`: the cells of a text are those of its first record.
* `countIn_le_of_mem_take`: a first record makes up no characters.
-/

namespace SurveyReport.Csv

open Text

variable {c : Char} {s : List Char}

/-- The records of a text, read from front to back. A byte order mark is text. -/
def readOn (text : List Char) : List (List String) := recordsFor (text.length + 1) text

/-! ## Fuel -/

theorem length_scan_cons_le (place : Place) (c : Char) (rest : List Char) :
    (scan place (c :: rest)).2.length ≤ rest.length := by
  by_cases h : isLineEnd c → place = .quoted
  · rw [scan_cons h, Place.add_snd]
    exact length_scan_le _ _
  · obtain ⟨hc, hplace⟩ := Classical.not_imp.mp h
    rw [scan_cons_of_lineEnd hc hplace]

theorem recordsFor_congr {n m : Nat} {text : List Char} (hn : text.length < n)
    (hm : text.length < m) : recordsFor n text = recordsFor m text := by
  induction n generalizing m text with
  | zero => omega
  | succ n ih =>
    obtain ⟨m, rfl⟩ : ∃ k, m = k + 1 := ⟨m - 1, by omega⟩
    rw [recordsFor, recordsFor]
    cases hdrop : text.dropWhile isLineEnd with
    | nil => rfl
    | cons c rest =>
      have hlt : (scan .opening (c :: rest)).2.length < text.length := by
        have hscan := length_scan_cons_le .opening c rest
        have hle := List.length_dropWhile_le isLineEnd text
        rw [hdrop, List.length_cons] at hle
        omega
      have hrec : recordsFor n (scan .opening (c :: rest)).2 =
          recordsFor m (scan .opening (c :: rest)).2 := ih (by omega) (by omega)
      simp only [hrec]

theorem recordsFor_eq {fuel : Nat} {text : List Char} (h : text.length < fuel) :
    recordsFor fuel text = readOn text := recordsFor_congr h (Nat.lt_succ_self _)

theorem length_dropByteOrderMark_le (text : List Char) :
    (dropByteOrderMark text).length ≤ text.length := by
  unfold dropByteOrderMark
  split <;> simp

theorem readAll_eq (text : List Char) : readAll text = readOn (dropByteOrderMark text) :=
  recordsFor_eq (Nat.lt_succ_of_le (length_dropByteOrderMark_le text))

/-! ## One round -/

theorem readOn_nil : readOn [] = [] := rfl

/-- Line ends before a record are passed over. -/
theorem readOn_run (h : ∀ d ∈ s, isLineEnd d) (rest : List Char) :
    readOn (s ++ rest) = readOn rest := by
  have hlt : rest.length < (s ++ rest).length + 1 := by
    rw [List.length_append]
    omega
  rw [← recordsFor_eq hlt, readOn, recordsFor, recordsFor, List.dropWhile_append_of_pos h]

theorem readOn_cons (hc : ¬ isLineEnd c) (rest : List Char) :
    readOn (c :: rest) =
      (scan .opening (c :: rest)).1.map .ofList :: readOn (scan .opening (c :: rest)).2 := by
  have hlt : (scan .opening (c :: rest)).2.length < (c :: rest).length := by
    have hscan := length_scan_cons_le .opening c rest
    rw [List.length_cons]
    omega
  rw [readOn, recordsFor, List.dropWhile_cons_of_neg hc]
  simp only
  rw [recordsFor_eq hlt]

theorem readOn_lead {lead : List Char} (hlead : ∀ d ∈ lead, isLineEnd d) (hc : ¬ isLineEnd c)
    (rest : List Char) :
    readOn (lead ++ c :: rest) =
      (scan .opening (c :: rest)).1.map .ofList :: readOn (scan .opening (c :: rest)).2 := by
  rw [readOn_run hlead, readOn_cons hc]

theorem readOn_eq_nil (h : ∀ d ∈ s, isLineEnd d) : readOn s = [] := by
  rw [← List.append_nil s, readOn_run h, readOn_nil]

/-- The cells of a text are those of its first record. -/
theorem take_readAll (text : List Char) :
    [cells text].filter (· ≠ []) = (readAll text).take 1 := by
  rw [cells, readAll, recordsFor]
  cases (dropByteOrderMark text).dropWhile isLineEnd with
  | nil => rfl
  | cons c rest => simp [scan_ne_nil]

/-! ## What a first record holds -/

/-- How many characters of a row are in `f`. -/
def countIn (f : Char → Bool) (row : List String) : Nat := (row.flatMap String.toList).countP f

theorem countIn_map_ofList (f : Char → Bool) (cells : List (List Char)) :
    countIn f (cells.map .ofList) = cells.flatten.countP f := by
  simp [countIn, List.flatMap_map, List.flatMap_id']

/-- A first record makes up no characters. -/
theorem countIn_le_of_mem_take {f : Char → Bool} (hquote : f '"' = false) (hcomma : f ',' = false)
    {row : List String} (h : row ∈ (readOn s).take 1) : countIn f row ≤ s.countP f := by
  by_cases hs : ∃ d ∈ s, ¬ isLineEnd d
  · obtain ⟨lead, c, rest, rfl, hlead, hc⟩ := exists_lead hs
    rw [readOn_lead hlead hc, List.take_succ_cons, List.take_zero, List.mem_singleton] at h
    rw [h, countIn_map_ofList, List.countP_append]
    have hle := countP_scan_le hquote hcomma .opening (c :: rest)
    omega
  · rw [readOn_eq_nil (by simpa using hs)] at h
    simp at h

end SurveyReport.Csv
