import SurveyReport.Csv.Cut
import SurveyReport.Proofs.Template.Offsets
import SurveyReport.Proofs.Text.Bytes

/-!
# Records between offsets

The records of a text can be found by offsets into its bytes: one where the current record begins and one
where the next line does. Quotes are counted in the bytes of a line, and a record is what stands between
two offsets. All of these offsets are between two characters of the text, whatever characters these are.

Results:
* `slice?_ofList`: what stands between two offsets.
* `recordsFrom?_eq`: the text behind some lines, with what is held of the current record.
* `recordsInBytes?_eq`: a whole text.
-/

namespace SurveyReport

namespace Text

/-- What stands in a text between two offsets in its bytes, if it can be cut at both of them. -/
def slice? (s : String) (start stop : Nat) : Option String := do
  let (front, _) ← cutAtByte? s stop
  let (_, middle) ← cutAtByte? front start
  some middle

theorem slice?_ofList (s m t : List Char) :
    slice? (.ofList (s ++ m ++ t)) (byteSize s) (byteSize (s ++ m)) = some (.ofList m) := by
  rw [slice?, cutAtByte?_ofList]
  simp only [Option.bind_eq_bind, Option.bind_some, cutAtByte?_ofList]

theorem byteSize_eq_zero_iff {s : List Char} : byteSize s = 0 ↔ s = [] := by
  rw [byteSize, String.utf8ByteSize_eq_zero_iff, String.ofList_eq_empty_iff]

end Text

namespace Csv

/-! ## Counting and cutting bytes -/

/-- Whether the bytes of a line hold an odd number of quotes. -/
def switchesInBytes (line : String) : Bool :=
  (Text.bytes line).count (UInt8.ofNat '"'.toNat) % 2 == 1

theorem switchesInBytes_ofList (line : List Char) : switchesInBytes (.ofList line) = switches line := by
  rw [switchesInBytes, Text.count_bytes (by decide), switches]

/-- The record that a piece of a text makes, without the line ends it ends with. -/
def recordOf (piece : List Char) : String := .ofList (Text.trimEnd Text.isLineEnd piece)

/-- The record between two offsets. -/
def record? (text : String) (start stop : Nat) : Option String :=
  (Text.slice? text start stop).map fun piece => recordOf piece.toList

/-- The records of a text from the offset `start` on, where the lines are those from `offset` on, and
    `quoted` tells whether a quoted cell is open there. -/
def recordsFrom? (text : String) (start offset : Nat) (quoted : Bool) :
    List String → Option (List String)
  | [] =>
    if start < text.utf8ByteSize then (record? text start text.utf8ByteSize).map ([·]) else some []
  | line :: rest =>
    let stop := offset + line.utf8ByteSize
    if quoted != switchesInBytes line then recordsFrom? text start stop true rest
    else do
      let record ← record? text start stop
      let records ← recordsFrom? text stop stop false rest
      some (record :: records)

/-- The records of a text. -/
def recordsInBytes? (text : String) : Option (List String) :=
  recordsFrom? text 0 0 false ((lines text.toList).map .ofList)

/-! ## Both ways of cutting -/

theorem record?_ofList (settled piece rest : List Char) :
    record? (.ofList (settled ++ piece ++ rest)) (Text.byteSize settled)
        (Text.byteSize (settled ++ piece)) = some (recordOf piece) := by
  rw [record?, Text.slice?_ofList, Option.map_some, String.toList_ofList]

/-- The current record begins behind what is settled, and the next line behind what is held of this
    record. -/
theorem recordsFrom?_eq (settled held : List Char) (quoted : Bool) (ls : List (List Char)) :
    recordsFrom? (.ofList (settled ++ held ++ ls.flatten)) (Text.byteSize settled)
        (Text.byteSize (settled ++ held)) quoted (ls.map .ofList) =
      some ((gather held quoted ls).map recordOf) := by
  induction ls generalizing settled held quoted with
  | nil =>
    have hrecord := record?_ofList settled held []
    have hsize : (String.ofList (settled ++ held ++ [])).utf8ByteSize =
        Text.byteSize (settled ++ held) := by
      rw [List.append_nil, Text.byteSize]
    rw [List.map_nil, List.flatten_nil, recordsFrom?, gather, hsize, hrecord, Text.byteSize_append]
    by_cases hheld : held = []
    · simp [hheld, Text.byteSize]
    · have hpos : 0 < Text.byteSize held := Nat.pos_of_ne_zero (mt Text.byteSize_eq_zero_iff.mp hheld)
      rw [if_pos (by omega)]
      simp [hheld]
  | cons line rest ih =>
    have hstop : Text.byteSize (settled ++ held) + (String.ofList line).utf8ByteSize =
        Text.byteSize (settled ++ (held ++ line)) := by
      rw [← List.append_assoc, Text.byteSize_append (settled ++ held)]
      rfl
    have htext : settled ++ held ++ (line :: rest).flatten =
        settled ++ (held ++ line) ++ rest.flatten := by
      simp
    rw [List.map_cons, recordsFrom?, gather, switchesInBytes_ofList, hstop, htext]
    split
    · exact ih settled (held ++ line) true
    · -- the record ends here, and the next one begins at the end of this line
      have hnext := ih (settled ++ (held ++ line)) [] false
      rw [List.append_nil] at hnext
      simp only [Option.bind_eq_bind, record?_ofList, Option.bind_some, hnext, List.map_cons]

/-- **Records in bytes.** All offsets are between characters, and the records are the same. -/
theorem recordsInBytes?_eq (text : String) :
    recordsInBytes? text = some ((records text.toList).map .ofList) := by
  have hall := recordsFrom?_eq [] [] false (lines text.toList)
  rw [List.nil_append, List.nil_append, flatten_lines, String.ofList_toList] at hall
  rw [recordsInBytes?, records, List.map_map]
  exact hall

end Csv

end SurveyReport
