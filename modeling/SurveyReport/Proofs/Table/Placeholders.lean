import SurveyReport.Proofs.Table.Answers
import SurveyReport.Proofs.Table.Renaming

/-!
# Where placeholders are left

Cells of the second header row are searched for placeholders without the blanks around them, cells of
rows are compared as they are, and cells of the first header row are not compared at all. So a
placeholder names a column if it stands in the first header row and the second one gives no name, and a
placeholder with blanks around it is an answer.

Results:
* `mem_headers_iff_of_placeholder`: when a placeholder names a column.
* `mem_rows_iff_of_padded`: when a placeholder with blanks around it is a cell of a table.
* `isAnswer_iff_of_placeholder`: such cells are answers.
* `ofCsv_placeholders`: all of this, for every text that is imported.
-/

namespace SurveyReport.Table

variable {first second : List String} {records : List (List Char)} {token cell : String}
  {t : Table} {position : Nat} {value : String}

/-! ## Names -/

/-- No placeholder ends with the suffix that tells names apart. -/
theorem append_copySuffix_ne_placeholder (htoken : token ∈ placeholders) (front : String) :
    front ++ copySuffix ≠ token := by
  rintro rfl
  have hsuffix : copySuffix.toList = ['c', 'o', 'p', 'y'] := by decide
  have hlast : (front ++ copySuffix).toList.getLast? = some 'y' := by simp [hsuffix]
  have hnone : ∀ token ∈ placeholders, token.toList.getLast? ≠ some 'y' := by decide
  exact hnone _ htoken hlast

theorem ne_empty_of_placeholder (htoken : token ∈ placeholders) : token ≠ "" := by
  rintro rfl
  exact absurd htoken (by decide)

theorem strip_empty_not_mem_placeholders : Text.strip "" ∉ placeholders := by decide

/-- A placeholder names a column when it stands in the first header row, and the second one gives no
    name. -/
theorem mem_headers_iff_of_placeholder (htoken : token ∈ placeholders) :
    token ∈ (build first second records).headers ↔
      ∃ position, Text.strip (first.getD position "") = token ∧ ¬ NamesColumn second position := by
  rw [build_headers, mem_distinct_iff_mem (append_copySuffix_ne_placeholder htoken), List.mem_map]
  constructor
  · rintro ⟨⟨position, name⟩, hcolumn, rfl⟩
    obtain ⟨-, hheading⟩ := (mem_headings first second position name).mp hcolumn
    rw [heading_getElem?] at hheading
    split_ifs at hheading with hnames hfirst
    · rw [← Option.some.inj hheading] at htoken
      exact absurd htoken hnames.2
    · exact ⟨position, Option.some.inj hheading, hnames⟩
  · rintro ⟨position, rfl, hnames⟩
    have hne := ne_empty_of_placeholder htoken
    have hlt : position < first.length := by
      by_contra hpast
      rw [List.getD_eq_getElem?_getD, List.getElem?_eq_none (by omega)] at hne
      exact hne (by decide)
    have hheading : heading first[position]? second[position]? =
        some (Text.strip (first.getD position "")) := by
      rw [heading_getElem?, if_neg hnames, if_pos hne]
    exact ⟨_, (mem_headings first second position _).mpr ⟨by omega, hheading⟩, rfl⟩

theorem exists_strip_header_iff (ht : t.IsRegular) :
    (∃ header ∈ t.headers, Text.strip header = token) ↔ token ∈ t.headers := by
  constructor
  · rintro ⟨header, hheader, rfl⟩
    rwa [(ht.proper header hheader).strip_eq]
  · exact fun htoken => ⟨token, htoken, (ht.proper token htoken).strip_eq⟩

/-! ## Cells -/

/-- A placeholder with blanks around it. -/
def IsPadded (cell : String) : Prop := Text.strip cell ∈ placeholders ∧ cell ∉ placeholders

instance (cell : String) : Decidable (IsPadded cell) := inferInstanceAs (Decidable (_ ∧ _))

theorem isPadded_of_answer {row : List String} {position : Nat}
    (h : Text.strip (answer row position) ∈ placeholders) :
    IsPadded (row.getD position "") ∧ answer row position = row.getD position "" := by
  rw [answer_eq] at h ⊢
  split_ifs at h ⊢ with hcell
  · exact absurd h strip_empty_not_mem_placeholders
  · exact ⟨⟨h, hcell⟩, rfl⟩

/-- A placeholder with blanks around it is left in a table just when it stands below a name. -/
theorem mem_rows_iff_of_padded :
    (∃ row ∈ (build first second records).rows, cell ∈ row) ∧ Text.strip cell ∈ placeholders ↔
      IsPadded cell ∧ ∃ record ∈ records, ∃ column ∈ headings first second,
        (Csv.cells record).getD column.1 "" = cell := by
  simp only [build_rows, List.mem_map]
  constructor
  · rintro ⟨⟨row, ⟨record, hrecord, rfl⟩, hcell⟩, hplaceholder⟩
    obtain ⟨column, hcolumn, rfl⟩ := List.mem_map.mp hcell
    obtain ⟨hpadded, hanswer⟩ := isPadded_of_answer hplaceholder
    have hkept : record ∈ records := (List.rdropWhile_prefix _ _).subset hrecord
    exact ⟨hanswer ▸ hpadded, record, hkept, column, hcolumn, hanswer.symm⟩
  · rintro ⟨⟨hplaceholder, hne⟩, record, hrecord, column, hcolumn, rfl⟩
    have hblank : record ≠ [] := by
      rintro rfl
      exact strip_empty_not_mem_placeholders hplaceholder
    refine ⟨⟨_, ⟨record, (mem_dropBlankEnd hblank).mpr hrecord, rfl⟩, ?_⟩, hplaceholder⟩
    exact List.mem_map.mpr ⟨column, hcolumn, by rw [answer_eq, if_neg hne]⟩

/-! ## Answers -/

/-- Every cell that is a placeholder with blanks around it is an answer, as names have no blanks around
    them. -/
theorem isAnswer_iff_of_placeholder (ht : t.IsRegular) (hvalue : Text.strip value ∈ placeholders) :
    t.IsAnswer position value ↔ ∃ row ∈ t.rows, row[position]? = some value := by
  refine ⟨IsAnswer.given, fun hgiven => ⟨?_, ?_, hgiven⟩⟩
  · rintro rfl
    exact strip_empty_not_mem_placeholders hvalue
  · intro hheader
    obtain ⟨row, hrow, hcell⟩ := hgiven
    rw [(ht.proper value (List.mem_of_getElem? hheader)).strip_eq] at hvalue
    exact ht.no_placeholder row hrow value (List.mem_of_getElem? hcell) hvalue

/-- **Placeholders that are left.** No cell of a table is a placeholder. A placeholder is the name of a
    column exactly if it stands in the first header row at a position where the second one gives no name.
    A cell is a placeholder with blanks around it exactly if it stands like this below a name; and it is
    then an answer. -/
theorem ofCsv_placeholders {text : String} {t : Table} (h : ofCsv text = .ok t) :
    ∃ upper lower records, Csv.records text.toList = upper :: lower :: records ∧
      (∀ row ∈ t.rows, ∀ cell ∈ row, cell ∉ placeholders) ∧
      (∀ token ∈ placeholders, (∃ header ∈ t.headers, Text.strip header = token) ↔
        ∃ position, Text.strip ((Csv.cells upper).getD position "") = token ∧
          ¬ NamesColumn (Csv.cells lower) position) ∧
      (∀ cell, (∃ row ∈ t.rows, cell ∈ row) ∧ Text.strip cell ∈ placeholders ↔
        IsPadded cell ∧ ∃ record ∈ records,
          ∃ column ∈ headings (Csv.cells upper) (Csv.cells lower),
            (Csv.cells record).getD column.1 "" = cell) ∧
      ∀ (position : Nat) (c : Column), t.columns[position]? = some c →
        t.headers[position]? = some c.name ∧
        ∀ value, Text.strip value ∈ placeholders →
          ((∃ a ∈ c.categories, a.name = value) ↔ ∃ row ∈ t.rows, row[position]? = some value) := by
  have hregular := isRegular_of_ofCsv h
  obtain ⟨upper, lower, records, hrecords, rfl⟩ := exists_build_of_ofCsv h
  refine ⟨upper, lower, records, hrecords, hregular.no_placeholder, fun token htoken => ?_,
    fun cell => mem_rows_iff_of_padded, fun position c hc => ⟨?_, fun value hvalue => ?_⟩⟩
  · rw [exists_strip_header_iff hregular]
    exact mem_headers_iff_of_placeholder htoken
  · obtain ⟨header, hheader, rfl⟩ := Column.exists_eq_ofCells hc
    exact hheader
  · rw [← isAnswer_iff hc, isAnswer_iff_of_placeholder hregular hvalue]

/-- A placeholder in the first header row, above nothing, and one behind a blank. -/
theorem ofCsv_placeholders_two_columns :
    ∃ t, ofCsv "Response,Tea\n,Cups\nyes, Response\nResponse,2\n" = .ok t ∧
      t.rows = [["yes", " Response"], ["", "2"]] ∧
      (∀ row ∈ t.rows, ∀ cell ∈ row, cell ∉ placeholders) ∧
      (∃ header ∈ t.headers, Text.strip header = "Response") ∧
      (¬ ∃ header ∈ t.headers, Text.strip header = "Open-Ended Response") ∧
      ∃ c, t.columns[1]? = some c ∧ ∃ a ∈ c.categories, a.name = " Response" := by
  have hok : (ofCsv "Response,Tea\n,Cups\nyes, Response\nResponse,2\n").toOption.map
      (fun t => (t.headers, t.rows)) =
      some (["Response", "Cups"], [["yes", " Response"], ["", "2"]]) := by decide
  have hrecords : Csv.records "Response,Tea\n,Cups\nyes, Response\nResponse,2\n".toList =
      ["Response,Tea".toList, ",Cups".toList, "yes, Response".toList, "Response,2".toList] := by
    decide
  obtain ⟨t, ht, hheaders, hrows⟩ := exists_ofCsv_eq hok
  obtain ⟨upper, lower, records, hcut, hcells, hnames, -, hanswers⟩ := ofCsv_placeholders ht
  rw [hrecords] at hcut
  obtain ⟨rfl, rfl, rfl⟩ : _ = upper ∧ _ = lower ∧ _ = records := by simpa using hcut
  have hcups : t.headers[1]? = some "Cups" := by
    rw [hheaders]
    rfl
  obtain ⟨c, hc, -⟩ := exists_column_of_header hcups
  refine ⟨t, ht, hrows, hcells, ?_, ?_, c, hc, ?_⟩
  · exact (hnames "Response" (by decide)).mpr ⟨0, by decide, by decide⟩
  · rw [exists_strip_header_iff (isRegular_of_ofCsv ht), hheaders]
    decide
  · refine ((hanswers 1 c hc).2 " Response" (by decide)).mpr ⟨["yes", " Response"], ?_, rfl⟩
    rw [hrows]
    decide

/-- A column is named by a placeholder, and a placeholder is counted as an answer of another. -/
theorem ofCsv_placeholder_surfaces :
    "Response" ∈ placeholders ∧ Text.strip " Response" ∈ placeholders ∧
      ∃ t, ofCsv "Tea,Response\n,\n Response,yes\n" = .ok t ∧
        t.headers = ["Tea", "Response"] ∧ t.rows = [[" Response", "yes"]] ∧
        t.columns.map (fun c => (c.name, c.categories)) =
          [("Tea", [⟨" Response", 1⟩]), ("Response", [⟨"yes", 1⟩])] := by
  have hok : (ofCsv "Tea,Response\n,\n Response,yes\n").toOption.map
      (fun t => (t.headers, t.rows)) = some (["Tea", "Response"], [[" Response", "yes"]]) := by
    decide
  obtain ⟨t, ht, hheaders, hrows⟩ := exists_ofCsv_eq hok
  refine ⟨by decide, by decide, t, ht, hheaders, hrows, ?_⟩
  rw [columns, hheaders]
  simp only [cells, hrows]
  decide

end SurveyReport.Table
