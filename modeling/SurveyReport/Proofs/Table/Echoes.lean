import SurveyReport.Proofs.Table.Renaming

/-!
# Header rows that stand among the rows

A row that repeats the second header row is not meant to give answers, and its cells are compared with
the names of the columns to tell. But a name is a cell without the blanks around it, and with suffixes
where it was in use already. So the row gives no answers exactly where the cell and the name agree, and
elsewhere the cell is one more answer.

Results:
* `ofCells_repeated`, `countsOnceMore_ofCells`: what one more cell does to a column.
* `NamesAll.headers_build_eq_iff`: when the names of the columns are the cells of the header row.
* `cells_build_repeated`: where the cells of a repeated header row stand.
* `columns_build_repeated_eq_iff`: when a repeated header row changes no column.
* `ofCsv_repeated_header`: what a repeated header row does to the columns of an export.
-/

namespace SurveyReport

/-! ## One more cell -/

/-- The column `d` counts an answer once more than `c`, and nothing else differs. -/
structure Column.CountsOnceMore (answer : String) (c d : Column) : Prop where
  name : d.name = c.name
  label : d.label = c.label
  countOf : ∀ value, d.countOf value = c.countOf value + if value = answer then 1 else 0
  unknown : d.unknown = c.unknown
  total : d.total = c.total + 1

theorem Column.CountsOnceMore.ne {answer : String} {c d : Column} (h : CountsOnceMore answer c d) :
    d ≠ c := by
  rintro rfl
  have htotal := h.total
  omega

section Cells

variable {header cell : String} (index : Nat) (above below : List String)

/-- A cell with the name of the column changes nothing. -/
theorem Column.ofCells_repeated (h : header ≠ "") :
    ofCells index header (above ++ header :: below) = ofCells index header (above ++ below) := by
  simp [ofCells, h]

/-- Any other cell that is not empty is counted as an answer. -/
theorem Column.countsOnceMore_ofCells (hheader : header ≠ "") (hempty : cell ≠ "")
    (hne : cell ≠ header) :
    CountsOnceMore cell (ofCells index header (above ++ below))
      (ofCells index header (above ++ cell :: below)) where
  name := rfl
  label := rfl
  countOf := by
    intro value
    rw [countOf_ofCells, countOf_ofCells]
    by_cases hvalue : value = cell
    · subst hvalue
      simp [hempty, hne]
      omega
    · simp [hvalue, List.count_cons_of_ne (Ne.symm hvalue)]
  unknown := by
    change (above ++ cell :: below).count "" = (above ++ below).count ""
    simp [List.count_append, List.count_cons_of_ne hempty]
  total := by
    have hlength := length_cells hheader index (above ++ below)
    have hlength' := length_cells hheader index (above ++ cell :: below)
    simp only [List.count_append, List.count_cons_of_ne hne, List.length_append,
      List.length_cons] at hlength hlength'
    omega

end Cells

namespace Table

variable {first second : List String} {above below : List (List Char)} {lower : List Char}

/-! ## Header rows that name all columns -/

/-- The cells of the second header row at the positions of the columns. -/
def headerCells (first second : List String) : List String :=
  (headings first second).map fun column => second.getD column.1 ""

/-- The second header row gives every column its name. -/
def NamesAll (first second : List String) : Prop :=
  ∀ column ∈ headings first second, NamesColumn second column.1

instance (first second : List String) : Decidable (NamesAll first second) :=
  inferInstanceAs (Decidable (∀ column ∈ headings first second, _))

/-- A cell that names a column is an answer as it is. -/
theorem NamesColumn.answer_cell {position : Nat} (h : NamesColumn second position) :
    second.getD position "" ≠ "" ∧ answer second position = second.getD position "" := by
  have hstrip : ∀ token ∈ placeholders, Text.strip token ∈ placeholders := by decide
  refine ⟨fun hcell => h.1 (by rw [hcell]; decide), ?_⟩
  rw [answer_eq, if_neg fun hplaceholder => h.2 (hstrip _ hplaceholder)]

theorem NamesColumn.ne_nil {position : Nat} (h : NamesColumn (Csv.cells lower) position) :
    lower ≠ [] := by
  rintro rfl
  have hcells : Csv.cells [] = [] := rfl
  have hblank : Text.strip "" = "" := by decide
  exact h.1 (by rw [hcells, List.getD_nil, hblank])

namespace NamesAll

variable (h : NamesAll first second)

include h

theorem exists_heading {position : Nat} {cell : String}
    (hcell : (headerCells first second)[position]? = some cell) :
    ∃ column, (headings first second)[position]? = some column ∧ NamesColumn second column.1 ∧
      second.getD column.1 "" = cell := by
  rw [headerCells, List.getElem?_map] at hcell
  obtain ⟨column, hcolumn, hcell⟩ := Option.map_eq_some_iff.mp hcell
  exact ⟨column, hcolumn, h column (List.mem_of_getElem? hcolumn), hcell⟩

theorem headers_build (records : List (List Char)) :
    (build first second records).headers = distinct ((headerCells first second).map Text.strip) := by
  rw [build_headers, headerCells, List.map_map]
  congr 1
  refine List.map_congr_left fun ⟨position, name⟩ hcolumn => ?_
  obtain ⟨-, hheading⟩ := (mem_headings first second position name).mp hcolumn
  rw [heading_getElem?, if_pos (h _ hcolumn)] at hheading
  exact (Option.some.inj hheading).symm

theorem length_headers_build (records : List (List Char)) :
    (build first second records).headers.length = (headerCells first second).length := by
  rw [h.headers_build, distinct_length, List.length_map]

/-- The names of the columns are the cells of the header row when these have no blanks around them and
    no two of them are equal. -/
theorem headers_build_eq_iff (records : List (List Char)) :
    (build first second records).headers = headerCells first second ↔
      (∀ cell ∈ headerCells first second, Text.strip cell = cell) ∧
        (headerCells first second).Nodup := by
  constructor
  · intro hsame
    have hproper := @proper_of_mem_headers first second records
    have hnodup := (isRegular_build first second records).distinct
    rw [hsame] at hproper hnodup
    exact ⟨fun cell hcell => (hproper cell hcell).strip_eq, hnodup⟩
  · rintro ⟨htrimmed, hnodup⟩
    rw [h.headers_build, List.map_congr_left htrimmed, List.map_id', distinct_eq_self hnodup]

end NamesAll

/-! ## Columns -/

section Repeated

variable (h : NamesAll first (Csv.cells lower))
  (hrows : above.length ≤ (build first (Csv.cells lower) (above ++ below)).rows.length)

include h hrows in
/-- A repeated header row adds its cells, and moves no other ones. -/
theorem cells_build_repeated {position : Nat} {cell : String}
    (hcell : (headerCells first (Csv.cells lower))[position]? = some cell) :
    ∃ front back,
      (build first (Csv.cells lower) (above ++ below)).cells position = front ++ back ∧
      (build first (Csv.cells lower) (above ++ lower :: below)).cells position =
        front ++ cell :: back := by
  obtain ⟨column, hcolumn, hnames, rfl⟩ := h.exists_heading hcell
  rw [build_rows, List.length_map] at hrows
  refine ⟨above.map fun record => answer (Csv.cells record) column.1,
    (dropBlankEnd below).map fun record => answer (Csv.cells record) column.1, ?_, ?_⟩
  · rw [cells_build hcolumn, dropBlankEnd_append_of_le hrows, List.map_append]
  · rw [cells_build hcolumn, dropBlankEnd_append_cons hnames.ne_nil, List.map_append,
      List.map_cons, hnames.answer_cell.2]

include h hrows in
/-- A repeated header row changes a column only where the name is not the cell of the header row. -/
theorem column_build_repeated {position : Nat} {c : Column}
    (hc : (build first (Csv.cells lower) (above ++ below)).columns[position]? = some c) :
    ∃ cell d, (headerCells first (Csv.cells lower))[position]? = some cell ∧
      (build first (Csv.cells lower) (above ++ lower :: below)).columns[position]? = some d ∧
      (cell = c.name → d = c) ∧ (cell ≠ c.name → Column.CountsOnceMore cell c d) := by
  obtain ⟨header, hheader, rfl⟩ := Column.exists_eq_ofCells hc
  obtain ⟨hposition, -⟩ := List.getElem?_eq_some_iff.mp hheader
  rw [h.length_headers_build] at hposition
  have hcell := List.getElem?_eq_getElem hposition
  obtain ⟨column, -, hnames, hempty⟩ := h.exists_heading hcell
  obtain ⟨front, back, hcells, hcells'⟩ := cells_build_repeated h hrows hcell
  have hproper := proper_of_mem_headers header (List.mem_of_getElem? hheader)
  refine ⟨_, _, hcell, getElem?_columns hheader, fun hname => ?_, fun hname => ?_⟩
  · rw [hcells, hcells', hname]
    exact Column.ofCells_repeated _ _ _ hproper.1
  · rw [hcells, hcells']
    exact Column.countsOnceMore_ofCells _ _ _ hproper.1 (hempty ▸ hnames.answer_cell.1) hname

include h hrows in
/-- A repeated header row changes no column when the names are the cells of the header row, and only
    then. -/
theorem columns_build_repeated_eq_iff :
    (build first (Csv.cells lower) (above ++ lower :: below)).columns =
        (build first (Csv.cells lower) (above ++ below)).columns ↔
      (build first (Csv.cells lower) (above ++ below)).headers =
        headerCells first (Csv.cells lower) := by
  constructor
  · intro hsame
    refine List.ext_getElem (h.length_headers_build _) fun position hheader hposition => ?_
    have hc := getElem?_columns (List.getElem?_eq_getElem hheader)
    obtain ⟨cell, d, hcell, hd, -, hmore⟩ := column_build_repeated h hrows hc
    obtain rfl : _ = d := Option.some.inj (hc.symm.trans (hsame ▸ hd))
    obtain rfl : _ = cell := Option.some.inj ((List.getElem?_eq_getElem hposition).symm.trans hcell)
    by_contra hne
    exact (hmore (Ne.symm hne)).ne rfl
  · intro hsame
    have hlength : (build first (Csv.cells lower) (above ++ lower :: below)).columns.length =
        (build first (Csv.cells lower) (above ++ below)).columns.length := by
      rw [length_columns, length_columns]
      rfl
    refine List.ext_getElem hlength fun position hposition' hposition => ?_
    have hc := List.getElem?_eq_getElem hposition
    obtain ⟨cell, d, hcell, hd, hkept, -⟩ := column_build_repeated h hrows hc
    obtain ⟨header, hheader, hcolumn⟩ := Column.exists_eq_ofCells hc
    obtain rfl : header = cell := Option.some.inj (hheader.symm.trans (hsame ▸ hcell))
    rw [← hkept (by rw [hcolumn]; rfl)]
    exact (List.getElem?_eq_some_iff.mp hd).2

end Repeated

/-- **Repeated header rows.** The second header row names all columns, and another row repeats it: it
    stands above the last row that is not blank, or right below. Then the names of the columns stay the
    same. A column stays the same if its name is the cell of the header row, and else counts this cell
    once more as an answer, and nothing else differently. So the columns stay the same exactly if no
    cell of the header row has blanks around it and no two of them are equal. -/
theorem ofCsv_repeated_header {text text' : String} {t : Table} (h : ofCsv text = .ok t)
    {upper lower : List Char} {above below : List (List Char)}
    (hrecords : Csv.records text.toList = upper :: lower :: (above ++ below))
    (hrecords' : Csv.records text'.toList = upper :: lower :: (above ++ lower :: below))
    (hnames : NamesAll (Csv.cells upper) (Csv.cells lower)) (hrows : above.length ≤ t.rows.length) :
    ∃ t', ofCsv text' = .ok t' ∧ t'.headers = t.headers ∧
      (t'.columns = t.columns ↔
        (∀ cell ∈ headerCells (Csv.cells upper) (Csv.cells lower), Text.strip cell = cell) ∧
          (headerCells (Csv.cells upper) (Csv.cells lower)).Nodup) ∧
      ∀ (position : Nat) (c : Column), t.columns[position]? = some c →
        ∃ cell d, (headerCells (Csv.cells upper) (Csv.cells lower))[position]? = some cell ∧
          t'.columns[position]? = some d ∧
          (cell = c.name → d = c) ∧ (cell ≠ c.name → Column.CountsOnceMore cell c d) := by
  have hbuild : ofCsv text = .ok (build (Csv.cells upper) (Csv.cells lower) (above ++ below)) := by
    rw [ofCsv, hrecords]
  have hbuild' : ofCsv text' =
      .ok (build (Csv.cells upper) (Csv.cells lower) (above ++ lower :: below)) := by
    rw [ofCsv, hrecords']
  obtain rfl := Except.ok.inj (h.symm.trans hbuild)
  refine ⟨_, hbuild', rfl, ?_, fun position c hc =>
    column_build_repeated hnames hrows hc⟩
  rw [columns_build_repeated_eq_iff hnames hrows, hnames.headers_build_eq_iff]

/-- A header row with a name twice and one behind a blank, and then the same without these. -/
theorem ofCsv_repeated_header_tea :
    ∃ t t' u u', ofCsv "Q,R,S\nTea,Tea, Cups\nyes,no,2\n" = .ok t ∧
      ofCsv "Q,R,S\nTea,Tea, Cups\nTea,Tea, Cups\nyes,no,2\n" = .ok t' ∧
      ofCsv "Q,R,\nTea,Cups,\nyes,2\n" = .ok u ∧ ofCsv "Q,R,\nTea,Cups,\nyes,2\nTea,Cups,\n" = .ok u' ∧
      t'.columns[0]? = t.columns[0]? ∧
      (∃ c d, t.columns[1]? = some c ∧ t'.columns[1]? = some d ∧ Column.CountsOnceMore "Tea" c d) ∧
      (∃ c d, t.columns[2]? = some c ∧ t'.columns[2]? = some d ∧ Column.CountsOnceMore " Cups" c d) ∧
      u'.columns = u.columns := by
  have hok : (ofCsv "Q,R,S\nTea,Tea, Cups\nyes,no,2\n").toOption.map
      (fun t => (t.headers, t.rows)) =
      some (["Tea", "Teacopy", "Cups"], [["yes", "no", "2"]]) := by decide
  have hok' : (ofCsv "Q,R,\nTea,Cups,\nyes,2\n").toOption.map (fun t => (t.headers, t.rows)) =
      some (["Tea", "Cups"], [["yes", "2"]]) := by decide
  obtain ⟨t, ht, hheaders, hrows⟩ := exists_ofCsv_eq hok
  obtain ⟨u, hu, huheaders, hurows⟩ := exists_ofCsv_eq hok'
  have hcut : Csv.records "Q,R,S\nTea,Tea, Cups\nyes,no,2\n".toList =
      "Q,R,S".toList :: "Tea,Tea, Cups".toList :: ([] ++ ["yes,no,2".toList]) := by decide
  have hcut' : Csv.records "Q,R,S\nTea,Tea, Cups\nTea,Tea, Cups\nyes,no,2\n".toList =
      "Q,R,S".toList :: "Tea,Tea, Cups".toList ::
        ([] ++ "Tea,Tea, Cups".toList :: ["yes,no,2".toList]) := by decide
  obtain ⟨t', ht', -, -, hcolumns⟩ :=
    ofCsv_repeated_header ht hcut hcut' (by decide) (Nat.zero_le _)
  have hplain : Csv.records "Q,R,\nTea,Cups,\nyes,2\n".toList =
      "Q,R,".toList :: "Tea,Cups,".toList :: (["yes,2".toList] ++ []) := by decide
  have hplain' : Csv.records "Q,R,\nTea,Cups,\nyes,2\nTea,Cups,\n".toList =
      "Q,R,".toList :: "Tea,Cups,".toList :: (["yes,2".toList] ++ "Tea,Cups,".toList :: []) := by
    decide
  obtain ⟨u', hu', -, hsame, -⟩ :=
    ofCsv_repeated_header hu hplain hplain' (by decide) (by rw [hurows]; decide)
  have hfirst : t.headers[0]? = some "Tea" := by rw [hheaders]; rfl
  have hsecond : t.headers[1]? = some "Teacopy" := by rw [hheaders]; rfl
  have hthird : t.headers[2]? = some "Cups" := by rw [hheaders]; rfl
  have hcells : headerCells (Csv.cells "Q,R,S".toList) (Csv.cells "Tea,Tea, Cups".toList) =
      ["Tea", "Tea", " Cups"] := by decide
  obtain ⟨cell₀, d₀, hcell₀, hd₀, hkept, -⟩ := hcolumns 0 _ (getElem?_columns hfirst)
  obtain ⟨cell₁, d₁, hcell₁, hd₁, -, hmore₁⟩ := hcolumns 1 _ (getElem?_columns hsecond)
  obtain ⟨cell₂, d₂, hcell₂, hd₂, -, hmore₂⟩ := hcolumns 2 _ (getElem?_columns hthird)
  rw [hcells] at hcell₀ hcell₁ hcell₂
  obtain rfl := Option.some.inj hcell₀
  obtain rfl := Option.some.inj hcell₁
  obtain rfl := Option.some.inj hcell₂
  refine ⟨t, t', u, u', ht, ht', hu, hu', ?_, ?_, ?_, hsame.mpr (by decide)⟩
  · rw [hd₀, hkept rfl, getElem?_columns hfirst]
  · exact ⟨_, d₁, getElem?_columns hsecond, hd₁, hmore₁ (by change "Tea" ≠ "Teacopy"; decide)⟩
  · exact ⟨_, d₂, getElem?_columns hthird, hd₂, hmore₂ (by change " Cups" ≠ "Cups"; decide)⟩

/-- The cells of a repeated header row are answers of two columns. -/
theorem ofCsv_repeated_header_counted :
    ∃ t t', ofCsv "Q,R,S\nTea,Tea, Cups\nyes,no,2\n" = .ok t ∧
      ofCsv "Q,R,S\nTea,Tea, Cups\nyes,no,2\nTea,Tea, Cups\n" = .ok t' ∧
      NamesAll ["Q", "R", "S"] ["Tea", "Tea", " Cups"] ∧
      t.columns.map (·.categories) = [[⟨"yes", 1⟩], [⟨"no", 1⟩], [⟨"2", 1⟩]] ∧
      t'.columns.map (·.categories) =
        [[⟨"yes", 1⟩], [⟨"Tea", 1⟩, ⟨"no", 1⟩], [⟨" Cups", 1⟩, ⟨"2", 1⟩]] := by
  have hok : (ofCsv "Q,R,S\nTea,Tea, Cups\nyes,no,2\n").toOption.map
      (fun t => (t.headers, t.rows)) =
      some (["Tea", "Teacopy", "Cups"], [["yes", "no", "2"]]) := by decide
  have hok' : (ofCsv "Q,R,S\nTea,Tea, Cups\nyes,no,2\nTea,Tea, Cups\n").toOption.map
      (fun t => (t.headers, t.rows)) =
      some (["Tea", "Teacopy", "Cups"], [["yes", "no", "2"], ["Tea", "Tea", " Cups"]]) := by decide
  obtain ⟨t, ht, hheaders, hrows⟩ := exists_ofCsv_eq hok
  obtain ⟨t', ht', hheaders', hrows'⟩ := exists_ofCsv_eq hok'
  refine ⟨t, t', ht, ht', by decide, ?_, ?_⟩
  · rw [columns, hheaders]
    simp only [cells, hrows]
    decide
  · rw [columns, hheaders']
    simp only [cells, hrows']
    decide

end Table

end SurveyReport
