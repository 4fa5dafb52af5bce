import SurveyReport.Proofs.Directive.Fields

/-!
# Reading directives that were written

Every directive that the language can express is read from its written form, and every text that is read
without a complaint is read as such a directive. So the words by which the kinds and the statistics are
told apart mislead nobody who writes a directive in its own form.

Results:
* `parse_print`: a well-formed directive is read from its written form.
* `expressible_parse`: what is read is well-formed, unless it is invalid.
* `print_roundTrip`: both, and that reading, writing and reading once more is reading once.
-/

namespace SurveyReport

/-! ## Statistics -/

theorem Statistic.ofSelector_name (s : Statistic) :
    Statistic.ofSelector (Text.lowerAfter [] s.name.toList) = s := by
  cases s <;> decide

/-- A value is looked up when no word asks for a statistic. -/
theorem Statistic.ofSelector_eq_value_iff (selector : List Char) :
    Statistic.ofSelector selector = .value ↔
      ∀ word ∈ Statistic.words, ¬ word.toList <:+: selector := by
  simp only [← Text.occurs_iff_infix]
  simp only [ofSelector, Statistic.words, List.mem_cons, List.not_mem_nil, or_false, forall_eq_or_imp,
    forall_eq]
  split_ifs with hrange hmean hpercentage hcount
  · exact iff_of_false (by decide) fun h => h.1 hrange
  · exact iff_of_false (by decide) fun h => h.2.1 hmean
  · exact iff_of_false (by decide) fun h =>
      (Bool.or_eq_true_iff.mp hpercentage).elim h.2.2.1 h.2.2.2.1
  · exact iff_of_false (by decide) fun h => h.2.2.2.2 hcount
  · rw [Bool.or_eq_true_iff, not_or] at hpercentage
    exact iff_of_true rfl ⟨hrange, hmean, hpercentage.1, hpercentage.2, hcount⟩

namespace Directive

variable {fields : List (List Char)}

/-! ## The kinds of directives -/

theorem ofFields_chart (source : String) (kind : ChartKind) (selector : List Char)
    (fields : List (List Char)) :
    ofFields source (kind.name.toList :: selector :: fields) =
      parseChart source kind (Statistic.ofSelector (Text.lowerAfter [] selector)) fields := by
  cases kind <;> rfl

theorem ofFields_text (source : String) (selector : List Char) (fields : List (List Char)) :
    ofFields source ("text".toList :: selector :: fields) =
      parseText source (Statistic.ofSelector (Text.lowerAfter [] selector)) selector fields := rfl

theorem ofFields_palette (source : String) (selector : List Char) (fields : List (List Char)) :
    ofFields source ("colors".toList :: selector :: fields) =
      parsePalette source (selector :: fields) := rfl

/-! ## Reading what was written -/

theorem names_nameFields {names : List String} (h : ∀ name ∈ names, Field.Clean name) :
    Field.names (nameFields names) = names := by
  cases names with
  | nil => rfl
  | cons name names => exact Field.names_map h

theorem parseChart_print (source : String) (kind : ChartKind) (statistic : Statistic) {size : Nat}
    (hsize : size < UInt32.size) {references : List String}
    (hreferences : ∀ name ∈ references, Field.Clean name) {title : String}
    (htitle : title = "" ∨ Field.Clean title) :
    parseChart source kind statistic
        (Decimal.natural size :: (nameFields references ++ [title.toList])) =
      .chart ⟨kind, statistic, references, size, title, source⟩ := by
  have hclean : String.ofList (Field.clean title.toList) = title := by
    rcases htitle with rfl | htitle
    · rfl
    · rw [htitle.clean_eq, String.ofList_toList]
  simp [parseChart, Field.wholeNumber?_natural hsize, names_nameFields hreferences, hclean]

theorem coloursOf_print (colours : List Colour) :
    coloursOf (colours.map printColour) = .ok colours := by
  induction colours with
  | nil => rfl
  | cons c rest ih =>
    rw [List.map_cons, coloursOf, Field.colour?_printColour, ih]
    rfl

theorem parsePalette_print (source : String) {colours : List Colour} (h : colours ≠ []) :
    parsePalette source (colours.map printColour) = .palette colours := by
  have hclean : (colours.map printColour).map Field.clean = colours.map printColour := by
    rw [List.map_map]
    exact List.map_congr_left fun c _ => Field.clean_printColour c
  have hkept : (colours.map printColour).filter (!·.isEmpty) = colours.map printColour := by
    refine List.filter_eq_self.mpr fun field hfield => ?_
    obtain ⟨c, -, rfl⟩ := List.mem_map.mp hfield
    simp [Field.printColour_eq]
  rw [parsePalette, hclean, hkept, coloursOf_print]
  obtain ⟨c, rest, rfl⟩ := List.exists_cons_of_ne_nil h
  rfl

/-- The text of a value is read from the field that names its column, and without a column from an
    empty field. -/
theorem ofFields_value (source : String) {references : List String}
    (hlength : references.length ≤ 1) (hclean : ∀ name ∈ references, Field.Clean name)
    (hwords : ∀ name ∈ references, ∀ word ∈ Statistic.words,
      ¬ word.toList <:+: (Text.lower name).toList) :
    ofFields source ("text".toList :: nameFields references) =
      .text ⟨.value, references, source⟩ := by
  have hnames := names_nameFields hclean
  match references, hlength with
  | [], _ => rfl
  | [name], _ =>
    have hvalue : Statistic.ofSelector (Text.lowerAfter [] name.toList) = .value := by
      rw [Statistic.ofSelector_eq_value_iff]
      simpa [Text.lower] using hwords name (by simp)
    show ofFields source ["text".toList, name.toList] = _
    rw [ofFields_text, hvalue, parseText, if_pos rfl]
    exact congrArg (fun names => Directive.text ⟨.value, names, source⟩) hnames

/-- The fields of a well-formed directive make it up. -/
theorem ofFields_printFields (source : String) {d : Directive} (h : d.WellFormed) :
    ofFields source d.printFields = d.withSource source := by
  cases d with
  | chart r =>
    obtain ⟨kind, statistic, references, size, title, written⟩ := r
    obtain ⟨hsize, hreferences, htitle⟩ := h
    rw [printFields, ofFields_chart, Statistic.ofSelector_name,
      parseChart_print source kind statistic hsize hreferences htitle]
    rfl
  | text r =>
    obtain ⟨statistic, references, written⟩ := r
    obtain ⟨hreferences, hvalue⟩ := h
    rw [printFields]
    split
    · rename_i hstatistic
      obtain ⟨hlength, hwords⟩ := hvalue hstatistic
      rw [ofFields_value source hlength hreferences hwords, ← hstatistic]
      rfl
    · rename_i hstatistic
      rw [ofFields_text, Statistic.ofSelector_name, parseText, if_neg hstatistic,
        names_nameFields hreferences]
      rfl
  | palette colours =>
    obtain ⟨c, rest, rfl⟩ := List.exists_cons_of_ne_nil h
    rw [printFields, List.map_cons, ofFields_palette, ← List.map_cons, parsePalette_print source h]
    rfl
  | order names =>
    have hread : ofFields source (printFields (.order names)) = .order (Field.names (nameFields names)) := by
      cases names <;> rfl
    rw [hread, names_nameFields h]
    rfl
  | invalid cause written => exact h.elim

/-! ## The written form -/

theorem not_mem_nameFields {names : List String} (h : ∀ name ∈ names, Field.Clean name) :
    ∀ field ∈ nameFields names, ';' ∉ field := by
  cases names with
  | nil => simp [nameFields]
  | cons name names =>
    intro field hfield
    obtain ⟨name, hname, rfl⟩ := List.mem_map.mp hfield
    exact (h name hname).2.1

/-- No field of a well-formed directive holds a semicolon. -/
theorem not_mem_of_mem_printFields {d : Directive} (h : d.WellFormed) :
    ∀ field ∈ d.printFields, ';' ∉ field := by
  have hname : ∀ statistic : Statistic, ';' ∉ statistic.name.toList := by
    intro statistic
    cases statistic <;> decide
  intro field hfield
  cases d with
  | chart r =>
    obtain ⟨kind, statistic, references, size, title, written⟩ := r
    obtain ⟨-, hreferences, htitle⟩ := h
    simp only [printFields, List.mem_cons, List.mem_append, List.not_mem_nil, or_false] at hfield
    rcases hfield with rfl | rfl | rfl | hfield | rfl
    · cases kind <;> decide
    · exact hname statistic
    · exact fun hmem => absurd (Field.isDigit_of_mem_natural hmem) (by decide)
    · exact not_mem_nameFields hreferences field hfield
    · rcases htitle with rfl | htitle
      · exact List.not_mem_nil
      · exact htitle.2.1
  | text r =>
    obtain ⟨statistic, references, written⟩ := r
    rcases List.mem_cons.mp hfield with rfl | hfield
    · decide
    · split at hfield
      · exact not_mem_nameFields h.1 field hfield
      · rcases List.mem_cons.mp hfield with rfl | hfield
        · exact hname statistic
        · exact not_mem_nameFields h.1 field hfield
  | palette colours =>
    rcases List.mem_cons.mp hfield with rfl | hfield
    · decide
    · obtain ⟨c, -, rfl⟩ := List.mem_map.mp hfield
      exact fun hmem => (Field.mem_printColour hmem).elim (by decide) (by decide)
  | order names =>
    rcases List.mem_cons.mp hfield with rfl | hfield
    · decide
    · exact not_mem_nameFields h field hfield
  | invalid cause written => exact h.elim

/-- A well-formed directive is read from its written form. -/
theorem parse_print {d : Directive} (h : d.WellFormed) : parse (print d) = d.withSource (print d) := by
  have hne : d.printFields ≠ [] := by
    cases d with
    | invalid cause written => exact h.elim
    | _ => exact List.cons_ne_nil _ _
  have hsplit : Field.split (print d).toList = d.printFields := by
    rw [print, String.toList_ofList]
    exact Field.split_intercalate (not_mem_of_mem_printFields h) hne
  rw [parse, hsplit, ofFields_printFields _ h]

/-! ## What is read -/

/-- The directive is invalid, or one that the language can express. -/
def Expressible (source : String) (d : Directive) : Prop :=
  (∃ cause, d = .invalid cause source) ∨ d.WellFormed

theorem expressible_parsePalette (source : String) (fields : List (List Char)) :
    (parsePalette source fields).Expressible source := by
  unfold parsePalette
  split
  · exact .inl ⟨_, rfl⟩
  · exact .inl ⟨_, rfl⟩
  · rename_i hne _
    exact .inr fun h => hne h

theorem expressible_parseChart (source : String) (kind : ChartKind) (statistic : Statistic)
    (hmark : ∀ field ∈ fields, ';' ∉ field) :
    (parseChart source kind statistic fields).Expressible source := by
  unfold parseChart
  split
  · exact .inl ⟨_, rfl⟩
  · rename_i title rest hfields
    have hmem : ∀ field ∈ title :: rest, ';' ∉ field := fun field hfield =>
      hmark field (List.mem_reverse.mp (hfields ▸ hfield))
    have htitle : String.ofList (Field.clean title) = "" ∨
        Field.Clean (.ofList (Field.clean title)) := by
      by_cases hempty : Field.clean title = []
      · exact .inl (by simp [hempty])
      · exact .inr (Field.clean_ofList_clean (hmem title List.mem_cons_self) hempty)
    have hcolumns : ∀ field ∈ rest.reverse, ';' ∉ field := fun field hfield =>
      hmem field (List.mem_cons_of_mem _ (List.mem_reverse.mp hfield))
    have hopen : 0 < UInt32.size := by decide
    cases hrest : rest.reverse with
    | nil => exact .inr ⟨hopen, by simp [Field.names], htitle⟩
    | cons first others =>
      rw [hrest] at hcolumns
      cases hsize : Field.wholeNumber? (Field.clean first) with
      | none =>
        simp only [hsize]
        exact .inr ⟨hopen, fun name hname => Field.clean_of_mem_names hcolumns hname, htitle⟩
      | some size =>
        have hothers : ∀ field ∈ others, ';' ∉ field := fun field hfield =>
          hcolumns field (List.mem_cons_of_mem _ hfield)
        simp only [hsize]
        exact .inr ⟨Field.wholeNumber?_lt hsize,
          fun name hname => Field.clean_of_mem_names hothers hname, htitle⟩

theorem expressible_parseText (source : String) (selector : List Char)
    (hmark : ∀ field ∈ selector :: fields, ';' ∉ field) :
    (parseText source (Statistic.ofSelector (Text.lowerAfter [] selector)) selector
      fields).Expressible source := by
  have hselector : ∀ field ∈ [selector], ';' ∉ field := fun field hfield =>
    hmark field (List.mem_singleton.mp hfield ▸ List.mem_cons_self)
  have hfields : ∀ field ∈ fields, ';' ∉ field := fun field hfield =>
    hmark field (List.mem_cons_of_mem _ hfield)
  refine .inr ⟨fun name hname => ?_, fun hvalue => ?_⟩
  · dsimp only at hname
    split at hname
    · exact Field.clean_of_mem_names hselector hname
    · exact Field.clean_of_mem_names hfields hname
  · dsimp only at hvalue ⊢
    rw [if_pos hvalue]
    rw [Field.names_singleton]
    split
    · simp
    · refine ⟨Nat.le_refl 1, fun name hname word hword hoccurs => ?_⟩
      -- a word in the name would be a word in the field around it
      rw [List.mem_singleton.mp hname, Text.lower, String.toList_ofList, String.toList_ofList] at hoccurs
      exact (Statistic.ofSelector_eq_value_iff _).mp hvalue word hword
        (hoccurs.trans (Field.lower_clean_infix selector))

/-- Every text is read as a directive that the language can express, or is invalid. -/
theorem expressible_parse (source : String) : (parse source).Expressible source := by
  have hmark : ∀ field ∈ Field.split source.toList, ';' ∉ field :=
    fun field => Field.not_mem_of_mem_split
  unfold parse
  match Field.split source.toList, hmark with
  | [], _ => exact .inl ⟨_, rfl⟩
  | [_], _ => exact .inl ⟨_, rfl⟩
  | output :: selector :: fields, hmark =>
    have hrest : ∀ field ∈ selector :: fields, ';' ∉ field := fun field hfield =>
      hmark field (List.mem_cons_of_mem _ hfield)
    have hfields : ∀ field ∈ fields, ';' ∉ field := fun field hfield =>
      hrest field (List.mem_cons_of_mem _ hfield)
    unfold ofFields
    dsimp only
    split
    · exact expressible_parsePalette _ _
    · split
      · exact .inr fun name hname => Field.clean_of_mem_names hrest hname
      · split
        · exact expressible_parseChart _ _ _ hfields
        · split
          · exact expressible_parseChart _ _ _ hfields
          · exact expressible_parseText _ _ hrest

/-- **The language.** Every well-formed directive is read from its written form. Every text is read as a
    well-formed directive, or is invalid. And what is read is read again from its own written form. -/
theorem print_roundTrip :
    (∀ d : Directive, d.WellFormed → parse (print d) = d.withSource (print d)) ∧
      (∀ source, (∃ cause, parse source = .invalid cause source) ∨ (parse source).WellFormed) ∧
      ∀ source, parse (print (parse source)) = (parse source).withSource (print (parse source)) := by
  refine ⟨fun d => parse_print, expressible_parse, fun source => ?_⟩
  rcases expressible_parse source with ⟨cause, hinvalid⟩ | hwell
  · have hprint : print (.invalid cause source) = source := by
      rw [print, printFields, Field.intercalate_split, String.ofList_toList]
    rw [hinvalid, hprint, hinvalid]
    rfl
  · exact parse_print hwell

theorem print_roundTrip_number_as_reference :
    parse "bar;percentage;12;2020;" =
      .chart ⟨.bar, .percentage, ["2020"], 12, "", "bar;percentage;12;2020;"⟩ := by
  have hwell : WellFormed (.chart ⟨.bar, .percentage, ["2020"], 12, "", ""⟩) := by
    refine ⟨by decide, fun name hname => ?_, .inl rfl⟩
    rw [List.mem_singleton.mp hname]
    have hdigits : ∀ c ∈ "2020".toList, c.isDigit := List.all_eq_true.mp rfl
    exact ⟨by decide, by decide, Text.trimmed_of_forall fun c hc =>
      Field.not_isPadding_of_isDigit (hdigits c hc)⟩
  have hprint : print (.chart ⟨.bar, .percentage, ["2020"], 12, "", ""⟩) =
      "bar;percentage;12;2020;" := by decide
  have hread := print_roundTrip.1 _ hwell
  rwa [hprint] at hread

end Directive

end SurveyReport
