import SurveyReport.Directive.Printer
import SurveyReport.Proofs.Directive.Colours
import SurveyReport.Proofs.Text.LowerCase

/-!
# Fields and what they are read as

What is written into a field, a name, a number or a colour, is read from it again. What is read from a
field can be written into one.

Results:
* `split_intercalate`: fields with semicolons between them are split into the fields.
* `names_map`, `clean_of_mem_names`: names are read as they were written, and are always clean.
* `wholeNumber?_natural`, `colour?_printColour`: numbers and colours are read as they were written.
* `lower_clean_infix`: the lower-case form of a field has that of the cleaned field in it.
-/

namespace SurveyReport.Field

variable {field : List Char} {fields : List (List Char)} {c : Char}

/-! ## Splitting -/

theorem split_intercalate (hmark : ∀ field ∈ fields, ';' ∉ field) (hne : fields ≠ []) :
    split ([';'].intercalate fields) = fields :=
  List.splitOn_intercalate ';' hmark hne

theorem intercalate_split (source : List Char) : [';'].intercalate (split source) = source :=
  List.intercalate_splitOn ';'

theorem split_ne_nil (source : List Char) : split source ≠ [] := List.splitOn_ne_nil ';' source

theorem not_mem_of_mem_split {source : List Char} (h : field ∈ split source) : ';' ∉ field := by
  induction source generalizing field with
  | nil =>
    rw [List.mem_singleton.mp h]
    exact List.not_mem_nil
  | cons c source ih =>
    rw [split, List.splitOn_eq_splitOnP, List.splitOnP_cons_eq_if_modifyHead] at h
    obtain ⟨first, rest, hrest⟩ := List.exists_cons_of_ne_nil (split_ne_nil source)
    rw [split, List.splitOn_eq_splitOnP] at hrest
    simp only [split, List.splitOn_eq_splitOnP, hrest] at h ih
    split at h
    · rcases List.mem_cons.mp h with rfl | h
      · exact List.not_mem_nil
      · exact ih h
    · rename_i hmark
      rcases List.mem_cons.mp h with rfl | h
      · rw [List.mem_cons]
        rintro (heq | hmem)
        · exact hmark (beq_iff_eq.mpr heq.symm)
        · exact ih List.mem_cons_self hmem
      · exact ih (List.mem_cons_of_mem _ h)

/-! ## Padding -/

/-- The codes of the padding characters. -/
def paddingRanges : List (Nat × Nat) :=
  [(9, 13), (0x20, 0x20), (0x7d, 0x7d), (0x85, 0x85), (0xa0, 0xa0), (0x1680, 0x1680),
    (0x2000, 0x200a), (0x2028, 0x2029), (0x202f, 0x202f), (0x205f, 0x205f), (0x3000, 0x3000)]

theorem inRanges_of_isPadding (h : isPadding c) : Text.inRanges paddingRanges c.toNat := by
  have hcode : Text.isBlank c ∨ c.toNat = 0x7d := by
    simp only [isPadding, Bool.or_eq_true, beq_iff_eq] at h
    exact h.imp_right fun h => by rw [h]; rfl
  simp only [Text.isBlank, Bool.or_eq_true, Bool.and_eq_true, decide_eq_true_eq, beq_iff_eq] at hcode
  simp only [Text.inRanges, paddingRanges, List.any_cons, List.any_nil, Bool.or_eq_true,
    Bool.and_eq_true, decide_eq_true_eq]
  omega

theorem parts_of_isPadding (h : isPadding c) : Text.Parts c := by
  have hignorable : ∀ r ∈ paddingRanges, ∀ t ∈ Text.caseIgnorableRanges, r.2 < t.1 ∨ t.2 < r.1 := by
    decide +kernel
  have hcased : ∀ r ∈ paddingRanges, ∀ t ∈ Text.casedRanges, r.2 < t.1 ∨ t.2 < r.1 := by
    decide +kernel
  have hpadding := inRanges_of_isPadding h
  exact ⟨Text.inRanges_eq_false hignorable hpadding, Text.inRanges_eq_false hcased hpadding⟩

/-- The lower-case form of a field has that of the cleaned field in it. -/
theorem lower_clean_infix (field : List Char) :
    Text.lowerAfter [] (clean field) <:+: Text.lowerAfter [] field := by
  obtain ⟨lead, tail, hfield, hlead, htail⟩ := Text.exists_trim isPadding field
  have hinfix := Text.lowerAfter_infix (fun c hc => parts_of_isPadding (hlead c hc))
    (fun c hc => parts_of_isPadding (htail c hc)) (clean field)
  rwa [clean, ← hfield] at hinfix

/-! ## Names -/

theorem Clean.clean_eq {s : String} (h : Clean s) : clean s.toList = s.toList :=
  Text.trim_eq_self h.2.2

theorem clean_ofList_clean (hmark : ';' ∉ field) (hne : clean field ≠ []) :
    Clean (.ofList (clean field)) := by
  refine ⟨by simpa using hne, ?_, ?_⟩
  · rw [String.toList_ofList]
    exact fun h => hmark (Text.mem_of_mem_trim h)
  · rw [String.toList_ofList]
    exact Text.trimmed_trim isPadding field

/-- Clean names are read as they were written. -/
theorem names_map {names : List String} (h : ∀ name ∈ names, Clean name) :
    Field.names (names.map String.toList) = names := by
  have hclean : (names.map String.toList).map clean = names.map String.toList := by
    rw [List.map_map]
    exact List.map_congr_left fun name hname => (h name hname).clean_eq
  have hkept : (names.map String.toList).filter (!·.isEmpty) = names.map String.toList := by
    refine List.filter_eq_self.mpr fun field hfield => ?_
    obtain ⟨name, hname, rfl⟩ := List.mem_map.mp hfield
    simpa using (h name hname).1
  rw [Field.names, hclean, hkept]
  simp

theorem names_singleton (field : List Char) :
    Field.names [field] = if clean field = [] then [] else [.ofList (clean field)] := by
  by_cases h : clean field = [] <;> simp [Field.names, h]

/-- A name that is read is clean. -/
theorem clean_of_mem_names (hmark : ∀ field ∈ fields, ';' ∉ field) {name : String}
    (h : name ∈ Field.names fields) : Clean name := by
  obtain ⟨text, htext, rfl⟩ := List.mem_map.mp h
  obtain ⟨hmem, hne⟩ := List.mem_filter.mp htext
  obtain ⟨field, hfield, rfl⟩ := List.mem_map.mp hmem
  exact clean_ofList_clean (hmark field hfield) (by simpa using hne)

/-! ## Numbers -/

theorem not_isPadding_of_isDigit (h : c.isDigit) : ¬ isPadding c := by
  intro hpadding
  have hdigits : ∀ r ∈ paddingRanges, ∀ t ∈ [('0'.toNat, '9'.toNat)], r.2 < t.1 ∨ t.2 < r.1 := by
    decide
  have hnone := Text.inRanges_eq_false hdigits (inRanges_of_isPadding hpadding)
  have hdigit : Text.inRanges [('0'.toNat, '9'.toNat)] c.toNat := by
    simpa [Text.inRanges] using Char.isDigit_iff_toNat.mp h
  rw [hdigit] at hnone
  contradiction

theorem clean_natural (n : Nat) : clean (Decimal.natural n) = Decimal.natural n :=
  Text.trim_eq_self (Text.trimmed_of_forall fun _ hc =>
    not_isPadding_of_isDigit (isDigit_of_mem_natural hc))

theorem wholeNumber?_natural {n : Nat} (h : n < UInt32.size) :
    wholeNumber? (clean (Decimal.natural n)) = some n := by
  rw [clean_natural]
  exact digits?_natural (by omega)

/-! ## Colours -/

theorem spellsPart_natural (part : UInt8) : SpellsPart (Decimal.natural part.toNat) part :=
  ⟨[], _, [], (List.append_nil _).symm, by simp, Nat.toDigits_ne_nil,
    fun _ hc => isDigit_iff.mp (isDigit_of_mem_natural hc), placeSum_natural _⟩

theorem printColour_eq (c : Colour) :
    Directive.printColour c = Decimal.natural c.red.toNat ++
      ',' :: (Decimal.natural c.green.toNat ++ ',' :: (Decimal.natural c.blue.toNat ++ [])) := by
  simp [Directive.printColour, List.intercalate]

/-- A colour is read as it was written. -/
theorem colour?_printColour (c : Colour) : colour? (Directive.printColour c) = some c := by
  rw [colour?_eq_some_iff, printColour_eq, List.append_nil]
  exact ⟨_, _, _, rfl, spellsPart_natural c.red, spellsPart_natural c.green, spellsPart_natural c.blue⟩

theorem mem_printColour {c : Colour} {d : Char} (h : d ∈ Directive.printColour c) :
    d.isDigit ∨ d = ',' := by
  rw [printColour_eq] at h
  simp only [List.mem_append, List.mem_cons, List.not_mem_nil, or_false] at h
  rcases h with h | h | h | h | h
  · exact .inl (isDigit_of_mem_natural h)
  · exact .inr h
  · exact .inl (isDigit_of_mem_natural h)
  · exact .inr h
  · exact .inl (isDigit_of_mem_natural h)

theorem clean_printColour (c : Colour) :
    clean (Directive.printColour c) = Directive.printColour c := by
  refine Text.trim_eq_self (Text.trimmed_of_forall fun d hd => ?_)
  rcases mem_printColour hd with hdigit | rfl
  · exact not_isPadding_of_isDigit hdigit
  · decide

end SurveyReport.Field
