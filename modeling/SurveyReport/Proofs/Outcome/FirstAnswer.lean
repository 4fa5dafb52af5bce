import SurveyReport.Proofs.Table.Addressing
import SurveyReport.Proofs.Table.Answers

/-!
# Asking for a value by a name

A text directive with nothing but the name of a column asks for the least answer of the column. The
name stands where other directives have the word for a statistic. If such a word is a part of the name,
in any case of its letters, the directive asks for this statistic over no column at all.

Results:
* `ofMarked_text_name`: what a directive with nothing but a name asks for.
* `ofCsv_value`: what it comes to over the columns of every text that is imported.
-/

namespace SurveyReport

variable {name : String}

/-- Some word that asks for a statistic is a part of the name, in any case of its letters. -/
def Statistic.AskedIn (name : String) : Prop :=
  ∃ word ∈ Statistic.words, word.toList <:+: (Text.lower name).toList

instance (name : String) : Decidable (Statistic.AskedIn name) :=
  decidable_of_iff (∃ word ∈ Statistic.words, Text.occurs word.toList (Text.lower name).toList)
    (by simp only [Statistic.AskedIn, Text.occurs_iff_infix])

theorem Statistic.ofSelector_name_eq_value_iff (name : String) :
    Statistic.ofSelector (Text.lowerAfter [] name.toList) = .value ↔ ¬ Statistic.AskedIn name := by
  rw [Statistic.ofSelector_eq_value_iff, Statistic.AskedIn, Text.lower, String.toList_ofList]
  simp

namespace Directive

/-- A directive with nothing but a name has it for its only reference, or asks for a statistic over no
    column. -/
theorem ofMarked_text_name (h : Field.Fits name) (hproper : Table.Proper name) :
    ofMarked ("text;" ++ name) =
      parseText ("text;" ++ name) (Statistic.ofSelector (Text.lowerAfter [] name.toList))
        name.toList [] := by
  have hbraces : Text.Trimmed Field.isBrace ("text;" ++ name).toList :=
    h.trimmed_text hproper.1 ";"
  have hfields : Field.split ("text;" ++ name).toList = ["text".toList, name.toList] := by
    have hjoin : ("text;" ++ name).toList = [';'].intercalate ["text".toList, name.toList] := by
      simp [List.intercalate]
    rw [hjoin]
    refine Field.split_intercalate (fun field hfield => ?_) (by simp)
    rcases List.mem_cons.mp hfield with rfl | hfield
    · decide
    · rw [List.mem_singleton.mp hfield]
      exact h.no_semicolon
  rw [ofMarked, Field.stripMarkers, Text.trim_eq_self hbraces, String.ofList_toList, parse, hfields,
    ofFields_text]

/-- With the word for a statistic in it, a name is no reference, whatever the columns are. -/
theorem outcomeOf_text_name_of_askedIn (h : Field.Fits name) (hproper : Table.Proper name)
    (hasked : Statistic.AskedIn name) (columns : List Column) (s : Setting) :
    outcomeOf columns s ("text;" ++ name) = (.error (.noColumns ("text;" ++ name)), s) := by
  have hstatistic : Statistic.ofSelector (Text.lowerAfter [] name.toList) ≠ .value := fun hvalue =>
    (Statistic.ofSelector_name_eq_value_iff name).mp hvalue hasked
  rw [outcomeOf, ofMarked_text_name h hproper, parseText, if_neg hstatistic]
  rfl

/-- Without such a word it is the reference of the value that is looked up. -/
theorem ofMarked_text_name_of_not_askedIn (h : Field.Fits name) (hproper : Table.Proper name)
    (hasked : ¬ Statistic.AskedIn name) :
    ofMarked ("text;" ++ name) = .text ⟨.value, [name], "text;" ++ name⟩ := by
  have hstatistic := (Statistic.ofSelector_name_eq_value_iff name).mpr hasked
  have hclean : ∀ other ∈ [name], Field.Clean other := by simpa using h.clean hproper
  have hnames : Field.names [name.toList] = [name] := Field.names_map hclean
  rw [ofMarked_text_name h hproper, parseText, hstatistic, if_pos rfl, hnames]

end Directive

/-- **Values by names.** A directive with nothing but the name of a column comes to the least answer of
    the column, or says that the column has none, if no word that asks for a statistic is a part of the
    name. If one is, it finds no column, whatever the columns are. -/
theorem Table.ofCsv_value {text : String} {t : Table} (h : ofCsv text = .ok t) {position : Nat}
    (hname : t.headers[position]? = some name) (hfits : Field.Fits name) (s : Setting) :
    (¬ Statistic.AskedIn name →
      (∃ value, t.IsLeastAnswer position value ∧
        outcomeOf t.columns s ("text;" ++ name) = (.ok (.text value), s)) ∨
      (∀ value, ¬ t.IsAnswer position value) ∧
        outcomeOf t.columns s ("text;" ++ name) = (.error (.noValues name), s)) ∧
    (Statistic.AskedIn name → ∀ columns,
      outcomeOf columns s ("text;" ++ name) = (.error (.noColumns ("text;" ++ name)), s)) := by
  have hregular := isRegular_of_ofCsv h
  have hproper := hregular.proper name (List.mem_of_getElem? hname)
  refine ⟨fun hasked => ?_, fun hasked columns =>
    Directive.outcomeOf_text_name_of_askedIn hfits hproper hasked columns s⟩
  obtain ⟨c, hc, hcounts⟩ := counts_columns hname hproper.1
  obtain rfl := hcounts.name
  have hfind := find?_columns_name hregular.distinct (List.mem_of_getElem? hc)
  have hresolve : Column.resolve t.columns [c.name] ("text;" ++ c.name) = .ok [c] := by
    simp [Column.resolve, hfind]
  have houtcome : outcomeOf t.columns s ("text;" ++ c.name) =
      ((Summary.firstValue [c] ("text;" ++ c.name)).map .text, s) := by
    rw [outcomeOf, Directive.ofMarked_text_name_of_not_askedIn hfits hproper hasked,
      Directive.outcome_text_singleton hresolve]
    rfl
  rw [houtcome]
  rcases firstValue_columns hc ("text;" ++ c.name) with ⟨value, hleast, hvalue⟩ | ⟨hnone, hvalue⟩
  · exact .inl ⟨value, hleast, by rw [hvalue]; rfl⟩
  · exact .inr ⟨hnone, by rw [hvalue]; rfl⟩

/-- A column with two answers, one without answers, and one with the word for a statistic in its name. -/
theorem Table.ofCsv_value_three_columns :
    ∃ t, ofCsv "Tea,Cups,Country\n,,\nyes,,Peru\nno,Cups,Chile\n" = .ok t ∧
      outcomeOf t.columns .initial "text;Tea" = (.ok (.text "no"), .initial) ∧
      outcomeOf t.columns .initial "text;Cups" = (.error (.noValues "Cups"), .initial) ∧
      outcomeOf [] .initial "text;Country" = (.error (.noColumns "text;Country"), .initial) := by
  have hok : (ofCsv "Tea,Cups,Country\n,,\nyes,,Peru\nno,Cups,Chile\n").toOption.map
      (fun t => (t.headers, t.rows)) =
      some (["Tea", "Cups", "Country"], [["yes", "", "Peru"], ["no", "Cups", "Chile"]]) := by
    decide
  obtain ⟨t, ht, hheaders, hrows⟩ := exists_ofCsv_eq hok
  have hfirst : t.headers[0]? = some "Tea" := by rw [hheaders]; rfl
  have hsecond : t.headers[1]? = some "Cups" := by rw [hheaders]; rfl
  have hthird : t.headers[2]? = some "Country" := by rw [hheaders]; rfl
  have htea := (ofCsv_value ht hfirst (by decide) .initial).1 (by decide)
  have hcups := (ofCsv_value ht hsecond (by decide) .initial).1 (by decide)
  have hcountry := (ofCsv_value ht hthird (by decide) .initial).2 (by decide)
  have hno : t.IsAnswer 0 "no" := ⟨by decide, by rw [hheaders]; decide, by rw [hrows]; decide⟩
  have hleast : ∀ value, t.IsLeastAnswer 0 value → value = "no" := by
    rintro value ⟨⟨-, -, row, hrow, hvalue⟩, hle⟩
    have hyes : ¬ Text.bytes "yes" ≤ Text.bytes "no" := by decide
    have hbefore := hle "no" hno
    rw [hrows] at hrow
    grind
  have hnone : ∀ value, ¬ t.IsAnswer 1 value := by
    rintro value ⟨hempty, hheader, row, hrow, hvalue⟩
    rw [hheaders] at hheader
    rw [hrows] at hrow
    grind
  refine ⟨t, ht, ?_, ?_, hcountry []⟩
  · obtain ⟨value, hvalue, htext⟩ := htea.resolve_right fun ⟨hall, _⟩ => hall "no" hno
    rwa [hleast value hvalue] at htext
  · exact (hcups.resolve_left fun ⟨value, hvalue, _⟩ => hnone value hvalue.isAnswer).2

end SurveyReport
