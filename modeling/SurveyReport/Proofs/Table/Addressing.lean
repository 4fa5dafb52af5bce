import SurveyReport.Proofs.Column.Lookup
import SurveyReport.Proofs.Directive.RoundTrip
import SurveyReport.Proofs.Outcome.OneColumn
import SurveyReport.Proofs.Table.Frequencies
import SurveyReport.Template

/-!
# Every imported column can be asked for

No two columns of an export have one name or one label, so that each of them is found by both. A
directive hands a name through as it is, if the name fits in its last field.

Results:
* `find?_columns_name`, `find?_columns_label`: names and labels find the columns of a table.
* `ofMarked_print`: a written directive is read between braces.
* `ofCsv_addressed`: the columns of every text that is imported can be asked for.
-/

namespace SurveyReport

namespace Table

/-! ## Names and labels -/

variable {t : Table} {position : Nat} {c : Column}

theorem map_name_columns (t : Table) : t.columns.map (·.name) = t.headers := by
  refine List.ext_getElem? fun i => ?_
  rw [List.getElem?_map, columns, List.getElem?_mapIdx]
  cases t.headers[i]? <;> rfl

theorem label_of_getElem? (h : t.columns[position]? = some c) : c.label = Column.labelAt position := by
  obtain ⟨header, -, rfl⟩ := Column.exists_eq_ofCells h
  rfl

/-- No two labels are equal, in any case of their letters. -/
theorem nodup_labels (t : Table) : (t.columns.map fun c => Text.lowerAscii c.label).Nodup := by
  rw [List.nodup_iff_getElem?_ne_getElem?]
  intro i j hij hj heq
  rw [List.length_map] at hj
  obtain ⟨c, hc⟩ : ∃ c, t.columns[i]? = some c := ⟨_, List.getElem?_eq_getElem (by omega)⟩
  obtain ⟨d, hd⟩ : ∃ d, t.columns[j]? = some d := ⟨_, List.getElem?_eq_getElem hj⟩
  rw [List.getElem?_map, List.getElem?_map, hc, hd] at heq
  have hlabels : Text.lowerAscii c.label = Text.lowerAscii d.label := Option.some.inj heq
  rw [label_of_getElem? hc, label_of_getElem? hd] at hlabels
  have hsame := Column.eq_of_lowerAscii_labelAt hlabels
  omega

/-- A name finds its column. -/
theorem find?_columns_name (hdistinct : t.headers.Nodup) (hc : c ∈ t.columns) :
    Column.find? t.columns c.name = some c :=
  Column.find?_name (by rwa [map_name_columns]) hc

/-- A label in any case of its letters finds its column, unless a column has the label as its name, in
    other cases perhaps; then it finds such a column. -/
theorem find?_columns_label (hc : t.columns[position]? = some c) {reference : String}
    (h : Text.lowerAscii reference = Text.lowerAscii (Column.labelAt position)) :
    ((∀ d ∈ t.columns, Text.lower d.name ≠ Text.lower (Column.labelAt position)) →
      Column.find? t.columns reference = some c) ∧
    ∀ d ∈ t.columns, Text.lower d.name = Text.lower (Column.labelAt position) →
      ∃ found, Column.find? t.columns reference = some found ∧
        Text.lower found.name = Text.lower (Column.labelAt position) := by
  rw [← Column.lower_eq_of_lowerAscii h]
  constructor
  · intro hnone
    rw [← label_of_getElem? hc] at h
    exact Column.find?_label t.nodup_labels (List.mem_of_getElem? hc) h hnone
  · intro d hd hlower
    exact Column.find?_of_lower hd hlower

end Table

/-! ## Directives over a name -/

namespace Field

/-- A name that a directive can end with: it holds no semicolon, does not begin with a closing brace,
    and does not end with a brace. -/
structure Fits (name : String) : Prop where
  no_semicolon : ';' ∉ name.toList
  head : name.toList.head? ≠ some '\x7d'
  last : ∀ brace, name.toList.getLast? = some brace → ¬ isBrace brace

/-- The conditions in a form that can be evaluated. -/
theorem fits_iff {name : String} : Fits name ↔
    ';' ∉ name.toList ∧ name.toList.head? ≠ some '\x7d' ∧
      name.toList.getLast?.all (fun brace => !isBrace brace) = true := by
  constructor
  · rintro ⟨hmark, hhead, hlast⟩
    refine ⟨hmark, hhead, ?_⟩
    cases hbrace : name.toList.getLast? with
    | none => rfl
    | some brace => simpa using hlast brace hbrace
  · rintro ⟨hmark, hhead, hlast⟩
    refine ⟨hmark, hhead, fun brace hbrace => ?_⟩
    simpa [hbrace] using hlast

instance (name : String) : Decidable (Fits name) := decidable_of_iff _ fits_iff.symm

/-- As the names of columns have no blanks around them, nothing is cut from a field with such a
    name. -/
theorem Fits.clean {name : String} (h : Fits name) (hproper : Table.Proper name) : Clean name := by
  obtain ⟨hne, hhead, hlast⟩ := hproper
  refine ⟨hne, h.no_semicolon, ?_, ?_⟩
  · intro d hd hpadding
    rcases Bool.or_eq_true_iff.mp hpadding with hblank | hbrace
    · exact hhead d hd hblank
    · exact h.head (by rw [hd, eq_of_beq hbrace])
  · intro d hd hpadding
    rcases Bool.or_eq_true_iff.mp hpadding with hblank | hbrace
    · exact hlast d hd hblank
    · exact h.last d hd (by rw [isBrace, hbrace, Bool.or_true])

/-- Behind the word that begins a text directive, such a name has no brace cut from its end. -/
theorem Fits.trimmed_text {name : String} (h : Fits name) (hne : name ≠ "") (between : String) :
    Text.Trimmed isBrace ("text" ++ between ++ name).toList := by
  have hnil : name.toList ≠ [] := fun hnil => hne (String.toList_eq_nil_iff.mp hnil)
  rw [String.toList_append]
  refine ⟨?_, fun d hd => h.last d ?_⟩
  · intro d hd
    obtain rfl : 't' = d := by simpa using hd
    decide
  · rwa [List.getLast?_append_of_ne_nil _ hnil] at hd

end Field

namespace Directive

/-- A well-formed directive is read from its written form between braces, if these are not its own. -/
theorem ofMarked_print {d : Directive} (h : d.WellFormed)
    (hbraces : Text.Trimmed Field.isBrace (print d).toList) {lead tail : List Char}
    (hlead : ∀ c ∈ lead, Field.isBrace c) (htail : ∀ c ∈ tail, Field.isBrace c) :
    ofMarked (.ofList (lead ++ (print d).toList ++ tail)) = d.withSource (print d) := by
  rw [ofMarked, String.toList_ofList, Field.stripMarkers, Text.trim_padded hlead htail hbraces,
    String.ofList_toList, parse_print h]

variable {name : String}

theorem print_text_count (name source : String) :
    print (.text ⟨.count, [name], source⟩) = "text;count;" ++ name := by
  have hfields : printFields (.text ⟨.count, [name], source⟩) =
      ["text".toList, "count".toList, name.toList] := rfl
  have hfront : [';'].intercalate ["text".toList, "count".toList, name.toList] =
      "text;count;".toList ++ name.toList := by
    simp [List.intercalate]
  rw [print, hfields, hfront, String.ofList_append, String.ofList_toList, String.ofList_toList]

/-- A text directive over a name is read as such, whatever braces stand inside the name. -/
theorem ofMarked_text_count (h : Field.Fits name) (hproper : Table.Proper name) :
    ofMarked ("\x7b\x7b\x7btext;count;" ++ name ++ "\x7d\x7d\x7d") =
      .text ⟨.count, [name], "text;count;" ++ name⟩ := by
  have hprint := print_text_count name ""
  have hwell : WellFormed (.text ⟨.count, [name], ""⟩) := by
    refine ⟨fun n hn => ?_, fun hvalue => by cases hvalue⟩
    rw [List.mem_singleton.mp hn]
    exact h.clean hproper
  have hbraces : Text.Trimmed Field.isBrace (print (.text ⟨.count, [name], ""⟩)).toList :=
    hprint ▸ h.trimmed_text hproper.1 ";count;"
  have hopen : ∀ d ∈ openMarker, Field.isBrace d := List.all_eq_true.mp rfl
  have hclose : ∀ d ∈ closeMarker, Field.isBrace d := List.all_eq_true.mp rfl
  have hread := ofMarked_print hwell hbraces hopen hclose
  have hmarked : String.ofList (openMarker ++ ("text;count;" ++ name).toList ++ closeMarker) =
      "\x7b\x7b\x7btext;count;" ++ name ++ "\x7d\x7d\x7d" := by
    simp [String.toList_append, openMarker, closeMarker, ← String.toList_inj]
  rw [hprint, hmarked] at hread
  exact hread

end Directive

/-- **Addressing.** Every column of an imported table is found by its name, and by its label in any case
    of its letters; only a column whose name is the label, in other cases perhaps, goes before that. A
    directive that asks for the counts of a column by its name gets them, if the name fits in a field. -/
theorem Table.ofCsv_addressed {text : String} {t : Table} (h : ofCsv text = .ok t) {position : Nat}
    {c : Column} (hc : t.columns[position]? = some c) :
    t.headers[position]? = some c.name ∧
      Column.find? t.columns c.name = some c ∧
      (∀ reference, Text.lowerAscii reference = Text.lowerAscii (Column.labelAt position) →
        ((∀ d ∈ t.columns, Text.lower d.name ≠ Text.lower (Column.labelAt position)) →
          Column.find? t.columns reference = some c) ∧
        ∀ d ∈ t.columns, Text.lower d.name = Text.lower (Column.labelAt position) →
          ∃ found, Column.find? t.columns reference = some found ∧
            Text.lower found.name = Text.lower (Column.labelAt position)) ∧
      (Field.Fits c.name → ∀ s,
        outcomeOf t.columns s ("\x7b\x7b\x7btext;count;" ++ c.name ++ "\x7d\x7d\x7d") =
          (.ok (.text (Summary.counts [c])), s)) := by
  have hregular := isRegular_of_ofCsv h
  have hheader : t.headers[position]? = some c.name := by
    obtain ⟨header, hheader, rfl⟩ := Column.exists_eq_ofCells hc
    exact hheader
  have hname := find?_columns_name hregular.distinct (List.mem_of_getElem? hc)
  refine ⟨hheader, hname, fun reference => find?_columns_label hc, fun hfits s => ?_⟩
  have hproper := hregular.proper c.name (List.mem_of_getElem? hheader)
  have hresolve : Column.resolve t.columns [c.name] ("text;count;" ++ c.name) = .ok [c] := by
    simp [Column.resolve, hname]
  rw [outcomeOf, Directive.ofMarked_text_count hfits hproper,
    Directive.outcome_text_singleton hresolve, Summary.text_count]
  rfl

/-- A column with braces in its name, and one whose name is the label of the other. -/
theorem Table.ofCsv_addressed_two_columns :
    ∃ t, ofCsv "\x7bAge\x7d?,a\nResponse,Response\n4,x\n" = .ok t ∧
      Column.find? t.columns "\x7bAge\x7d?" = t.columns[0]? ∧
      (∃ found, Column.find? t.columns "A" = some found ∧ Text.lower found.name = "a") ∧
      ∀ s, outcomeOf t.columns s "\x7b\x7b\x7btext;count;\x7bAge\x7d?\x7d\x7d\x7d" =
        (.ok (.text "1"), s) := by
  have hok : (ofCsv "\x7bAge\x7d?,a\nResponse,Response\n4,x\n").toOption.map
      (fun t => (t.headers, t.rows)) = some (["\x7bAge\x7d?", "a"], [["4", "x"]]) := by decide
  cases h : ofCsv "\x7bAge\x7d?,a\nResponse,Response\n4,x\n" with
  | error row =>
    rw [h] at hok
    cases hok
  | ok t =>
    rw [h] at hok
    obtain ⟨headers, rows, width⟩ := t
    obtain ⟨rfl, rfl⟩ : headers = ["\x7bAge\x7d?", "a"] ∧ rows = [["4", "x"]] := by
      simpa [Except.toOption] using hok
    have hc : (Table.mk ["\x7bAge\x7d?", "a"] [["4", "x"]] width).columns[0]? =
        some (.ofCells 0 "\x7bAge\x7d?" ["4"]) := rfl
    have hfits : Field.Fits "\x7bAge\x7d?" := by
      refine ⟨by decide, by decide, fun brace hbrace => ?_⟩
      obtain rfl : '?' = brace := by simpa using hbrace
      decide
    have hletter : Column.labelAt 0 = "A" := by
      simp [Column.labelAt, Column.labelLetters, Column.letter]
    obtain ⟨-, hname, hlabel, hcounts⟩ := ofCsv_addressed h hc
    rw [hletter] at hlabel
    obtain ⟨found, hfound, hlower⟩ := (hlabel "A" rfl).2 (.ofCells 1 "a" ["x"])
      (List.mem_of_getElem? (i := 1) rfl) (by decide)
    exact ⟨_, rfl, hname, ⟨found, hfound, hlower.trans (by decide)⟩, hcounts hfits⟩

end SurveyReport
