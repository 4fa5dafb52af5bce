import Mathlib.Data.List.Forall2
import Mathlib.Tactic.ByContra
import SurveyReport.Directive.Parser
import SurveyReport.Proofs.Directive.Colours
import SurveyReport.Proofs.Text.LowerCase

/-!
# Palettes that are declared

What asks for a palette declares it with all of its colours or is invalid: a palette with one bad colour
is not declared in part, and there is none without colours.

Results:
* `coloursOf_eq_ok_iff`: fields are colours when each of them is one.
* `parse_of_asksPalette`, `exists_asksPalette`: what asks for a palette is read as one, and nothing
  else is.
* `colours?_parse_eq_some_iff`: what has to be written to declare some colours.
* `parse_of_badPalette`: one bad colour, or none at all, makes a palette invalid.
* `parse_palette_iff`: the texts that declare a palette, by the forms of their fields.
-/

namespace SurveyReport.Directive

/-! ## Colours -/

/-- Fields are colours when each of them is one. -/
theorem coloursOf_eq_ok_iff {fields : List (List Char)} {colours : List Colour} :
    coloursOf fields = .ok colours ↔ fields.map Field.colour? = colours.map some := by
  induction fields generalizing colours with
  | nil => cases colours <;> simp [coloursOf]
  | cons field fields ih =>
    rw [coloursOf, List.map_cons]
    cases hcolour : Field.colour? field with
    | none => cases colours <;> simp
    | some c =>
      cases colours with
      | nil => cases coloursOf fields <;> simp [Except.map]
      | cons d colours =>
        have hrest := @ih colours
        cases hall : coloursOf fields with
        | error cause =>
          rw [hall] at hrest
          have hne : fields.map Field.colour? ≠ colours.map some := fun heq =>
            absurd (hrest.mpr heq) (by simp)
          simp [Except.map, hne]
        | ok others =>
          rw [hall] at hrest
          simp [Except.map, ← hrest]

/-- The colours that a directive declares. -/
def colours? : Directive → Option (List Colour)
  | .palette colours => some colours
  | _ => none

theorem colours?_eq_some_iff {d : Directive} {colours : List Colour} :
    d.colours? = some colours ↔ d = .palette colours := by
  cases d <;> simp [colours?]

/-! ## What asks for a palette -/

/-- The text asks for a palette, and has these fields behind the output, without their padding and
    the blank ones. -/
def AsksPalette (source : String) (fields : List (List Char)) : Prop :=
  ∃ output selector others, Field.split source.toList = output :: selector :: others ∧
    (Text.occurs "colors".toList (Text.lowerAfter [] output) ∨
      Text.occurs "colorpalette".toList (Text.lowerAfter [] output)) ∧
    fields = ((selector :: others).map Field.clean).filter (!·.isEmpty)

variable {source : String} {fields : List (List Char)} {colours : List Colour}

/-- What asks for a palette is read as one. -/
theorem parse_of_asksPalette (h : AsksPalette source fields) :
    parse source =
      match coloursOf fields with
      | .error cause => .invalid cause source
      | .ok [] => .invalid .noColours source
      | .ok colours => .palette colours := by
  obtain ⟨output, selector, others, hsplit, hoccurs, rfl⟩ := h
  rw [parse, hsplit, ofFields]
  exact if_pos (by simpa using hoccurs)

theorem parse_eq_palette_iff (h : AsksPalette source fields) :
    parse source = .palette colours ↔ coloursOf fields = .ok colours ∧ colours ≠ [] := by
  rw [parse_of_asksPalette h]
  cases coloursOf fields with
  | error cause => simp
  | ok others =>
    cases others with
    | nil => simp
    | cons c others =>
      simp only [palette.injEq, Except.ok.injEq]
      exact ⟨fun heq => ⟨heq, heq ▸ List.cons_ne_nil c others⟩, fun heq => heq.1⟩

/-- Nothing else is read as a palette. -/
theorem exists_asksPalette (h : parse source = .palette colours) :
    ∃ fields, AsksPalette source fields := by
  unfold parse at h
  match hsplit : Field.split source.toList, h with
  | [], h => simp [ofFields] at h
  | [_], h => simp [ofFields] at h
  | output :: selector :: others, h =>
    refine ⟨_, output, selector, others, hsplit, ?_, rfl⟩
    by_contra hnone
    have hasked : ¬ (Text.occurs "colors".toList (Text.lowerAfter [] output) ||
        Text.occurs "colorpalette".toList (Text.lowerAfter [] output)) := by simpa using hnone
    unfold ofFields at h
    dsimp only at h
    rw [if_neg hasked] at h
    -- an order, a chart and a text are no palettes
    unfold parseChart parseText at h
    repeat' split at h
    all_goals simp at h

/-- **All or nothing.** A text declares some colours when it asks for a palette, each of its fields
    that is not blank is a colour, and there is one at least; then these are the colours. -/
theorem colours?_parse_eq_some_iff :
    (parse source).colours? = some colours ↔
      ∃ fields, AsksPalette source fields ∧ colours ≠ [] ∧
        fields.map Field.colour? = colours.map some := by
  rw [colours?_eq_some_iff]
  constructor
  · intro h
    obtain ⟨fields, hasks⟩ := exists_asksPalette h
    obtain ⟨hall, hne⟩ := (parse_eq_palette_iff hasks).mp h
    exact ⟨fields, hasks, hne, coloursOf_eq_ok_iff.mp hall⟩
  · rintro ⟨fields, hasks, hne, hcolours⟩
    exact (parse_eq_palette_iff hasks).mpr ⟨coloursOf_eq_ok_iff.mpr hcolours, hne⟩

/-- No palette without colours is read. -/
theorem parse_ne_palette_nil (source : String) : parse source ≠ .palette [] := by
  intro h
  obtain ⟨fields, -, hne, -⟩ := colours?_parse_eq_some_iff.mp (colours?_eq_some_iff.mpr h)
  exact hne rfl

/-- One bad colour, or none at all, makes a palette invalid. -/
theorem parse_of_badPalette (hasks : AsksPalette source fields)
    (hbad : fields = [] ∨ ∃ field ∈ fields, Field.colour? field = none) :
    ∃ cause, parse source = .invalid cause source := by
  rw [parse_of_asksPalette hasks]
  cases hall : coloursOf fields with
  | error cause => exact ⟨cause, rfl⟩
  | ok colours =>
    have hcolours := coloursOf_eq_ok_iff.mp hall
    have hnil : colours = [] := by
      rcases hbad with rfl | ⟨field, hfield, hnone⟩
      · simpa using hcolours.symm
      · have hmem : none ∈ colours.map some := hcolours ▸ hnone ▸ List.mem_map_of_mem hfield
        simp at hmem
    rw [hnil]
    exact ⟨.noColours, rfl⟩

/-! ## The forms of the fields -/

/-- Fields are read as colours when they spell these colours. -/
theorem coloursOf_eq_ok_iff_spells :
    coloursOf fields = .ok colours ↔ List.Forall₂ Field.SpellsColour fields colours := by
  rw [coloursOf_eq_ok_iff, ← List.forall₂_eq_eq_eq, List.forall₂_map_left_iff,
    List.forall₂_map_right_iff]
  simp only [Field.colour?_eq_some_iff]

theorem colour?_eq_none_iff {field : List Char} :
    Field.colour? field = none ↔ ∀ c, ¬ Field.SpellsColour field c := by
  simp only [Option.eq_none_iff_forall_ne_some, ne_eq, Field.colour?_eq_some_iff]

/-- The first bad colour is told, however many good ones stand before it. -/
theorem coloursOf_of_bad {good others : List (List Char)} {bad : List Char}
    (hgood : ∀ field ∈ good, ∃ c, Field.SpellsColour field c)
    (hbad : ∀ c, ¬ Field.SpellsColour bad c) :
    coloursOf (good ++ bad :: others) = .error (.badColour (.ofList bad)) := by
  induction good with
  | nil => rw [List.nil_append, coloursOf, colour?_eq_none_iff.mpr hbad]
  | cons field good ih =>
    obtain ⟨c, hc⟩ := hgood field List.mem_cons_self
    rw [List.cons_append, coloursOf, Field.colour?_eq_some_iff.mpr hc,
      ih fun other hother => hgood other (List.mem_cons_of_mem _ hother)]
    rfl

/-- **The grammar of palettes.** Take a text of two fields at least, the first of which has one of the
    words for a palette in it in any case of its letters, and the other fields without the blanks and
    closing braces around them, leaving out those of which nothing is left. The text declares some
    colours exactly if there are such fields and they spell these colours one by one. Otherwise it is
    invalid: the first field that spells no colour is told, however many colours stand before it. -/
theorem parse_palette_iff {output : List Char} {rest : List (List Char)}
    (hsplit : source.toList.splitOn ';' = output :: rest) (hrest : rest ≠ [])
    (hasks : "colors".toList <:+: (Text.lower (.ofList output)).toList ∨
      "colorpalette".toList <:+: (Text.lower (.ofList output)).toList)
    (hfields : fields =
      (rest.map (Text.trim fun c => Text.isBlank c || c == '\x7d')).filter (· ≠ [])) :
    (∀ colours, parse source = .palette colours ↔
        fields ≠ [] ∧ List.Forall₂ Field.SpellsColour fields colours) ∧
      (¬ (fields ≠ [] ∧ ∀ field ∈ fields, ∃ c, Field.SpellsColour field c) →
        ∃ cause, parse source = .invalid cause source) ∧
      ∀ good bad others, fields = good ++ bad :: others →
        (∀ field ∈ good, ∃ c, Field.SpellsColour field c) → (∀ c, ¬ Field.SpellsColour bad c) →
        parse source = .invalid (.badColour (.ofList bad)) source := by
  have hpalette : AsksPalette source fields := by
    obtain ⟨selector, others, rfl⟩ := List.exists_cons_of_ne_nil hrest
    refine ⟨output, selector, others, hsplit, ?_, ?_⟩
    · simpa only [Text.occurs_iff_infix, Text.lower, String.toList_ofList] using hasks
    · rw [hfields]
      exact List.filter_congr fun field _ => by cases field <;> rfl
  refine ⟨fun colours => ?_, fun hnot => ?_, ?_⟩
  · rw [parse_eq_palette_iff hpalette, coloursOf_eq_ok_iff_spells, and_comm]
    refine and_congr_left fun hspells => not_congr ?_
    rw [← List.length_eq_zero_iff, ← List.length_eq_zero_iff, hspells.length_eq]
  · refine parse_of_badPalette hpalette ?_
    by_contra hgood
    refine hnot ⟨fun hnil => hgood (.inl hnil), fun field hfield => ?_⟩
    by_contra hnone
    exact hgood (.inr ⟨field, hfield, colour?_eq_none_iff.mpr fun c hc => hnone ⟨c, hc⟩⟩)
  · rintro good bad others rfl hgood hbad
    rw [parse_of_asksPalette hpalette, coloursOf_of_bad hgood hbad]

/-- Blanks, closing braces and leading zeros are no part of a colour, and a sign makes it a bad one. -/
theorem parse_palette_iff_padded :
    parse "ColorPalette; 007,\t63 ,9\x7d; \x7d;255,0,00000" = .palette [⟨7, 63, 9⟩, ⟨255, 0, 0⟩] ∧
      parse "colors;1,2,3;4,+5,6;7,8,9" = .invalid (.badColour "4,+5,6") "colors;1,2,3;4,+5,6;7,8,9" := by
  have hgood : "ColorPalette; 007,\t63 ,9\x7d; \x7d;255,0,00000".toList.splitOn ';' =
      "ColorPalette".toList :: [" 007,\t63 ,9\x7d".toList, " \x7d".toList, "255,0,00000".toList] := by
    decide
  have hbad : "colors;1,2,3;4,+5,6;7,8,9".toList.splitOn ';' =
      "colors".toList :: ["1,2,3".toList, "4,+5,6".toList, "7,8,9".toList] := by
    decide
  have hspells : ∀ field c, Field.colour? field = some c → Field.SpellsColour field c :=
    fun _ _ => Field.colour?_eq_some_iff.mp
  obtain ⟨hread, -, -⟩ := parse_palette_iff hgood (by simp) (.inr (by decide)) rfl
  obtain ⟨-, -, hfirst⟩ := parse_palette_iff hbad (by simp) (.inl (by decide)) rfl
  refine ⟨(hread _).mpr ⟨by decide, ?_⟩, ?_⟩
  · exact .cons (hspells _ _ (by decide)) (.cons (hspells _ _ (by decide)) .nil)
  · refine hfirst ["1,2,3".toList] "4,+5,6".toList ["7,8,9".toList] (by decide) (fun field hfield => ?_)
      (colour?_eq_none_iff.mp (by decide))
    rw [List.mem_singleton.mp hfield]
    exact ⟨⟨1, 2, 3⟩, hspells _ _ (by decide)⟩

end SurveyReport.Directive
