import SurveyReport.Proofs.Directive.Palettes
import SurveyReport.Proofs.Pass.Substitution

/-!
# The setting is that of the last declarations

Directives are worked out one after the other, each in the setting that those before it left. The
palette in force is the one that was declared last, and so is the order. All other directives leave
both of them alone, and so do palettes with a bad colour or without colours.

Results:
* `snd_outcome_eq_self`: what does not come to a declaration changes nothing.
* `outcome_of_badPalette`: a palette with a bad colour, or without colours, changes nothing either.
* `part_settingAfter`: a part of the setting that declarations replace is the last one declared.
* `settingAfter_eq_last`: all of this for any directives.
-/

namespace SurveyReport

namespace Directive

/-! ## Declarations -/

/-- The names that a directive declares as an order. -/
def names? : Directive → Option (List String)
  | .order names => some names
  | _ => none

/-- Only a declaration comes to a declaration. -/
theorem fst_outcome_eq_declaration_iff (columns : List Column) (s : Setting) (d : Directive) :
    (outcome columns s d).1 = .ok .declaration ↔ d.isDeclaration := by
  refine ⟨fun h => ?_, fst_outcome_of_isDeclaration columns s⟩
  cases d with
  | palette colours => rfl
  | order names => rfl
  | invalid cause source => simp [outcome] at h
  | text r =>
    simp only [outcome, bind, Except.bind, pure, Except.pure] at h
    repeat' split at h
    all_goals simp at h
  | chart r =>
    simp only [outcome, bind, Except.bind, pure, Except.pure] at h
    repeat' split at h
    all_goals simp at h

/-- What does not come to a declaration changes nothing. -/
theorem snd_outcome_eq_self {columns : List Column} {s : Setting} {d : Directive}
    (h : (outcome columns s d).1 ≠ .ok .declaration) : (outcome columns s d).2 = s := by
  have hother : d.isDeclaration = false := by
    rw [← Bool.not_eq_true]
    exact fun hd => h ((fst_outcome_eq_declaration_iff columns s d).mpr hd)
  rw [snd_outcome]
  exact s.declare_of_not_declaration hother

theorem order_declare (s : Setting) (d : Directive) :
    (s.declare d).order = d.names?.getD s.order := by
  cases d <;> rfl

theorem colours_declare (s : Setting) {d : Directive} (h : d ≠ .palette []) :
    (s.declare d).palette.colours = d.colours?.getD s.palette.colours := by
  cases d with
  | palette colours =>
    have hne : colours ≠ [] := fun hnil => h (by rw [hnil])
    simp [Setting.declare, Palette.ofList?, hne, colours?]
  | _ => rfl

/-! ## Palettes -/

/-- A palette with a bad colour or without colours changes nothing. -/
theorem outcome_of_badPalette {raw : String} {fields : List (List Char)}
    (hasks : AsksPalette (.ofList (Field.stripMarkers raw.toList)) fields)
    (hbad : fields = [] ∨ ∃ field ∈ fields, Field.colour? field = none)
    (columns : List Column) (s : Setting) :
    ∃ cause source, outcome columns s (ofMarked raw) = (.error (.invalid cause source), s) := by
  obtain ⟨cause, hinvalid⟩ := parse_of_badPalette hasks hbad
  rw [ofMarked, hinvalid]
  exact ⟨cause, _, rfl⟩

end Directive

/-! ## Sessions -/

/-- A part of the setting that declarations replace is the last one that was declared, or else as it
    was before. -/
theorem part_settingAfter {α : Type} (part : Setting → α) (declared? : Directive → Option α)
    {columns : List Column}
    (hstep : ∀ s raw, part (outcomeOf columns s raw).2 = (declared? (.ofMarked raw)).getD (part s))
    (s : Setting) (raws : List String) :
    part (settingAfter columns s raws) =
      (raws.filterMap fun raw => declared? (.ofMarked raw)).getLastD (part s) := by
  induction raws generalizing s with
  | nil => rfl
  | cons raw raws ih =>
    rw [settingAfter, List.foldl_cons, ← settingAfter, ih, hstep, List.filterMap_cons]
    cases declared? (.ofMarked raw) with
    | none => rfl
    | some declared => rw [List.getLastD_cons]; rfl

theorem colours_outcomeOf (columns : List Column) (s : Setting) (raw : String) :
    (outcomeOf columns s raw).2.palette.colours =
      (Directive.ofMarked raw).colours?.getD s.palette.colours := by
  have hne : Directive.ofMarked raw ≠ .palette [] := Directive.parse_ne_palette_nil _
  rw [outcomeOf, Directive.snd_outcome, Directive.colours_declare s hne]

theorem order_outcomeOf (columns : List Column) (s : Setting) (raw : String) :
    (outcomeOf columns s raw).2.order = (Directive.ofMarked raw).names?.getD s.order := by
  rw [outcomeOf, Directive.snd_outcome, Directive.order_declare]

/-- **The last declarations.** After any written directives the palette has the colours of the last
    palette among them, and the order is the last order; without one they are the palette at the
    start and no order. The palette is never empty. A directive that comes to a failure, a text or a
    chart leaves both as they were, and so does what asks for a palette with a bad colour or without
    colours, which always fails. -/
theorem settingAfter_eq_last (columns : List Column) (palette : Palette) (raws : List String) :
    let s := settingAfter columns ⟨palette, []⟩ raws
    s.palette.colours =
        (raws.filterMap fun raw => (Directive.ofMarked raw).colours?).getLastD palette.colours ∧
      s.order = (raws.filterMap fun raw => (Directive.ofMarked raw).names?).getLastD [] ∧
      s.palette.colours ≠ [] ∧
      (∀ raw, (outcomeOf columns s raw).1 ≠ .ok .declaration → (outcomeOf columns s raw).2 = s) ∧
      ∀ raw fields, Directive.AsksPalette (.ofList (Field.stripMarkers raw.toList)) fields →
        (fields = [] ∨ ∃ field ∈ fields, Field.colour? field = none) →
        ∃ cause source, outcomeOf columns s raw = (.error (.invalid cause source), s) := by
  intro s
  refine ⟨?_, ?_, s.palette.ne_nil, ?_, ?_⟩
  · exact part_settingAfter (·.palette.colours) Directive.colours? (colours_outcomeOf columns) _ raws
  · exact part_settingAfter Setting.order Directive.names? (order_outcomeOf columns) _ raws
  · intro raw h
    exact Directive.snd_outcome_eq_self h
  · intro raw fields hasks hbad
    exact Directive.outcome_of_badPalette hasks hbad columns s

/-- A palette with one bad colour stands behind a good palette, and an order before both. -/
theorem settingAfter_eq_last_bad_palette :
    let s := settingAfter [] ⟨.initial, []⟩
      ["order;No;Yes\x7d", "\x7b\x7b\x7bColors;9,9,9\x7d\x7d\x7d", "colorPalette;; 4, 5,6;7,8,9",
        "text;count;Tea"]
    s.palette.colours = [⟨4, 5, 6⟩, ⟨7, 8, 9⟩] ∧ s.order = ["No", "Yes"] ∧
      (outcomeOf [] s "colors;1,2,3;256,0,0").2 = s := by
  intro s
  obtain ⟨hcolours, horder, -, -, hbad⟩ := settingAfter_eq_last [] .initial
    ["order;No;Yes\x7d", "\x7b\x7b\x7bColors;9,9,9\x7d\x7d\x7d", "colorPalette;; 4, 5,6;7,8,9",
      "text;count;Tea"]
  have hasks : Directive.AsksPalette
      (.ofList (Field.stripMarkers "colors;1,2,3;256,0,0".toList)) ["1,2,3".toList, "256,0,0".toList] :=
    ⟨"colors".toList, "1,2,3".toList, ["256,0,0".toList], by decide, by decide, by decide⟩
  obtain ⟨cause, source, hsame⟩ := hbad _ _ hasks (.inr ⟨"256,0,0".toList, by simp, by decide⟩)
  refine ⟨hcolours.trans (by decide), horder.trans (by decide), ?_⟩
  rw [hsame]

end SurveyReport
