import SurveyReport.Proofs.Text.Numeral
import SurveyReport.Proofs.Text.Trim

/-!
# How colours are written

A colour is written as three numbers with commas between them. Blanks may stand around each number, and
zeros in front of it. What is not written so is no colour: no sign and no other blank is passed over, and
nothing may be left behind the third number.

Results:
* `colourPart?_append`, `exists_spellsPart`: a part is read up to what follows it, and nothing else is.
* `colour?_eq_some_iff`: a field is read as a colour exactly if it spells it.
-/

namespace SurveyReport.Field

variable {s rest field : List Char} {part : UInt8} {c : Char}

/-! ## The written form -/

/-- The text writes the number in decimal digits, with blanks around them. -/
def SpellsPart (s : List Char) (part : UInt8) : Prop :=
  ∃ lead digits tail, s = lead ++ digits ++ tail ∧
    (∀ c ∈ lead ++ tail, c ∈ [' ', '\t', '\r', '\n']) ∧
    digits ≠ [] ∧ (∀ c ∈ digits, '0' ≤ c ∧ c ≤ '9') ∧
    Text.placeSum 10 digitValue digits = part.toNat

/-- The field writes the parts of the colour, with commas between them. -/
def SpellsColour (field : List Char) (c : Colour) : Prop :=
  ∃ red green blue, field = red ++ ',' :: (green ++ ',' :: blue) ∧
    SpellsPart red c.red ∧ SpellsPart green c.green ∧ SpellsPart blue c.blue

/-! ## Characters -/

theorem isColourBlank_iff : isColourBlank c ↔ c ∈ [' ', '\t', '\r', '\n'] := by
  simp [isColourBlank, or_assoc]

theorem not_isColourBlank_of_isDigit (h : c.isDigit) : ¬ isColourBlank c := by
  intro hblank
  simp only [isColourBlank, Bool.or_eq_true, beq_iff_eq] at hblank
  rcases hblank with ((rfl | rfl) | rfl) | rfl <;> exact absurd h (by decide)

theorem not_isDigit_of_isColourBlank (h : isColourBlank c) : ¬ c.isDigit :=
  fun hdigit => not_isColourBlank_of_isDigit hdigit h

/-! ## Parts of a colour -/

/-- A part is read up to what follows it, where this begins neither with a digit nor with a blank. -/
theorem colourPart?_append (h : SpellsPart s part)
    (hrest : ∀ c, rest.head? = some c → ¬ c.isDigit ∧ ¬ isColourBlank c) :
    colourPart? (s ++ rest) = some (part, rest) := by
  obtain ⟨lead, digits, tail, rfl, hblank, hne, hdigits, hvalue⟩ := h
  have hlead : ∀ c ∈ lead, isColourBlank c := fun c hc =>
    isColourBlank_iff.mpr (hblank c (List.mem_append_left _ hc))
  have htail : ∀ c ∈ tail, isColourBlank c := fun c hc =>
    isColourBlank_iff.mpr (hblank c (List.mem_append_right _ hc))
  have hall : ∀ c ∈ digits, c.isDigit := fun c hc => isDigit_iff.mpr (hdigits c hc)
  have hread : digits? 255 digits = some part.toNat :=
    digits?_eq_some_iff.mpr ⟨hne, hall, hvalue, Nat.le_of_lt_succ part.toNat_lt⟩
  -- the digits end where the blanks behind them or the rest begins
  have hstop : ∀ c, (tail ++ rest).head? = some c → ¬ c.isDigit := by
    intro c hc
    cases tail with
    | nil => exact (hrest c hc).1
    | cons d tail =>
      obtain rfl := Option.some.inj hc
      exact not_isDigit_of_isColourBlank (htail d List.mem_cons_self)
  have hfirst : ∀ c, (digits ++ (tail ++ rest)).head? = some c → ¬ isColourBlank c := by
    intro c hc
    rw [List.head?_append_of_ne_nil _ hne] at hc
    exact not_isColourBlank_of_isDigit (hall c (List.mem_of_mem_head? hc))
  have hskip : (lead ++ digits ++ tail ++ rest).dropWhile isColourBlank = digits ++ (tail ++ rest) := by
    rw [List.append_assoc, List.append_assoc]
    exact Text.dropWhile_run hlead hfirst
  have hbehind : (tail ++ rest).dropWhile isColourBlank = rest :=
    Text.dropWhile_run htail fun c hc => (hrest c hc).2
  rw [colourPart?]
  simp only [hskip, Text.takeWhile_run hall hstop, Text.dropWhile_run hall hstop, hread, hbehind]
  simp

/-- Only a part is read as one. -/
theorem exists_spellsPart (h : colourPart? s = some (part, rest)) :
    ∃ front, s = front ++ rest ∧ SpellsPart front part := by
  unfold colourPart? at h
  simp only [Option.bind_eq_bind, Option.bind_eq_some_iff, Option.some.injEq, Prod.mk.injEq] at h
  obtain ⟨n, hread, rfl, rfl⟩ := h
  obtain ⟨hne, hall, hvalue, hle⟩ := digits?_eq_some_iff.mp hread
  -- the blanks that are skipped, the digits that are read, and the blanks behind them
  obtain ⟨digits, behind, hsplit, hdigits, hbehind⟩ : ∃ digits behind,
      s.dropWhile isColourBlank = digits ++ behind ∧
        (s.dropWhile isColourBlank).takeWhile Char.isDigit = digits ∧
        (s.dropWhile isColourBlank).dropWhile Char.isDigit = behind :=
    ⟨_, _, List.takeWhile_append_dropWhile.symm, rfl, rfl⟩
  rw [hdigits] at hne hall hvalue
  rw [hbehind]
  refine ⟨s.takeWhile isColourBlank ++ digits ++ behind.takeWhile isColourBlank, ?_, _, digits, _, rfl,
    fun c hc => ?_, hne, fun c hc => isDigit_iff.mp (hall c hc), ?_⟩
  · rw [List.append_assoc, List.takeWhile_append_dropWhile, List.append_assoc, ← hsplit,
      List.takeWhile_append_dropWhile]
  · rw [← isColourBlank_iff]
    exact (List.mem_append.mp hc).elim List.mem_takeWhile_imp List.mem_takeWhile_imp
  · rw [hvalue, UInt8.toNat_ofNat']
    omega

/-! ## Colours -/

theorem behindComma?_eq_some_iff : behindComma? s = some rest ↔ s = ',' :: rest := by
  unfold behindComma?
  split
  · simp
  · rename_i hne
    simpa using fun h => hne _ h

/-- A field is read as a colour exactly if it spells it. -/
theorem colour?_eq_some_iff {c : Colour} : colour? field = some c ↔ SpellsColour field c := by
  constructor
  · intro h
    unfold colour? at h
    simp only [Option.bind_eq_bind, Option.bind_eq_some_iff] at h
    obtain ⟨⟨red, behindRed⟩, hred, greenOn, hfirst, ⟨green, behindGreen⟩, hgreen, blueOn, hsecond,
      ⟨blue, behind⟩, hblue, hend⟩ := h
    obtain ⟨hnil, hcolour⟩ := Option.ite_none_right_eq_some.mp hend
    obtain rfl := Option.some.inj hcolour
    obtain rfl : behind = [] := List.isEmpty_iff.mp hnil
    obtain ⟨redPart, rfl, hredPart⟩ := exists_spellsPart hred
    obtain ⟨greenPart, rfl, hgreenPart⟩ := exists_spellsPart hgreen
    obtain ⟨bluePart, rfl, hbluePart⟩ := exists_spellsPart hblue
    obtain rfl : behindRed = ',' :: _ := behindComma?_eq_some_iff.mp hfirst
    obtain rfl : behindGreen = ',' :: _ := behindComma?_eq_some_iff.mp hsecond
    rw [List.append_nil]
    exact ⟨redPart, greenPart, bluePart, rfl, hredPart, hgreenPart, hbluePart⟩
  · rintro ⟨red, green, blue, rfl, hred, hgreen, hblue⟩
    have hcomma : ∀ rest : List Char, ∀ d, (',' :: rest).head? = some d →
        ¬ d.isDigit ∧ ¬ isColourBlank d := by
      rintro rest d hd
      obtain rfl := Option.some.inj hd
      decide
    have hend : ∀ d, ([] : List Char).head? = some d → ¬ d.isDigit ∧ ¬ isColourBlank d := by simp
    have hlast := colourPart?_append hblue hend
    rw [List.append_nil] at hlast
    rw [colour?, colourPart?_append hred (hcomma _)]
    simp only [Option.bind_eq_bind, Option.bind_some, behindComma?,
      colourPart?_append hgreen (hcomma _), hlast]
    rfl

end SurveyReport.Field
