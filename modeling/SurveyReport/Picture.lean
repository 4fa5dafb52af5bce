import SurveyReport.Decimal.Exact
import SurveyReport.Failure
import SurveyReport.Palette

/-!
# Pictures

A picture is a sheet of one colour with blocks of other colours on it, or with a pie of slices. A later
block covers an earlier one.

Results:
* `covers_iff`: the pixels of a block.
* `colourAt_of_not_covered`: a pixel that no block covers has the colour of the sheet.
-/

namespace SurveyReport

/-! ## Blocks and slices -/

/-- The pixels of the columns `left` to `right - 1` and the rows `top` to `bottom - 1`. -/
structure Block where
  left : Int
  right : Int
  top : Int
  bottom : Int
  colour : Colour
  deriving DecidableEq, Repr

/-- Whether the block covers a pixel. -/
def Block.covers (b : Block) (x y : Int) : Bool :=
  b.left ≤ x && x < b.right && b.top ≤ y && y < b.bottom

theorem Block.covers_iff (b : Block) (x y : Int) :
    b.covers x y ↔ b.left ≤ x ∧ x < b.right ∧ b.top ≤ y ∧ y < b.bottom := by
  simp [covers, and_assoc]

/-- A disc that is cut into slices. They go clockwise from the top, each from the end of the one before
    and as far as the share of its size. -/
structure Pie where
  centreX : Nat
  centreY : Nat
  radius : Float
  slices : List (Float × Colour)

/-- The sum of the sizes of the slices. -/
def Pie.total (p : Pie) : Float := (p.slices.map (·.1)).foldl (· + ·) 0

/-- How often the slice from `first` to `last` passes over a place, all three as parts of the full
    circle. Next to slices of negative size a slice can begin before the top or go round more than
    once. -/
def Pie.passes (first last place : Float) : Int :=
  Decimal.ceilInt (last - place) - Decimal.ceilInt (first - place)

/-- The colour of the pie at a place, a part of the full circle. A slice is filled where it passes an odd
    number of times, and a later slice covers an earlier one. -/
def Pie.colourAt (p : Pie) (place : Float) : Option Colour :=
  let total := p.total
  let step (state : Float × Option Colour) (slice : Float × Colour) : Float × Option Colour :=
    let last := state.1 + slice.1 / total
    let passes := Pie.passes state.1 last place
    (last, if 0 < passes ∧ passes % 2 = 1 then some slice.2 else state.2)
  (p.slices.foldl step (0, none)).2

/-! ## Sheets -/

/-- A sheet of the given size and what is drawn on it. The legend lists its colours from top to
    bottom, if there is one. -/
structure Picture where
  width : Nat
  height : Nat
  ground : Colour
  blocks : List Block
  pie : Option Pie
  legend : Option (List Colour)

namespace Picture

/-- An untouched sheet, which is black. It must have pixels, and their bytes must be countable. -/
def sheet? (width height : Nat) : Except Fault Picture :=
  if width = 0 ∨ height = 0 then .error (.badSize width height)
  else if UInt64.size ≤ width * height * 3 then .error (.tooLarge width height)
  else .ok ⟨width, height, .black, [], none, none⟩

/-- The colour of a pixel outside the pie and the legend. -/
def colourAt (p : Picture) (x y : Int) : Colour :=
  ((p.blocks.reverse.find? (·.covers x y)).map (·.colour)).getD p.ground

theorem colourAt_of_not_covered {p : Picture} {x y : Int}
    (h : ∀ b ∈ p.blocks, b.covers x y = false) : p.colourAt x y = p.ground := by
  have : p.blocks.reverse.find? (·.covers x y) = none := by simpa using h
  simp [colourAt, this]

/-- The colour at `turn` and `reach` parts of the radius from the centre of the pie. -/
def pieColourAt (p : Picture) (reach turn : Float) : Colour :=
  if 1 < reach then p.ground else ((p.pie.bind (·.colourAt turn))).getD p.ground

/-! ## Looking along lines of pixels -/

/-- A run of pixels of one colour. -/
structure Run where
  colour : Colour
  first : Nat
  last : Nat
  deriving DecidableEq, Repr

/-- Adds the pixel at a position to the runs, the latest first. -/
def addPixel (runs : List Run) (position : Nat) (colour : Colour) : List Run :=
  match runs with
  | r :: rest =>
    if r.colour = colour then { r with last := position } :: rest
    else ⟨colour, position, position⟩ :: runs
  | [] => [⟨colour, position, position⟩]

/-- The runs of a row, from left to right. -/
def runs (p : Picture) (row : Int) : List Run :=
  let step (found : List Run) (x : Nat) : List Run := addPixel found x (p.colourAt x row)
  ((List.range p.width).foldl step []).reverse

/-- The highest row that the colour of a pixel reaches without a break in its column, `fuel` rows up
    at most. -/
def reachUp (p : Picture) (x : Int) (colour : Colour) : (fuel : Nat) → (row : Int) → Int
  | 0, row => row
  | fuel + 1, row =>
    if 0 < row ∧ p.colourAt x (row - 1) = colour then reachUp p x colour fuel (row - 1) else row

end Picture

end SurveyReport
