/-!
# Colours and palettes

A palette is a list of one colour at least. It hands out its colours in turn and starts again when
they are used up.

Results:
* `colourAt_add_length`: the colours repeat after the length of the palette.
* `assign_length`: as many colours are handed out as asked for.
-/

namespace SurveyReport

/-- A colour by its red, green and blue parts. -/
structure Colour where
  red : UInt8
  green : UInt8
  blue : UInt8
  deriving DecidableEq, Repr

namespace Colour

def white : Colour := ⟨255, 255, 255⟩

def black : Colour := ⟨0, 0, 0⟩

def pureBlue : Colour := ⟨0, 0, 255⟩

/-- A number sign and two hexadecimal digits for each part. -/
def hex (c : Colour) : String :=
  .ofList <| '#' :: [c.red, c.green, c.blue].flatMap fun part =>
    [Nat.digitChar (part.toNat / 16), Nat.digitChar (part.toNat % 16)]

end Colour

/-- A list of colours that is not empty. -/
structure Palette where
  colours : List Colour
  ne_nil : colours ≠ []
  deriving DecidableEq, Repr

/-- A condition that does not stop a chart but is told with it. -/
inductive Warning where
  | paletteInsufficient (needed available : Nat)
  deriving DecidableEq, Repr

/-- The text of a warning. -/
def Warning.message : Warning → String
  | .paletteInsufficient needed available =>
    s!"not enough colors in palette ({available} available, {needed} needed); colors will repeat"

namespace Palette

/-- The palette of the colours, if there are any. -/
def ofList? (colours : List Colour) : Option Palette :=
  if h : colours = [] then none else some ⟨colours, h⟩

/-- The palette in force until another one is declared. -/
def initial : Palette := ⟨[⟨215, 63, 9⟩, ⟨170, 157, 46⟩, ⟨74, 119, 60⟩], by simp⟩

/-- The number of colours. -/
def size (p : Palette) : Nat := p.colours.length

theorem size_pos (p : Palette) : 0 < p.size := List.length_pos_iff.mpr p.ne_nil

/-- The colour of the item at an index. -/
def colourAt (p : Palette) (index : Nat) : Colour :=
  p.colours.get ⟨index % p.colours.length, Nat.mod_lt _ p.size_pos⟩

theorem colourAt_add_length (p : Palette) (index : Nat) :
    p.colourAt (index + p.size) = p.colourAt index := by
  simp [colourAt, size]

/-- The colours of `count` items. -/
def assign (p : Palette) (count : Nat) : List Colour := (List.range count).map p.colourAt

theorem assign_length (p : Palette) (count : Nat) : (p.assign count).length = count := by
  simp [assign]

/-- The warning for `count` items, if their colours repeat. -/
def warning? (p : Palette) (count : Nat) : Option Warning :=
  if p.size < count then some (.paletteInsufficient count p.size) else none

end Palette

end SurveyReport
