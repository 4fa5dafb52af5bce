import SurveyReport.Chart.Drawing
import SurveyReport.Chart.Listing
import SurveyReport.Disk
import SurveyReport.Pass

/-!
# Renderers

One renderer lists the charts: it writes the listing of each chart behind those before it and never
fails. The other one draws them: it writes the picture of each chart into a directory. The listings and
the pictures are numbered in the order of the charts, and the path that is given has this number.

Results:
* `render_listed`: listing adds one listing.
* `draw_error`: a chart that cannot be drawn leaves the disk as it is.
-/

namespace SurveyReport

/-! ## Listing -/

/-- The listings so far and their number. -/
structure Listed where
  text : String
  count : Nat
  deriving DecidableEq, Repr

namespace Listed

def empty : Listed := ⟨"", 0⟩

/-- The name of the listing with a number. -/
def name (number : Nat) : String := s!"series_{String.ofList (Decimal.padded 3 number)}.json"

/-- The renderer that lists charts. -/
def renderer : Renderer Listed where
  render c l := (.ok (name (l.count + 1)), ⟨l.text ++ c.listingText, l.count + 1⟩)

@[simp] theorem render_listed (c : Chart) (l : Listed) :
    renderer.render c l =
      (.ok (name (l.count + 1)), ⟨l.text ++ c.listingText, l.count + 1⟩) := rfl

end Listed

/-! ## Drawing -/

/-- Where pictures go, and their size if it is not the one of each chart. -/
structure Frame where
  directory : String
  size : Option (Nat × Nat)
  deriving DecidableEq, Repr

/-- The disk and the number of pictures so far. -/
structure Gallery where
  disk : Disk
  count : Nat

namespace Gallery

/-- The name of the picture with a number. -/
def name (number : Nat) : String := s!"chart_{String.ofList (Decimal.padded 3 number)}.png"

/-- Draws a chart in the frame. -/
def drawn (f : Frame) (c : Chart) : Except Fault Picture :=
  let (width, height) := f.size.getD (c.layout.width, c.layout.height)
  c.draw width height

/-- Writes the next picture. -/
def save (f : Frame) (picture : Picture) : Action Gallery String := fun g =>
  match g.disk.makeDirectory f.directory with
  | .error cause => (.error (.makeDirectory f.directory cause), g)
  | .ok disk =>
    let count := g.count + 1
    let path := Path.join f.directory (name count)
    match disk.write path (.drawing picture) with
    | .error cause => (.error (.writeChart path cause), ⟨disk, count⟩)
    | .ok disk => (.ok path, ⟨disk, count⟩)

/-- The renderer that draws charts. -/
def renderer (f : Frame) : Renderer Gallery where
  render c g :=
    match drawn f c with
    | .error fault => (.error fault, g)
    | .ok picture => save f picture g

theorem draw_error {f : Frame} {c : Chart} {fault : Fault} (h : drawn f c = .error fault)
    (g : Gallery) : (renderer f).render c g = (.error fault, g) := by
  simp [renderer, h]

end Gallery

end SurveyReport
