import SurveyReport.Picture

/-!
# Pictures as PNG files

A file is a signature and chunks, each with its length and a checksum. The pixels are rows of three
bytes each, uncompressed: a row starts with a zero for its filter, and the stream of rows is cut into
stored blocks.

Results:
* `size_chunk`: a chunk takes eight bytes more than its name and its data.
-/

namespace SurveyReport

/-! ## Pixels -/

/-- The swatches of a legend: squares below each other near the right edge. -/
def Picture.swatches (p : Picture) : List Block :=
  (p.legend.getD []).mapIdx fun i colour =>
    let top : Int := 46 + 20 * i
    { left := p.width - 55, right := p.width - 45, top, bottom := top + 10, colour }

/-- The full circle as an angle. -/
def fullCircle : Float := 6.283185307179586

/-- The colour of a pixel, as far as the pie decides it. -/
def Pie.pixelAt (pie : Pie) (x y : Nat) : Option Colour :=
  let right := Float.ofNat x - Float.ofNat pie.centreX
  let down := Float.ofNat y - Float.ofNat pie.centreY
  if pie.radius * pie.radius < right * right + down * down then none
  else
    let turn := Float.atan2 right (-down) / fullCircle
    pie.colourAt (if turn < 0 then turn + 1 else turn)

/-- The colour of a pixel with all that is drawn. -/
def Picture.pixelAt (p : Picture) (x y : Nat) : Colour :=
  match p.pie.bind (·.pixelAt x y) with
  | some colour => colour
  | none => { p with blocks := p.blocks ++ p.swatches }.colourAt x y

namespace Png

/-! ## Bytes and checksums -/

/-- A word as four bytes, the greatest first. -/
def word (n : UInt32) : ByteArray :=
  ⟨#[(n >>> 24).toUInt8, (n >>> 16).toUInt8, (n >>> 8).toUInt8, n.toUInt8]⟩

@[simp] theorem size_word (n : UInt32) : (word n).size = 4 := rfl

/-- One step of the division behind the checksum of a chunk. -/
def remainderStep (c : UInt32) : UInt32 :=
  if c &&& 1 = 1 then (c >>> 1) ^^^ 0xedb88320 else c >>> 1

/-- Takes a byte into the checksum of a chunk. -/
def remainderByte (c : UInt32) (b : UInt8) : UInt32 :=
  (List.range 8).foldl (fun c _ => remainderStep c) (c ^^^ b.toUInt32)

/-- The checksum of a chunk. -/
def remainder (bytes : ByteArray) : UInt32 :=
  bytes.foldl remainderByte 0xffffffff ^^^ 0xffffffff

/-- The checksum of the stream: the sum of the bytes, and the sum of all these sums. -/
def sums (bytes : ByteArray) : UInt32 :=
  let add (s : UInt32 × UInt32) (b : UInt8) : UInt32 × UInt32 :=
    let first := (s.1 + b.toUInt32) % 65521
    (first, (s.2 + first) % 65521)
  let s := bytes.foldl add (1, 0)
  s.2 <<< 16 ||| s.1

/-! ## Chunks -/

/-- A chunk with its length, its name and its checksum. -/
def chunk (name : String) (data : ByteArray) : ByteArray :=
  let body := name.toUTF8 ++ data
  word (UInt32.ofNat data.size) ++ body ++ word (remainder body)

theorem size_chunk (name : String) (data : ByteArray) :
    (chunk name data).size = name.utf8ByteSize + data.size + 8 := by
  have hname : name.toUTF8.size = name.utf8ByteSize := rfl
  simp only [chunk, ByteArray.size_append, size_word, hname]
  omega

/-- A half word as two bytes, the smaller first. -/
def half (n : Nat) : ByteArray := ⟨#[UInt8.ofNat n, UInt8.ofNat (n / 256)]⟩

/-- The greatest length of a stored block. -/
def blockSize : Nat := 65535

/-- The stream of bytes in stored blocks. -/
def stored (bytes : ByteArray) : ByteArray :=
  let count := (bytes.size + blockSize - 1) / blockSize
  let add (out : ByteArray) (i : Nat) : ByteArray :=
    let block := bytes.extract (i * blockSize) ((i + 1) * blockSize)
    let last : UInt8 := if i + 1 = count then 1 else 0
    (out.push last) ++ half block.size ++ half (blockSize - block.size) ++ block
  (List.range count).foldl add ⟨#[0x78, 0x01]⟩ ++ word (sums bytes)

/-- The rows of a picture, each behind the mark for no filter. -/
def rows (p : Picture) : ByteArray :=
  let pixel (y : Nat) (out : ByteArray) (x : Nat) : ByteArray :=
    let c := p.pixelAt x y
    ((out.push c.red).push c.green).push c.blue
  let row (out : ByteArray) (y : Nat) : ByteArray :=
    (List.range p.width).foldl (pixel y) (out.push 0)
  (List.range p.height).foldl row .empty

/-- Size, eight bits for each of three colours, and the usual methods. -/
def header (p : Picture) : ByteArray :=
  word (UInt32.ofNat p.width) ++ word (UInt32.ofNat p.height) ++ ⟨#[8, 2, 0, 0, 0]⟩

def signature : ByteArray := ⟨#[0x89, 0x50, 0x4e, 0x47, 0x0d, 0x0a, 0x1a, 0x0a]⟩

/-- The file of a picture. -/
def encode (p : Picture) : ByteArray :=
  signature ++ chunk "IHDR" (header p) ++ chunk "IDAT" (stored (rows p)) ++ chunk "IEND" .empty

end Png

end SurveyReport
