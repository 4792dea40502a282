import IsoScene.Codec.Bytes
import IsoScene.Codec.Pixels

/-! # QOI files

Pixels are stored as differences from the pixel before, as repetitions, or as references to a
table of pixels that have occurred, in which each has a place of its own. This follows the package
`qoi` 0.4, its bound on the number of pixels included.

* `Qoi.decode?` — the picture in a file.
-/

namespace IsoScene.Codec.Qoi

def signature : String := "qoif"
def ending : List UInt8 := [0, 0, 0, 0, 0, 0, 0, 1]

def maxPixels : Nat := 400000000

/-- The pixels that have been read, the last of them, and the table. -/
structure Progress where
  pixels : Array Rgba
  last : Rgba
  table : Array Rgba

namespace Progress

def start : Progress := ⟨#[], ⟨0, 0, 0, 255⟩, Array.replicate 64 Rgba.transparent⟩

def place (c : Rgba) : Nat :=
  (3 * c.red.toNat + 5 * c.green.toNat + 7 * c.blue.toNat + 11 * c.alpha.toNat) % 64

def push (p : Progress) (c : Rgba) : Progress :=
  ⟨p.pixels.push c, c, p.table.setIfInBounds (place c) c⟩

/-- Adds a pixel whose channels differ from the last one's. -/
def shift (p : Progress) (red green blue : UInt8) : Progress :=
  p.push ⟨p.last.red + red, p.last.green + green, p.last.blue + blue, p.last.alpha⟩

/-- Repeats the last pixel, but only up to the end of the picture. -/
def repeatLast (p : Progress) (count total : Nat) : Progress :=
  { p with pixels := p.pixels ++ Array.replicate (min count (total - p.pixels.size)) p.last }

end Progress

/-- Reads a pixel, or a repetition, that begins with this byte. Without an alpha channel every pixel
is opaque, and the last byte of all stands for the same pixel again. -/
def readStep (hasAlpha : Bool) (total first : Nat) (p : Progress) : ByteReader Progress := do
  let channel := do return UInt8.ofNat (← ByteReader.byte)
  if first = 255 ∧ hasAlpha then
    return p.push ⟨← channel, ← channel, ← channel, ← channel⟩
  else if first = 255 then return p.push p.last
  else if first = 254 then
    return p.push ⟨← channel, ← channel, ← channel, p.last.alpha⟩
  else if 192 ≤ first then return p.repeatLast (first - 192 + 1) total
  else if 128 ≤ first then
    let second ← ByteReader.byte
    let green := UInt8.ofNat (first - 128) - 32
    return p.shift (green - 8 + UInt8.ofNat (second / 16)) green
      (green - 8 + UInt8.ofNat (second % 16))
  else if 64 ≤ first then
    let difference := fun n : Nat => UInt8.ofNat (n % 4) - 2
    return p.shift (difference (first / 16)) (difference (first / 4)) (difference first)
  else
    let entry := p.table.getD first Rgba.transparent
    let entry := if hasAlpha then entry else { entry with alpha := 255 }
    return { p with pixels := p.pixels.push entry, last := entry }

def readPixels (hasAlpha : Bool) (total : Nat) : Nat → Progress → ByteReader (Array Rgba)
  | 0, _ => failure
  | fuel + 1, p => do
    if total ≤ p.pixels.size then return p.pixels
    readPixels hasAlpha total fuel (← readStep hasAlpha total (← ByteReader.byte) p)

def reader : ByteReader Image := do
  guard ((← ByteReader.latin 4) = signature)
  let width ← ByteReader.bigEndian 4
  let height ← ByteReader.bigEndian 4
  let channels ← ByteReader.byte
  let space ← ByteReader.byte
  guard (0 < width * height ∧ width * height ≤ maxPixels ∧ channels ∈ [3, 4] ∧ space ≤ 1)
  let layout := if channels = 4 then PixelLayout.rgba else .rgb
  guard (layout.Fits width height 1)
  let pixels ← readPixels (channels = 4) (width * height) (← ByteReader.remaining) Progress.start
  guard ((← ByteReader.take ending.length).toList = ending)
  return Raster.ofFn width height fun x y => pixels.getD (y * width + x) Rgba.transparent

def decode? (bytes : ByteArray) : Option Image := reader.read? bytes

end IsoScene.Codec.Qoi
