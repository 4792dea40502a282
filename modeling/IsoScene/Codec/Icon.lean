import IsoScene.Codec.Bitmap
import IsoScene.Codec.Png

/-! # Icon files

An icon file holds pictures in several sizes, each as a PNG file or as the inner part of a BMP file
with a mask behind it. The best one is read, chosen and checked as the package `image` 0.24 does it.

* `Entry.best?` — the entry with the most bits, and among these the largest.
* `Icon.decode?` — the best picture in a file.
-/

namespace IsoScene.Codec.Icon

structure Entry where
  width : Nat
  height : Nat
  bits : Nat
  size : Nat
  start : Nat

namespace Entry

/-- Reads an entry of the directory. A side of zero stands for 256. -/
def reader : ByteReader Entry := do
  let side := do
    let n ← ByteReader.byte
    return if n = 0 then 256 else n
  let width ← side
  let height ← side
  let _ ← ByteReader.take 4
  let bits ← ByteReader.littleEndian 2
  let size ← ByteReader.littleEndian 4
  let start ← ByteReader.littleEndian 4
  return ⟨width, height, bits, size, start⟩

/-- Another entry is better if it has more bits, or as many and a larger picture. -/
def isWorse (e other : Entry) : Bool :=
  e.bits < other.bits || e.bits == other.bits && e.width * e.height < other.width * other.height

/-- The best entry. Of several the last one in the directory counts, or else the first one. -/
def best? (entries : List Entry) : Option Entry :=
  match entries.getLast? with
  | none => none
  | some last =>
    some (entries.dropLast.foldl (fun best e => if best.isWorse e then e else best) last)

/-- The directory gives the sizes of the picture. -/
def Matches (e : Entry) (width height : Nat) : Prop :=
  min width 256 = e.width ∧ min height 256 = e.height

instance (e : Entry) (width height : Nat) : Decidable (e.Matches width height) := by
  unfold Matches; infer_instance

end Entry

/-- Reads a PNG file, which has to have four channels of eight bits. -/
def readPng (e : Entry) : ByteReader Image := do
  let parts ← Png.Parts.reader
  guard (Png.signature.length ≤ e.size ∧ e.Matches parts.header.width parts.header.height)
  guard (parts.layout = .rgba ∧ parts.sampleBytes = 1)
  let some image := parts.picture? | failure
  return image

/-- The picture without the pixels that a mask covers. The mask has a bit for each pixel, and its
last line comes first. -/
def applyMask (image : Image) (mask : ByteArray) (lineBytes : Nat) : Image :=
  Raster.ofFn image.width image.height fun x y =>
    let pixel := (image.get? x y).getD Rgba.transparent
    let byte := byteAt mask ((image.height - 1 - y) * lineBytes + x / 8)
    if byte >>> (7 - x % 8) % 2 = 1 then { pixel with alpha := 0 } else pixel

/-- Reads the inner part of a BMP file. Its height counts the mask; the mask may be missing. -/
def readBitmap (e : Entry) : ByteReader Image := do
  let header ← Bitmap.Header.reader true
  let header := { header with height := header.height / 2 }
  guard (e.Matches header.width header.height)
  let image ← Bitmap.readPixels header
  let lineBytes := (image.width + 31) / 32 * 4
  let stop ← ByteReader.position
  if stop + lineBytes * image.height ≤ e.start + e.size then
    return applyMask image (← ByteReader.take (lineBytes * image.height)) lineBytes
  guard (e.start + e.size = stop)
  return image

def reader : ByteReader Image := do
  let _ ← ByteReader.take 4
  let count ← ByteReader.littleEndian 2
  let some e := Entry.best? (← Entry.reader.times count) | failure
  ByteReader.seek e.start
  let start ← ByteReader.take Png.signature.length
  ByteReader.seek e.start
  if start.toList = Png.signature then readPng e else readBitmap e

def decode? (bytes : ByteArray) : Option Image := reader.read? bytes

end IsoScene.Codec.Icon
