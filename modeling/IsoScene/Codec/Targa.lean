import IsoScene.Codec.Bytes
import IsoScene.Codec.Pixels

/-! # Targa files

A file holds samples or entries of a table, plain or in packets with repetitions. Blue comes before
red, and the last line comes first unless a flag says otherwise. Which files are taken follows the
decoder of the package `image` 0.24.

* `Targa.decode?` — the picture in a file.
-/

namespace IsoScene.Codec.Targa

/-- What stands in front of the pixels. `mapKind` says whether there is a table, and `entryBits`
how many bits its entries have. -/
structure Header where
  mapKind : Nat
  kind : Nat
  mapStart : Nat
  mapLength : Nat
  entryBits : Nat
  width : Nat
  height : Nat
  depth : Nat
  flags : Nat

namespace Header

def reader : ByteReader Header := do
  let words ← ByteReader.byte
  let mapKind ← ByteReader.byte
  let kind ← ByteReader.byte
  let mapStart ← ByteReader.littleEndian 2
  let mapLength ← ByteReader.littleEndian 2
  let entryBits ← ByteReader.byte
  let _ ← ByteReader.take 4
  let width ← ByteReader.littleEndian 2
  let height ← ByteReader.littleEndian 2
  let depth ← ByteReader.byte
  let flags ← ByteReader.byte
  let _ ← ByteReader.take words
  return ⟨mapKind, kind, mapStart, mapLength, entryBits, width, height, depth, flags⟩

/-- The pixels are entries of a table. -/
def isMapped (h : Header) : Bool := h.kind == 1 || h.kind == 9

/-- The pixels are in packets. -/
def isPacked (h : Header) : Bool := h.kind == 9 || h.kind == 10 || h.kind == 11

def isColored (h : Header) : Bool := h.isMapped || h.kind == 2 || h.kind == 10

def pixelBytes (h : Header) : Nat := h.depth / 8

def entryBytes (h : Header) : Nat := (h.entryBits + 7) / 8

def alphaBits (h : Header) : Nat := h.flags % 16

/-- The first line of the picture comes first. -/
def isUpright (h : Header) : Bool := h.flags / 32 % 2 == 1

/-- What the samples stand for. Alpha alone is taken for gray. -/
def layout? (h : Header) : Option PixelLayout := do
  guard (h.depth % 8 = 0 ∧ h.depth ≤ 32 ∧ (h.mapKind ≠ 0 ∨ h.alphaBits ≤ h.depth))
  let bits := if h.mapKind = 0 then h.depth - h.alphaBits else h.entryBits
  match h.alphaBits, bits, h.isColored with
  | 0, 32, true | 8, 24, true => some .rgba
  | 0, 24, true => some .rgb
  | 8, 8, false => some .grayAlpha
  | 0, 8, false | 8, 0, false => some .gray
  | _, _, _ => none

end Header

/-- Reads packets until there are enough bytes. A packet is one pixel that is repeated, or some
pixels. -/
def readPackets (pixelBytes size : Nat) : Nat → ByteArray → ByteReader ByteArray
  | 0, _ => failure
  | fuel + 1, out => do
    if size ≤ out.size then return out
    let packet ← ByteReader.byte
    let count := packet % 128 + 1
    if 128 ≤ packet then
      let pixel ← ByteReader.takeUpTo pixelBytes
      readPackets pixelBytes size fuel ((List.replicate count pixel).foldl (· ++ ·) out)
    else
      let pixels ← ByteReader.takeUpTo (count * pixelBytes)
      readPackets pixelBytes size fuel (out ++ pixels)

def lookUp (h : Header) (table : ByteArray) (numbers : ByteArray) : Option ByteArray :=
  if h.pixelBytes = 0 then none
  else
    (List.range (numbers.size / h.pixelBytes)).foldlM
      (fun out i =>
        let number := ofBigEndian
          (numbers.extract (i * h.pixelBytes) ((i + 1) * h.pixelBytes)).toList
        let start := h.mapStart + h.entryBytes * number
        if start + h.entryBytes ≤ table.size then
          some (out ++ table.extract start (start + h.entryBytes))
        else none)
      ByteArray.empty

/-- The number of the sample that stands where another one belongs: blue and red change places. -/
def swapped (layout : PixelLayout) (index : Nat) : Nat :=
  match layout with
  | .gray | .grayAlpha => index
  | .rgb | .rgba =>
    let channel := index % layout.channels
    if channel = 0 then index + 2 else if channel = 2 then index - 2 else index

def reader : ByteReader Image := do
  let h ← Header.reader
  let table ← if h.mapKind = 1 then ByteReader.take (h.entryBytes * h.mapLength)
    else pure ByteArray.empty
  let some layout := h.layout? | failure
  guard (layout.Fits h.width h.height 1)
  let size := h.width * h.height * h.pixelBytes
  let data ← if h.isPacked then
      readPackets h.pixelBytes size ((← ByteReader.remaining) + 1) ByteArray.empty
    else ByteReader.take size
  let data := data.extract 0 size
  let samples ← if h.isMapped then
      match if h.mapKind = 1 then lookUp h table data else none with
      | some samples => pure samples
      | none => failure
    else pure data
  guard (!h.isMapped || samples.size == h.width * h.height * layout.channels)
  let row := fun y => if h.isUpright then y else h.height - 1 - y
  return Raster.ofFn h.width h.height fun x y =>
    layout.pixel fun i =>
      let index := swapped layout ((row y * h.width + x) * layout.channels + i)
      UInt8.ofNat (byteAt samples index)

def decode? (bytes : ByteArray) : Option Image := reader.read? bytes

end IsoScene.Codec.Targa
