import IsoScene.Codec.Bytes
import IsoScene.Codec.Pixels

/-! # BMP files

A header gives the sizes, the number of bits of a pixel and how pixels are stored: as entries of a
palette, plain or in runs, as channels of whole bytes, or as channels of some bits. Blue comes
before red, and the last line comes first unless the height is negative. Which headers are taken,
and what becomes of runs that leave the picture, follows the decoder of the package `image` 0.24.

* `Header.reader` — reads a header in one of its known lengths.
* `ChannelBits` — the bits of one channel within a pixel.
* `Bitmap.readPixels` — reads the pixels that a header announces.
* `Bitmap.decode?` — the picture in a file.
-/

namespace IsoScene.Codec.Bitmap

/-! ## Channels of some bits -/

structure ChannelBits where
  shift : Nat
  count : Nat

namespace ChannelBits

/-- The number of zeros at the end of a number in binary, at most as many as the bound. -/
def trailingZeros : Nat → Nat → Nat
  | 0, _ => 0
  | bound + 1, n => if n % 2 = 1 then 0 else trailingZeros bound (n / 2) + 1

/-- The number of ones at the end of a number in binary, at most as many as the bound. -/
def trailingOnes : Nat → Nat → Nat
  | 0, _ => 0
  | bound + 1, n => if n % 2 = 1 then trailingOnes bound (n / 2) + 1 else 0

/-- The bits of a mask. They have to be neighbours within the bits of a pixel; of more than eight
only the first eight count. -/
def ofMask? (mask pixelBits : Nat) : Option ChannelBits :=
  if mask = 0 then some ⟨0, 0⟩
  else
    let shift := trailingZeros 32 mask
    let count := trailingOnes 32 (mask >>> shift)
    if mask >>> shift >>> count ≠ 0 ∨ pixelBits < shift + count then none
    else some ⟨shift + (count - 8), min count 8⟩

def read (bits : ChannelBits) (pixel : Nat) : UInt8 :=
  widenSample bits.count (pixel >>> bits.shift % (1 <<< bits.count))

end ChannelBits

/-- The bits of all channels. No bits for alpha make every pixel opaque. -/
structure PixelBits where
  red : ChannelBits
  green : ChannelBits
  blue : ChannelBits
  alpha : ChannelBits

namespace PixelBits

/-- Five bits for each of three channels. -/
def fifteen : PixelBits := ⟨⟨10, 5⟩, ⟨5, 5⟩, ⟨0, 5⟩, ⟨0, 0⟩⟩

def read (bits : PixelBits) (pixel : Nat) : Rgba :=
  ⟨bits.red.read pixel, bits.green.read pixel, bits.blue.read pixel,
    if bits.alpha.count = 0 then 255 else bits.alpha.read pixel⟩

end PixelBits

/-! ## Headers -/

inductive Storage where
  /-- Entries of the palette. -/
  | entries
  /-- Entries of the palette in runs. -/
  | runs
  /-- Whole bytes: blue, green and red. -/
  | threeBytes
  /-- Whole bytes: blue, green, red, and one more that may be alpha. -/
  | fourBytes
  /-- Some bits for each channel. -/
  | bits (layout : PixelBits)

structure Header where
  width : Nat
  height : Nat
  /-- The first line of the picture comes first. -/
  isUpright : Bool
  /-- The number of bits of a pixel. -/
  depth : Nat
  storage : Storage
  /-- The pixels have an alpha channel. -/
  hasAlpha : Bool
  palette : Array Rgba

/-- The greatest side of a picture whose last line comes first. -/
def maxSide : Nat := 65535

/-- The lengths of headers, without and with masks for the channels, and with one for alpha. -/
def shortLength : Nat := 12
def lengths : List Nat := [40, 52, 56, 108, 124]
def alphaLengths : List Nat := [56, 108, 124]

/-- A whole number of thirty-two bits in two's complement. -/
def signed32 (n : Nat) : Int := if n < 0x80000000 then n else (n : Int) - 0x100000000

/-- Reads a palette. It has 256 entries in the end; those that are not there are black. -/
def readPalette (entryBytes count : Nat) : ByteReader (Array Rgba) := do
  let data ← ByteReader.take (min count 256 * entryBytes)
  return ((List.range 256).map fun i =>
    let channel := fun k => UInt8.ofNat (byteAt data (i * entryBytes + k))
    ⟨channel 2, channel 1, channel 0, 255⟩).toArray

def paletteDepths : List Nat := [1, 2, 4, 8]

def readShort : ByteReader Header := do
  let width ← ByteReader.littleEndian 2
  let height ← ByteReader.littleEndian 2
  let planes ← ByteReader.littleEndian 2
  let depth ← ByteReader.littleEndian 2
  guard (planes = 1)
  if depth ∈ [1, 4, 8] then
    return ⟨width, height, false, depth, .entries, false, ← readPalette 3 (1 <<< depth)⟩
  guard (depth = 24)
  return ⟨width, height, false, depth, .threeBytes, false, #[]⟩

/-- Reads the masks of the channels. Headers of some lengths have one for alpha. -/
def readMasks (length depth : Nat) : ByteReader PixelBits := do
  let red ← ByteReader.littleEndian 4
  let green ← ByteReader.littleEndian 4
  let blue ← ByteReader.littleEndian 4
  let alpha ← if length ∈ alphaLengths then ByteReader.littleEndian 4 else pure 0
  let bits? := do
    some (⟨← ChannelBits.ofMask? red depth, ← ChannelBits.ofMask? green depth,
      ← ChannelBits.ofMask? blue depth, ← ChannelBits.ofMask? alpha depth⟩ : PixelBits)
  let some bits := bits? | failure
  guard (bits.red.count ≠ 0 ∧ bits.green.count ≠ 0 ∧ bits.blue.count ≠ 0)
  return bits

def readStorage (length way depth : Nat) : ByteReader Storage := do
  match way with
  | 0 =>
    if depth ∈ paletteDepths then return .entries
    else if depth = 16 then return .bits PixelBits.fifteen
    else if depth = 24 then return .threeBytes
    else
      guard (depth = 32)
      return .fourBytes
  | 1 =>
    guard (depth = 8)
    return .runs
  | 2 =>
    guard (depth = 4)
    return .runs
  | 3 =>
    guard (depth = 16 ∨ depth = 32)
    return .bits (← readMasks length depth)
  | _ => failure

/-- Reads a header of another length, and the palette behind it. `start` is where it begins. In an
icon four bytes have an alpha channel, and masks behind the header are skipped. -/
def readLong (inIcon : Bool) (start length : Nat) : ByteReader Header := do
  let width := signed32 (← ByteReader.littleEndian 4)
  let height := signed32 (← ByteReader.littleEndian 4)
  guard (0 ≤ width ∧ width ≤ maxSide ∧ height ≤ maxSide ∧ height ≠ -0x80000000)
  let planes ← ByteReader.littleEndian 2
  let depth ← ByteReader.littleEndian 2
  let way ← ByteReader.littleEndian 4
  guard (planes = 1 ∧ (height < 0 → way = 0 ∨ way = 3))
  let _ ← ByteReader.take 12
  let colors ← ByteReader.littleEndian 4
  let _ ← ByteReader.take 4
  let storage ← readStorage length way depth
  let hasAlpha := match storage with
    | .bits bits => inIcon || bits.alpha.count != 0
    | _ => inIcon
  let header : Header := ⟨width.toNat, height.natAbs, height < 0, depth, storage, hasAlpha, #[]⟩
  match storage with
  | .entries | .runs =>
    ByteReader.seek (start + length)
    guard (colors ≤ 1 <<< depth)
    return { header with palette := ← readPalette 4 (if colors = 0 then 1 <<< depth else colors) }
  | .bits _ =>
    ByteReader.seek (start + length + if way = 3 ∧ length ∉ [52, 56] then 12 else 0)
    return header
  | _ =>
    ByteReader.seek (start + length)
    return header

def Header.reader (inIcon : Bool) : ByteReader Header := do
  let start ← ByteReader.position
  let length ← ByteReader.littleEndian 4
  if length = shortLength then
    let header ← readShort
    return { header with hasAlpha := inIcon }
  guard (length ∈ lengths)
  readLong inIcon start length

def Header.layout (h : Header) : PixelLayout := if h.hasAlpha then .rgba else .rgb

/-! ## Pixels -/

/-- The number of bytes in a line. Lines are made of whole groups of four bytes. -/
def Header.lineBytes (h : Header) : Nat := (h.width * h.depth + 31) / 32 * 4

def Header.pixel (h : Header) (data : ByteArray) (start column : Nat) : Rgba :=
  let byte := fun i => byteAt data (start + column * (h.depth / 8) + i)
  let channel := fun i => UInt8.ofNat (byte i)
  match h.storage with
  | .entries | .runs =>
    let bit := column * h.depth
    let entry := (byteAt data (start + bit / 8) >>> (8 - h.depth - bit % 8)) % (1 <<< h.depth)
    h.palette.getD entry Rgba.transparent
  | .threeBytes => ⟨channel 2, channel 1, channel 0, 255⟩
  | .fourBytes => ⟨channel 2, channel 1, channel 0, if h.hasAlpha then channel 3 else 255⟩
  | .bits bits => bits.read (((List.range (h.depth / 8)).map byte).foldr (fun b n => b + 256 * n) 0)

/-! ## Runs -/

/-- A pixel that no run has set. -/
def Header.blank (h : Header) : Rgba := if h.hasAlpha then Rgba.transparent else ⟨0, 0, 0, 255⟩

/-- The lines that are complete, and the line that runs are being added to. -/
structure Progress where
  lines : Array (Array Rgba)
  line : Array Rgba

def Progress.extend (p : Progress) (h : Header) (entries : List Nat) : Option Progress :=
  if h.width < p.line.size + entries.length then none
  else some { p with line := p.line ++ entries.map fun n => h.palette.getD n h.blank }

/-- Ends the line; pixels that are missing stay blank. -/
def Progress.endLine (p : Progress) (h : Header) : Progress :=
  ⟨p.lines.push (p.line ++ Array.replicate (h.width - p.line.size) h.blank), #[]⟩

def Progress.skip (p : Progress) (h : Header) (right down : Nat) : Option Progress :=
  let column := p.line.size + right
  if h.width < column ∨ 0 < down ∧ h.height ≤ p.lines.size + down then none
  else
    let p := down.repeat (·.endLine h) p
    some { p with line := p.line ++ Array.replicate (column - p.line.size) h.blank }

def entriesOf (depth count : Nat) (bytes : List UInt8) : List Nat :=
  let all := if depth = 8 then bytes.map UInt8.toNat
    else bytes.flatMap fun b => [b.toNat / 16, b.toNat % 16]
  all.take count

def readRuns (h : Header) : Nat → Progress → ByteReader (Array (Array Rgba))
  | 0, _ => failure
  | fuel + 1, p => do
    if h.height ≤ p.lines.size then return p.lines
    let count ← ByteReader.byte
    let next ← ByteReader.byte
    if 0 < count then
      let bytes := List.replicate count (UInt8.ofNat next)
      let some p := p.extend h (entriesOf h.depth count bytes) | failure
      readRuns h fuel p
    else
      match next with
      | 0 => readRuns h fuel (p.endLine h)
      | 1 => return ((h.height - p.lines.size).repeat (·.endLine h) p).lines
      | 2 =>
        let right ← ByteReader.byte
        let down ← ByteReader.byte
        let some p := p.skip h right down | failure
        readRuns h fuel p
      | _ =>
        let size := if h.depth = 8 then next else (next + 1) / 2
        let bytes ← ByteReader.take (size + size % 2)
        let some p := p.extend h (entriesOf h.depth next bytes.toList) | failure
        readRuns h fuel p

/-! ## Pictures -/

def readPixels (h : Header) : ByteReader Image := do
  guard (h.width ≠ 0 ∧ h.layout.Fits h.width h.height 1)
  let row := fun y => if h.isUpright then y else h.height - 1 - y
  match h.storage with
  | .runs =>
    let lines ← readRuns h ((← ByteReader.remaining) + 1) ⟨#[], #[]⟩
    return Raster.ofFn h.width h.height fun x y => (lines.getD (row y) #[]).getD x h.blank
  | _ =>
    let data ← ByteReader.take (h.lineBytes * h.height)
    return Raster.ofFn h.width h.height fun x y =>
      h.pixel data (row y * h.lineBytes) x

def signature : String := "BM"

def reader : ByteReader Image := do
  guard ((← ByteReader.latin 2) = signature)
  let _ ← ByteReader.take 8
  let start ← ByteReader.littleEndian 4
  let h ← Header.reader false
  ByteReader.seek start
  readPixels h

def decode? (bytes : ByteArray) : Option Image := reader.read? bytes

end IsoScene.Codec.Bitmap
