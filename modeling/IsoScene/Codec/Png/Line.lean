import IsoScene.Codec.Png.Header

/-! # The lines of PNG files

The pixels of a picture are stored in lines, in one pass or in seven. Every line begins with the
number of a filter: bytes are stored as differences from what the bytes on the left and above let
expect. Unknown filters are faults, as they are for the package `png` 0.17.

* `unfilter` — a line without its filter.
* `Pass` — which pixels a pass holds.
* `Preamble.pixel` — a pixel of a line.
-/

namespace IsoScene.Codec.Png

/-! ## Filters -/

/-- The one of three bytes that is nearest to where they lead. -/
def predict (left up corner : Nat) : Nat :=
  let distance := fun n : Nat => ((left : Int) + up - corner - n).natAbs
  if distance left ≤ distance up ∧ distance left ≤ distance corner then left
  else if distance up ≤ distance corner then up
  else corner

/-- What a byte is expected to be, from three bytes before it. -/
inductive Filter where
  | none
  | left
  | up
  | mean
  | nearest
deriving DecidableEq

namespace Filter

def ofNumber? : Nat → Option Filter
  | 0 => some none
  | 1 => some left
  | 2 => some up
  | 3 => some mean
  | 4 => some nearest
  | _ => Option.none

def expected (filter : Filter) (left up corner : Nat) : Nat :=
  match filter with
  | .none => 0
  | .left => left
  | .up => up
  | .mean => (left + up) / 2
  | .nearest => predict left up corner

end Filter

/-- A line without its filter. `above` is the line above it, and `reach` the distance to the byte
on the left that a byte is filtered with. -/
def unfilter (filter : Filter) (reach : Nat) (above line : ByteArray) : ByteArray :=
  (List.range line.size).foldl
    (fun out i =>
      let before := fun source => if reach ≤ i then byteAt source (i - reach) else 0
      let expected := filter.expected (before out) (byteAt above i) (before above)
      out.push (UInt8.ofNat (byteAt line i + expected)))
    ByteArray.empty

def readLines (reach size : Nat) :
    Nat → ByteArray → Array ByteArray → ByteReader (Array ByteArray)
  | 0, _, lines => return lines
  | count + 1, above, lines => do
    let some filter := Filter.ofNumber? (← ByteReader.byte) | failure
    let line := unfilter filter reach above (← ByteReader.take size)
    readLines reach size count line (lines.push line)

/-! ## Passes -/

/-- One pass over a picture: its first column and row, and the steps from one to the next. -/
structure Pass where
  column : Nat
  row : Nat
  columnStep : Nat
  rowStep : Nat

namespace Pass

def all (interlaced : Bool) : List Pass :=
  if interlaced then
    [⟨0, 0, 8, 8⟩, ⟨4, 0, 8, 8⟩, ⟨0, 4, 4, 8⟩, ⟨2, 0, 4, 4⟩, ⟨0, 2, 2, 4⟩, ⟨1, 0, 2, 2⟩,
      ⟨0, 1, 1, 2⟩]
  else [⟨0, 0, 1, 1⟩]

/-- How many of the places from `first` on, with a step, are below a limit. -/
def countPlaces (first step limit : Nat) : Nat := (limit - first + step - 1) / step

def reader (pass : Pass) (h : Header) : ByteReader (Array ByteArray) :=
  let columns := countPlaces pass.column pass.columnStep h.width
  let rows := countPlaces pass.row pass.rowStep h.height
  if columns = 0 then return #[]
  else
    readLines (max 1 (h.pixelBits / 8)) ((columns * h.pixelBits + 7) / 8) rows ByteArray.empty #[]

/-- The pass holds the pixels in this column and row. -/
def holds (pass : Pass) (x y : Nat) : Bool :=
  pass.column ≤ x && pass.row ≤ y && (x - pass.column) % pass.columnStep == 0 &&
    (y - pass.row) % pass.rowStep == 0

end Pass

/-! ## Pixels -/

def sampleAt (depth : Nat) (line : ByteArray) (index : Nat) : Nat :=
  if depth = 16 then byteAt line (2 * index) * 256 + byteAt line (2 * index + 1)
  else
    (byteAt line (index * depth / 8) >>> (8 - depth - index * depth % 8)) % (1 <<< depth)

def sampleByte (depth n : Nat) : UInt8 := if depth = 16 then narrowSample n else widenSample depth n

namespace Preamble

/-- What the samples of a pixel stand for, when the palette and the transparent colours have been
put in. -/
def layout (p : Preamble) (samples : Samples) : PixelLayout :=
  match samples, p.hasAlpha with
  | .palette, true => .rgba
  | .palette, false => .rgb
  | .direct .gray, true => .grayAlpha
  | .direct .rgb, true => .rgba
  | .direct layout, _ => layout

/-- The entry of the palette with a number; black if there is none. -/
def paletteEntry (p : Preamble) (n : Nat) : Rgba :=
  if 3 * n + 3 ≤ p.palette.size then
    let channel := fun i => UInt8.ofNat (byteAt p.palette (3 * n + i))
    ⟨channel 0, channel 1, channel 2, p.alphas[n]?.getD 255⟩
  else ⟨0, 0, 0, 255⟩

def pixel (p : Preamble) (h : Header) (line : ByteArray) (column : Nat) : Rgba :=
  let raw := fun i => sampleAt h.depth line (column * h.channels + i)
  match h.samples with
  | .palette => p.paletteEntry (raw 0)
  | .direct layout =>
    let pixel := layout.pixel fun i => sampleByte h.depth (raw i)
    if p.key = some ((List.range h.channels).map raw) then { pixel with alpha := 0 } else pixel

end Preamble

end IsoScene.Codec.Png
