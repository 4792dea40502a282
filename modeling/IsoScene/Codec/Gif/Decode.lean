import IsoScene.Codec.Gif.Block
import IsoScene.Raster.Basic

/-! # Reading GIF files

Of the frames in a file the first one is read, on a screen that is transparent where the frame does
not reach. Which files are taken follows the packages `gif` 0.13 and, for packed indices, `weezl`.

* `Unpacker` — the table of codes while packed indices are read.
* `unpack?` — the indices of a frame.
* `Gif.decode?` — the first picture in a file.
-/

namespace IsoScene.Codec.Gif

/-! ## Packed indices -/

/-- The table of codes. Single indices are codes of their own; two codes behind them begin a new
table and end the data. -/
structure Unpacker where
  /-- The number of bits that single indices have. -/
  indexBits : Nat
  /-- The number of bits in the next code. -/
  codeBits : Nat
  /-- What further codes stand for: what another code stands for, and one more index. -/
  entries : Array (Nat × Nat)
  /-- The code before. -/
  last : Option Nat

namespace Unpacker

def start (indexBits : Nat) : Unpacker := ⟨indexBits, indexBits + 1, #[], none⟩

def clearCode (u : Unpacker) : Nat := 1 <<< u.indexBits

def endCode (u : Unpacker) : Nat := u.clearCode + 1

def nextCode (u : Unpacker) : Nat := u.endCode + 1 + u.entries.size

def maxBits : Nat := 12

/-- Adds an entry if there is a code for it. When the last code of some bits has been given, codes
get one bit more. -/
def add (u : Unpacker) (before index : Nat) : Unpacker :=
  if u.nextCode < 1 <<< maxBits then
    { u with
      codeBits :=
        if u.nextCode + 1 = 1 <<< u.codeBits then min maxBits (u.codeBits + 1) else u.codeBits
      entries := u.entries.push (before, index) }
  else u

/-- The indices that a code stands for, in front of others. -/
def expand (u : Unpacker) : Nat → Nat → List Nat → List Nat
  | 0, _, out => out
  | fuel + 1, code, out =>
    if code < u.clearCode then code :: out
    else
      match u.entries[code - (u.endCode + 1)]? with
      | some (before, index) => expand u fuel before (index :: out)
      | none => out

def indices (u : Unpacker) (code : Nat) : List Nat := u.expand (u.entries.size + 1) code []

/-- Reads a code that stands for indices: in front a single index, later any code of the table or
the one that is next. -/
def step (u : Unpacker) (code : Nat) : Option (List Nat × Unpacker) :=
  match u.last with
  | none => if code < u.clearCode then some ([code], { u with last := some code }) else none
  | some last =>
    if u.nextCode < code then none
    else
      let known := if code = u.nextCode then last else code
      let first := (u.indices known).headD 0
      let u := u.add last first
      some (u.indices code, { u with last := some code })

end Unpacker

/-- Unpacks indices until there are enough of them. -/
def unpackFrom (bytes : ByteArray) (count : Nat) :
    Nat → Nat → Unpacker → Array Nat → Option (Array Nat)
  | 0, _, _, _ => none
  | fuel + 1, position, u, out =>
    if count ≤ out.size then some out
    else do
      let code ← readCode bytes u.codeBits position
      let position := position + u.codeBits
      if code = u.clearCode then unpackFrom bytes count fuel position (.start u.indexBits) out
      else if code = u.endCode then none
      else
        let (indices, u) ← u.step code
        unpackFrom bytes count fuel position u (out ++ indices)

def maxIndexBits : Nat := 11

/-- The first indices of some packed ones. -/
def unpack? (bytes : ByteArray) (indexBits count : Nat) : Option (Array Nat) :=
  if maxIndexBits < indexBits then none
  else unpackFrom bytes count (8 * bytes.size + 1) 0 (.start indexBits) #[]

/-! ## Files -/

structure Screen where
  width : Nat
  height : Nat
  palette : Option ByteArray
  /-- The index that is transparent. -/
  clearIndex : Option Nat

def readPalette (flags : Nat) : ByteReader (Option ByteArray) := do
  if flags < 128 then return none else return some (← ByteReader.take (3 * (2 <<< (flags % 8))))

def pixelOf (palette : ByteArray) (clearIndex : Option Nat) (index : Nat) : Rgba :=
  if 3 * index + 3 ≤ palette.size then
    let channel := fun i => UInt8.ofNat (byteAt palette (3 * index + i))
    ⟨channel 0, channel 1, channel 2, if clearIndex = some index then 0 else 255⟩
  else Rgba.transparent

/-- The order in which interlaced lines are stored: every eighth line, those in the middle between
them, and so on. -/
def interlacedLines (height : Nat) : List Nat :=
  [(0, 8), (4, 8), (2, 4), (1, 2)].flatMap fun (first, step) =>
    (List.range height).filter fun y => first ≤ y && (y - first) % step == 0

def readFrame (screen : Screen) : ByteReader Image := do
  let left ← ByteReader.littleEndian 2
  let top ← ByteReader.littleEndian 2
  let width ← ByteReader.littleEndian 2
  let height ← ByteReader.littleEndian 2
  let flags ← ByteReader.byte
  let some palette := (← readPalette flags).or screen.palette | failure
  let indexBits ← ByteReader.byte
  let packed ← readBlocks (← ByteReader.remaining) ByteArray.empty
  let some indices := unpack? packed indexBits (width * height) | failure
  let interlaced := (interlacedLines height).toArray
  let stored := fun y => if 64 ≤ flags % 128 then (interlaced.idxOf? y).getD y else y
  return Raster.ofFn screen.width screen.height fun x y =>
    if left ≤ x ∧ x - left < width ∧ top ≤ y ∧ y - top < height then
      pixelOf palette screen.clearIndex
        (indices.getD (stored (y - top) * width + (x - left)) palette.size)
    else Rgba.transparent

/-- Reads blocks up to the first frame, and this frame. -/
def readToFrame : Nat → Screen → ByteReader Image
  | 0, _ => failure
  | fuel + 1, screen => do
    match ← ByteReader.byte with
    | 0x2C => readFrame screen
    | 0x21 =>
      match ← ByteReader.byte with
      | 0xF9 =>
        guard ((← ByteReader.byte) = 4)
        let flags ← ByteReader.byte
        let _ ← ByteReader.take 2
        let index ← ByteReader.byte
        let _ ← readBlocks (← ByteReader.remaining) ByteArray.empty
        readToFrame fuel { screen with clearIndex := if flags % 2 = 1 then some index else none }
      | 0x01 | 0xFE | 0xFF =>
        let _ ← readBlocks (← ByteReader.remaining) ByteArray.empty
        readToFrame fuel screen
      | _ => failure
    | _ => failure

def reader : ByteReader Image := do
  guard ((← ByteReader.latin 6) ∈ ["GIF87a", "GIF89a"])
  let width ← ByteReader.littleEndian 2
  let height ← ByteReader.littleEndian 2
  let flags ← ByteReader.byte
  let _ ← ByteReader.take 2
  let palette ← readPalette flags
  readToFrame (← ByteReader.remaining) ⟨width, height, palette, none⟩

def decode? (bytes : ByteArray) : Option Image := reader.read? bytes

end IsoScene.Codec.Gif
