import IsoScene.Animation
import IsoScene.Codec.Gif.Block

/-! # Writing GIF files

A frame has at most 256 colours; if there are more, the colours are made coarser until they fit.

The screen, the repetition, and the delay and disposal of frames are written as by the package
`gif` 0.13. Colour tables and packed cells have other bytes there, but give the same frames, unless
a frame has more than 256 colours: the package reduces these in another way.

* `fitColors` — the cells of a frame in few enough colours.
* `Gif.encode` — a file that holds an animation.
-/

namespace IsoScene.Codec.Gif

def maxColors : Nat := 256

/-- A colour of which only the first bits of each channel are kept. -/
def coarsen (bits : Nat) (c : Rgba) : Rgba :=
  let keep := fun n : UInt8 => UInt8.ofNat ((n.toNat >>> (8 - bits)) <<< (8 - bits))
  if c.isVisible then ⟨keep c.red, keep c.green, keep c.blue, c.alpha⟩ else c

/-- The distinct colours of a frame, in the order in which they occur, or none if there are too
many. -/
def colors? (cells : Array Rgba) : Option (Array Rgba) :=
  cells.foldl
    (fun found c =>
      match found with
      | none => none
      | some colors =>
        if colors.contains c then some colors
        else if colors.size < maxColors then some (colors.push c)
        else none)
    (some #[])

/-- The cells of a frame in colours that fit, with these colours. -/
def fitColors (cells : Array Rgba) : Nat → Array Rgba × Array Rgba
  | 0 => (cells.map (coarsen 0), (colors? (cells.map (coarsen 0))).getD #[])
  | bits + 1 =>
    let coarse := cells.map (coarsen (bits + 1))
    match colors? coarse with
    | some colors => (coarse, colors)
    | none => fitColors cells bits

/-! ## Codes -/

def codeBits : Nat := 9

/-- The code that begins a new table of codes, and the code that ends the data. -/
def clearCode : Nat := 256
def endCode : Nat := 257

/-- After so many codes a new table begins, so that codes keep their number of bits. -/
def tableLength : Nat := 250

/-- The codes of a frame's cells, each a code of its own. -/
def pixelCodes (indices : Array Nat) : ByteArray :=
  let (sink, _) := indices.foldl
    (fun (state : CodeSink × Nat) n =>
      let (sink, i) := state
      let sink := if i % tableLength = 0 then sink.push codeBits clearCode else sink
      (sink.push codeBits n, i + 1))
    (CodeSink.empty, 0)
  (sink.push codeBits endCode).finish

/-! ## Files -/

def colorTable (colors : Array Rgba) : ByteArray :=
  (List.range maxColors).foldl
    (fun out i =>
      let c := colors.getD i Rgba.transparent
      ((out.push c.red).push c.green).push c.blue)
    ByteArray.empty

/-- A frame with its delay. The background comes back before the next frame. -/
def frame (delay : Nat) (image : Image) : ByteArray :=
  let (cells, colors) := fitColors image.cells 8
  let transparent := colors.findIdx? fun c => !c.isVisible
  let control := [0x21, 0xF9, 4, if transparent.isSome then 9 else 8] ++ toLittleEndian 2 delay ++
    [UInt8.ofNat (transparent.getD 0), 0]
  let place := [0x2C, 0, 0, 0, 0] ++ toLittleEndian 2 image.width ++
    toLittleEndian 2 image.height ++ [0x87]
  let indices := cells.map fun c => (colors.findIdx? (· = c)).getD 0
  ⟨(control ++ place).toArray⟩ ++ colorTable colors ++ ⟨#[8]⟩ ++ encodeBlocks (pixelCodes indices)

/-- The block that makes an animation repeat for ever. -/
def loopBlock : ByteArray :=
  ⟨#[0x21, 0xFF, 11]⟩ ++ "NETSCAPE2.0".toUTF8 ++ ⟨#[3, 1, 0, 0, 0]⟩

def encode (animation : Animation) : ByteArray :=
  let screen := toLittleEndian 2 animation.width ++ toLittleEndian 2 animation.height ++ [0, 0, 0]
  let start := "GIF89a".toUTF8 ++ ⟨screen.toArray⟩ ++ loopBlock
  (animation.frames.foldl (fun out image => out ++ frame animation.delay image) start).push 0x3B

end IsoScene.Codec.Gif
