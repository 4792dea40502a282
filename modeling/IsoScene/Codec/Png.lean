import IsoScene.Codec.Inflate
import IsoScene.Codec.Png.Line

/-! # PNG files

Reading follows the package `png` 0.17 and the conversion to pixels of four bytes in `image` 0.24:
which files are taken, and what picture is in them. Written files hold the picture in stored blocks;
their bytes are not those of the package.

* `Png.decode?` — the picture in a file, of any kind of colours.
* `Png.encode` — a file that holds a picture.
-/

namespace IsoScene.Codec.Png

/-! ## Reading -/

/-- Reads the chunks that hold the pixels, one after another. Something has to stand behind
them. -/
def readPacked : Nat → ByteArray → ByteReader ByteArray
  | 0, _ => failure
  | fuel + 1, packed => do
    if (← Chunk.peekKind) ≠ Chunk.pixelKind then return packed
    let chunk ← Chunk.reader
    guard chunk.isSound
    readPacked fuel (packed ++ chunk.content)

structure Parts where
  header : Header
  preamble : Preamble
  packed : ByteArray

def Parts.sampleBytes (parts : Parts) : Nat := if parts.header.depth = 16 then 2 else 1

def Parts.layout (parts : Parts) : PixelLayout := parts.preamble.layout parts.header.samples

def Parts.reader : ByteReader Parts := do
  guard ((← ByteReader.take 8).toList = signature)
  let preamble ← Preamble.reader
  let some header := preamble.header | failure
  guard (header.samples = .palette → preamble.palette.size ≠ 0)
  let packed ← readPacked (← ByteReader.remaining) ByteArray.empty
  return ⟨header, preamble, packed⟩

def Parts.picture? (parts : Parts) : Option Image := do
  let h := parts.header
  guard (parts.layout.Fits h.width h.height parts.sampleBytes)
  let data ← inflate? parts.packed
  let passes := Pass.all h.interlaced
  let lines ← (passes.mapM fun pass => pass.reader h : ByteReader _).read? data
  let pixelOf := fun (pass : Pass) (lines : Array ByteArray) x y =>
    parts.preamble.pixel h (lines.getD ((y - pass.row) / pass.rowStep) ByteArray.empty)
      ((x - pass.column) / pass.columnStep)
  some (Raster.ofFn h.width h.height fun x y =>
    match (passes.zip lines).find? fun (pass, _) => pass.holds x y with
    | some (pass, lines) => pixelOf pass lines x y
    | none => Rgba.transparent)

def decode? (bytes : ByteArray) : Option Image := do (← Parts.reader.read? bytes).picture?

/-! ## Writing -/

def pushColor (out : ByteArray) (c : Rgba) : ByteArray :=
  (((out.push c.red).push c.green).push c.blue).push c.alpha

def pixelData (image : Image) : ByteArray :=
  (List.range image.height).foldl
    (fun out y =>
      (image.cells.extract (y * image.width) ((y + 1) * image.width)).foldl pushColor (out.push 0))
    ByteArray.empty

def encode (image : Image) : ByteArray :=
  let header := toBigEndian 4 image.width ++ toBigEndian 4 image.height ++ [8, 6, 0, 0, 0]
  ⟨signature.toArray⟩ ++ Chunk.encode "IHDR" ⟨header.toArray⟩ ++
    Chunk.encode Chunk.pixelKind (store (pixelData image)) ++ Chunk.encode "IEND" ByteArray.empty

end IsoScene.Codec.Png
