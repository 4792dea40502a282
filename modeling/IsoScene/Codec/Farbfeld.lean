import IsoScene.Codec.Bytes
import IsoScene.Codec.Pixels

/-! # Farbfeld files

A word, two sides, and four samples of sixteen bits for each pixel. This follows the decoder of the
package `image` 0.24.

* `Farbfeld.decode?` — the picture in a file.
-/

namespace IsoScene.Codec.Farbfeld

def signature : String := "farbfeld"

def reader : ByteReader Image := do
  guard ((← ByteReader.latin 8) = signature)
  let width ← ByteReader.bigEndian 4
  let height ← ByteReader.bigEndian 4
  let samples ← ByteReader.take (width * height * 8)
  let sample := fun i => narrowSample (256 * byteAt samples (2 * i) + byteAt samples (2 * i + 1))
  let some image := PixelLayout.rgba.picture? width height 2 sample | failure
  return image

def decode? (bytes : ByteArray) : Option Image := reader.read? bytes

end IsoScene.Codec.Farbfeld
