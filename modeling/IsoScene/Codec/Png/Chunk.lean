import IsoScene.Codec.Bytes

/-! # The chunks of PNG files

After a signature a PNG file is a sequence of chunks. A chunk has a kind of four letters and ends
with a sum of its bytes. Which wrong sums are faults follows the package `png` 0.17.

* `Chunk.reader` — reads a chunk and notes whether its sum is right.
* `Chunk.encode` — the bytes of a chunk.
-/

namespace IsoScene.Codec.Png

def signature : List UInt8 := [0x89, 0x50, 0x4E, 0x47, 0x0D, 0x0A, 0x1A, 0x0A]

/-! ## Sums -/

/-- One step of the sum that ends a chunk, for one byte. -/
def crcByte (byte : Nat) : Nat :=
  (List.range 8).foldl
    (fun n _ => if n % 2 = 1 then Nat.xor (n / 2) 0xEDB88320 else n / 2) byte

def crcTable : Array Nat := ((List.range 256).map crcByte).toArray

def crc (bytes : ByteArray) : Nat :=
  Nat.xor 0xFFFFFFFF <| bytes.foldl
    (fun n byte => Nat.xor (crcTable.getD (Nat.xor (n % 256) byte.toNat) 0) (n / 256)) 0xFFFFFFFF

/-! ## Chunks -/

structure Chunk where
  kind : String
  content : ByteArray
  isSound : Bool

namespace Chunk

def pixelKind : String := "IDAT"

/-- A chunk whose kind begins with a capital letter must not be damaged. -/
def isCritical (chunk : Chunk) : Bool :=
  match chunk.kind.toList with
  | [] => false
  | c :: _ => c.toNat / 32 % 2 = 0

def peekKind : ByteReader String := do
  let start ← ByteReader.position
  let _ ← ByteReader.take 4
  let kind ← ByteReader.latin 4
  ByteReader.seek start
  return kind

def reader : ByteReader Chunk := do
  let length ← ByteReader.bigEndian 4
  let start ← ByteReader.position
  let kind ← ByteReader.latin 4
  let content ← ByteReader.take length
  ByteReader.seek start
  let body ← ByteReader.take (4 + length)
  let sum ← ByteReader.bigEndian 4
  return ⟨kind, content, sum = crc body⟩

def encode (kind : String) (content : ByteArray) : ByteArray :=
  let body := kind.toUTF8 ++ content
  ⟨(toBigEndian 4 content.size).toArray⟩ ++ body ++ ⟨(toBigEndian 4 (crc body)).toArray⟩

end Chunk

end IsoScene.Codec.Png
