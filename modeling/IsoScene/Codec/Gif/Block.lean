import IsoScene.Codec.Bytes

/-! # The blocks of GIF files

The parts of the format that reading and writing share. A file may end within a sequence of blocks,
as it may for the package `gif` 0.13.

* `encodeBlocks`, `readBlocks` — bytes in blocks of at most 255 bytes, each with its length in
  front.
* `CodeSink`, `readCode` — codes of some bits, least significant bit first.
-/

namespace IsoScene.Codec.Gif

/-! ## Blocks -/

def maxBlock : Nat := 255

/-- Bytes in blocks, and an empty block. -/
def encodeBlocks (bytes : ByteArray) : ByteArray :=
  let blocks := (List.range ((bytes.size + maxBlock - 1) / maxBlock)).map fun i =>
    let block := bytes.extract (i * maxBlock) ((i + 1) * maxBlock)
    (⟨#[UInt8.ofNat block.size]⟩ : ByteArray) ++ block
  (blocks.foldl (· ++ ·) ByteArray.empty).push 0

/-- Reads blocks up to an empty one or up to the end of the file. -/
def readBlocks : Nat → ByteArray → ByteReader ByteArray
  | 0, bytes => return bytes
  | fuel + 1, bytes => do
    if (← ByteReader.remaining) = 0 then return bytes
    let size ← ByteReader.byte
    if size = 0 then return bytes
    readBlocks fuel (bytes ++ (← ByteReader.takeUpTo size))

/-! ## Codes -/

/-- Bits that are collected into bytes, least significant bit first. -/
structure CodeSink where
  bytes : ByteArray
  held : Nat
  count : Nat

namespace CodeSink

def empty : CodeSink := ⟨ByteArray.empty, 0, 0⟩

def drain : Nat → CodeSink → CodeSink
  | 0, sink => sink
  | fuel + 1, sink =>
    if sink.count < 8 then sink
    else drain fuel ⟨sink.bytes.push (UInt8.ofNat sink.held), sink.held / 256, sink.count - 8⟩

def push (sink : CodeSink) (bits code : Nat) : CodeSink :=
  drain (sink.count + bits) ⟨sink.bytes, sink.held + code <<< sink.count, sink.count + bits⟩

/-- All bytes, the last one filled up. -/
def finish (sink : CodeSink) : ByteArray :=
  if sink.count = 0 then sink.bytes else sink.bytes.push (UInt8.ofNat sink.held)

end CodeSink

def readCode (bytes : ByteArray) (bits position : Nat) : Option Nat :=
  if position + bits ≤ 8 * bytes.size then
    let first := position / 8
    let window := byteAt bytes first + 256 * byteAt bytes (first + 1) +
      65536 * byteAt bytes (first + 2)
    some ((window >>> (position % 8)) % (1 <<< bits))
  else none

end IsoScene.Codec.Gif
