import IsoScene.Codec.Bytes

/-! # Packed bytes

The packed format that picture files use: blocks of stored bytes, or of literals and references
back into what has been unpacked, in prefix codes. Unpacking follows the package `fdeflate` 0.3:
which bytes it takes, and what they hold. Packing does not; it stores the bytes as they are.

* `BitStream` — bytes read bit by bit, least significant bit first.
* `PrefixCode` — a code from the lengths of its words.
* `inflate?` — unpacks all blocks.
* `store` — packs bytes into stored blocks.
-/

namespace IsoScene.Codec

/-- Bytes with the number of bits that have been read. -/
structure BitStream where
  bytes : ByteArray
  position : Nat

namespace BitStream

def bit? (s : BitStream) : Option (Nat × BitStream) :=
  match s.bytes[s.position / 8]? with
  | some byte => some ((byte.toNat >>> (s.position % 8)) % 2, { s with position := s.position + 1 })
  | none => none

/-- Reads a number of some bits, least significant bit first. -/
def bits? : Nat → BitStream → Option (Nat × BitStream)
  | 0, s => some (0, s)
  | count + 1, s => do
    let (low, s) ← s.bit?
    let (high, s) ← bits? count s
    some (low + 2 * high, s)

def alignByte (s : BitStream) : BitStream := { s with position := (s.position + 7) / 8 * 8 }

end BitStream

def maxCodeLength : Nat := 15

/-- A prefix code: how many words each length has, and the symbols in the order of their words. -/
structure PrefixCode where
  counts : Array Nat
  symbols : Array Nat

namespace PrefixCode

/-- The code in which symbol `i` has a word of the `i`-th length; zero stands for no word. -/
def ofLengths (lengths : List Nat) : PrefixCode where
  counts := ((List.range (maxCodeLength + 1)).map lengths.count).toArray
  symbols := ((List.range maxCodeLength).flatMap fun i =>
    (lengths.zipIdx.filter fun entry => entry.1 = i + 1).map (·.2)).toArray

/-- Reads the rest of a word. `word` is what has been read, `first` the first word of the present
length, and `index` the position of its symbol. -/
def readFrom (code : PrefixCode) :
    Nat → Nat → Nat → Nat → Nat → BitStream → Option (Nat × BitStream)
  | 0, _, _, _, _, _ => none
  | more + 1, length, word, first, index, s => do
    let (bit, s) ← s.bit?
    let word := 2 * word + bit
    let count := code.counts.getD length 0
    if word < first + count then
      let symbol ← code.symbols[index + (word - first)]?
      some (symbol, s)
    else code.readFrom more (length + 1) word (2 * (first + count)) (index + count) s

def read (code : PrefixCode) (s : BitStream) : Option (Nat × BitStream) :=
  code.readFrom maxCodeLength 1 0 0 0 s

/-- The share of all words of the greatest length that begin with a word of the code. -/
def weight (code : PrefixCode) : Nat :=
  (List.range maxCodeLength).foldr
    (fun i sum => (code.counts.getD (i + 1) 0) <<< (maxCodeLength - (i + 1)) + sum) 0

/-- Every long enough sequence of bits begins with exactly one word of the code. -/
def IsComplete (code : PrefixCode) : Prop := code.weight = 1 <<< maxCodeLength

instance (code : PrefixCode) : Decidable code.IsComplete := by unfold IsComplete; infer_instance

/-- A code for distances is complete, or has at most one word, of one bit. -/
def IsDistanceCode (code : PrefixCode) : Prop :=
  code.IsComplete ∨ code.symbols.size = 0 ∨ code.symbols.size = 1 ∧ code.counts.getD 1 0 = 1

instance (code : PrefixCode) : Decidable code.IsDistanceCode := by
  unfold IsDistanceCode; infer_instance

end PrefixCode

/-! ## Literals and references -/

/-- The least length of a reference with a symbol, and the number of bits that add to it. -/
def lengthBase : Array (Nat × Nat) :=
  #[(3, 0), (4, 0), (5, 0), (6, 0), (7, 0), (8, 0), (9, 0), (10, 0), (11, 1), (13, 1), (15, 1),
    (17, 1), (19, 2), (23, 2), (27, 2), (31, 2), (35, 3), (43, 3), (51, 3), (59, 3), (67, 4),
    (83, 4), (99, 4), (115, 4), (131, 5), (163, 5), (195, 5), (227, 5), (258, 0)]

/-- The least distance of a reference with a symbol, and the number of bits that add to it. -/
def distanceBase : Array (Nat × Nat) :=
  #[(1, 0), (2, 0), (3, 0), (4, 0), (5, 1), (7, 1), (9, 2), (13, 2), (17, 3), (25, 3), (33, 4),
    (49, 4), (65, 5), (97, 5), (129, 6), (193, 6), (257, 7), (385, 7), (513, 8), (769, 8),
    (1025, 9), (1537, 9), (2049, 10), (3073, 10), (4097, 11), (6145, 11), (8193, 12), (12289, 12),
    (16385, 13), (24577, 13)]

def readBased (base : Array (Nat × Nat)) (symbol : Nat) (s : BitStream) :
    Option (Nat × BitStream) := do
  let (least, extra) ← base[symbol]?
  let (more, s) ← s.bits? extra
  some (least + more, s)

/-- Repeats earlier bytes at the end of the output. -/
def copyBack (distance : Nat) : Nat → ByteArray → Option ByteArray
  | 0, out => some out
  | count + 1, out =>
    if distance ≤ out.size then
      match out[out.size - distance]? with
      | some byte => copyBack distance count (out.push byte)
      | none => none
    else none

def endOfBlock : Nat := 256

/-- Unpacks a block of literals and references up to its end. -/
def inflateCoded (literals distances : PrefixCode) :
    Nat → BitStream → ByteArray → Option (BitStream × ByteArray)
  | 0, _, _ => none
  | fuel + 1, s, out => do
    let (symbol, s) ← literals.read s
    if symbol < 256 then inflateCoded literals distances fuel s (out.push (UInt8.ofNat symbol))
    else if symbol = endOfBlock then some (s, out)
    else
      let (count, s) ← readBased lengthBase (symbol - 257) s
      let (symbol, s) ← distances.read s
      let (distance, s) ← readBased distanceBase symbol s
      let out ← copyBack distance count out
      inflateCoded literals distances fuel s out

def copyStored : Nat → BitStream → ByteArray → Option (BitStream × ByteArray)
  | 0, s, out => some (s, out)
  | count + 1, s, out => do
    let (byte, s) ← s.bits? 8
    copyStored count s (out.push (UInt8.ofNat byte))

/-! ## Codes -/

/-- The lengths of the words for literals in blocks that do not bring a code. -/
def fixedLengths : List Nat :=
  List.replicate 144 8 ++ List.replicate 112 9 ++ List.replicate 24 7 ++ List.replicate 8 8

/-- The order in which the lengths of the words for lengths are given. -/
def lengthOrder : List Nat := [16, 17, 18, 0, 8, 7, 9, 6, 10, 5, 11, 4, 12, 3, 13, 2, 14, 1, 15]

def readTriples : Nat → BitStream → Option (List Nat × BitStream)
  | 0, s => some ([], s)
  | count + 1, s => do
    let (n, s) ← s.bits? 3
    let (rest, s) ← readTriples count s
    some (n :: rest, s)

/-- Reads the lengths of words, some of them as repetitions. `read` holds the lengths so far, last
one first. -/
def readLengths (code : PrefixCode) (count : Nat) :
    Nat → List Nat → BitStream → Option (List Nat × BitStream)
  | 0, _, _ => none
  | fuel + 1, read, s =>
    if read.length = count then some (read.reverse, s)
    else if count < read.length then none
    else do
      let (symbol, s) ← code.read s
      if symbol < 16 then readLengths code count fuel (symbol :: read) s
      else
        let (value, least, extra) ← match symbol, read with
          | 16, [] => none
          | 16, last :: _ => some (last, 3, 2)
          | 17, _ => some (0, 3, 3)
          | _, _ => some (0, 11, 7)
        let (more, s) ← s.bits? extra
        readLengths code count fuel (List.replicate (least + more) value ++ read) s

def maxLiterals : Nat := 286
def maxDistances : Nat := 30

def readCodes (s : BitStream) : Option (PrefixCode × PrefixCode × BitStream) := do
  let (literals, s) ← s.bits? 5
  let (distances, s) ← s.bits? 5
  let (lengths, s) ← s.bits? 4
  let literals := literals + 257
  let distances := distances + 1
  guard (literals ≤ maxLiterals ∧ distances ≤ maxDistances)
  let (triples, s) ← readTriples (lengths + 4) s
  let given := lengthOrder.zip triples
  let code := PrefixCode.ofLengths ((List.range 19).map fun i => (given.lookup i).getD 0)
  guard code.IsComplete
  let (all, s) ← readLengths code (literals + distances) (literals + distances + 1) [] s
  let literalCode := PrefixCode.ofLengths (all.take literals)
  let distanceCode := PrefixCode.ofLengths (all.drop literals)
  guard (literalCode.IsComplete ∧ endOfBlock ∈ literalCode.symbols ∧ distanceCode.IsDistanceCode)
  some (literalCode, distanceCode, s)

/-! ## Blocks -/

def maxStored : Nat := 65535

/-- Unpacks one block. The number says how it is packed. -/
def inflateBlock (kind : Nat) (s : BitStream) (out : ByteArray) :
    Option (BitStream × ByteArray) := do
  let fuel := 8 * s.bytes.size + 1
  match kind with
  | 0 =>
    let (count, s) ← s.alignByte.bits? 16
    let (complement, s) ← s.bits? 16
    guard (count + complement = maxStored)
    copyStored count s out
  | 1 =>
    inflateCoded (PrefixCode.ofLengths fixedLengths)
      (PrefixCode.ofLengths (List.replicate 30 5)) fuel s out
  | 2 =>
    let (literals, distances, s) ← readCodes s
    inflateCoded literals distances fuel s out
  | _ => none

def inflateBlocks : Nat → BitStream → ByteArray → Option (BitStream × ByteArray)
  | 0, _, _ => none
  | fuel + 1, s, out => do
    let (isLast, s) ← s.bit?
    let (kind, s) ← s.bits? 2
    let (s, out) ← inflateBlock kind s out
    if isLast = 1 then some (s, out) else inflateBlocks fuel s out

/-- The two bytes in front of the blocks name the way of packing and a window of at most 32768
bytes, ask for no dictionary, and are a multiple of 31. -/
def IsPackedHeader (first second : Nat) : Prop :=
  first % 16 = 8 ∧ first / 16 ≤ 7 ∧ second / 32 % 2 = 0 ∧ (256 * first + second) % 31 = 0

instance (first second : Nat) : Decidable (IsPackedHeader first second) := by
  unfold IsPackedHeader; infer_instance

/-- Unpacks bytes. Behind the blocks there have to be four bytes for a sum, whatever they are. -/
def inflate? (bytes : ByteArray) : Option ByteArray := do
  guard (IsPackedHeader (byteAt bytes 0) (byteAt bytes 1))
  let (s, out) ← inflateBlocks (8 * bytes.size + 1) ⟨bytes, 16⟩ ByteArray.empty
  guard (s.alignByte.position / 8 + 4 ≤ bytes.size)
  some out

/-! ## Storing -/

def storedBlock (isLast : Bool) (content : ByteArray) : ByteArray :=
  ⟨((if isLast then 1 else 0) :: toLittleEndian 2 content.size ++
    toLittleEndian 2 (maxStored - content.size)).toArray⟩ ++ content

/-- The sum that ends packed bytes. -/
def checkSum (bytes : ByteArray) : Nat :=
  let sums := bytes.foldl
    (fun (a, b) byte =>
      let a := (a + byte.toNat) % 65521
      (a, (b + a) % 65521)) (1, 0)
  sums.2 * 65536 + sums.1

def store (bytes : ByteArray) : ByteArray :=
  let count := max 1 ((bytes.size + maxStored - 1) / maxStored)
  let blocks := (List.range count).map fun i =>
    storedBlock (i + 1 = count) (bytes.extract (i * maxStored) ((i + 1) * maxStored))
  blocks.foldl (· ++ ·) ⟨#[0x78, 0x01]⟩ ++ ⟨(toBigEndian 4 (checkSum bytes)).toArray⟩

end IsoScene.Codec
