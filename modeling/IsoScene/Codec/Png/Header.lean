import IsoScene.Codec.Pixels
import IsoScene.Codec.Png.Chunk

/-! # What stands in front of the pixels of a PNG file

The chunks in front of the pixels give the sizes of the picture, its colours, and other things
that do not matter here but have to be well formed. Which of them have to be, and how far, follows
the package `png` 0.17.

* `Header` — the sizes and the kind of colours.
* `Preamble.add?` — what is known after one more chunk, unless that is wrong.
* `Preamble.reader` — reads all chunks up to the pixels.
-/

namespace IsoScene.Codec.Png

inductive Samples where
  | palette
  | direct (layout : PixelLayout)
deriving DecidableEq

structure Header where
  width : Nat
  height : Nat
  depth : Nat
  samples : Samples
  interlaced : Bool

namespace Header

def channels (h : Header) : Nat :=
  match h.samples with
  | .palette => 1
  | .direct layout => layout.channels

def pixelBits (h : Header) : Nat := h.channels * h.depth

/-- The meaning of samples with a number, if they may have so many bits. -/
def samples? (number depth : Nat) : Option Samples :=
  match number with
  | 0 => if depth ∈ [1, 2, 4, 8, 16] then some (.direct .gray) else none
  | 2 => if depth ∈ [8, 16] then some (.direct .rgb) else none
  | 3 => if depth ∈ [1, 2, 4, 8] then some .palette else none
  | 4 => if depth ∈ [8, 16] then some (.direct .grayAlpha) else none
  | 6 => if depth ∈ [8, 16] then some (.direct .rgba) else none
  | _ => none

def reader : ByteReader Header := do
  let width ← ByteReader.bigEndian 4
  let height ← ByteReader.bigEndian 4
  let depth ← ByteReader.byte
  let some samples := samples? (← ByteReader.byte) depth | failure
  let packing ← ByteReader.byte
  let filters ← ByteReader.byte
  let interlacing ← ByteReader.byte
  guard (width ≠ 0 ∧ height ≠ 0 ∧ packing = 0 ∧ filters = 0 ∧ interlacing ≤ 1)
  return ⟨width, height, depth, samples, interlacing = 1⟩

end Header

/-! ## Texts -/

/-- The bytes up to the first zero and those behind it. -/
def splitAtZero (bytes : List UInt8) : Option (List UInt8 × List UInt8) :=
  match bytes.span (· ≠ 0) with
  | (front, _ :: back) => some (front, back)
  | (_, []) => none

/-- The bytes behind the keyword of a text, which is not empty and not too long. -/
def afterKeyword (bytes : List UInt8) : Option (List UInt8) := do
  let (keyword, text) ← splitAtZero bytes
  guard (1 ≤ keyword.length ∧ keyword.length ≤ 79)
  some text

def isUnicode (bytes : List UInt8) : Bool := (String.fromUTF8? ⟨bytes.toArray⟩).isSome

/-- A text that may be packed: a flag says so, and only one way of packing is known. The language
is in plain letters. -/
def isWellFormedText : List UInt8 → Bool
  | flag :: packing :: rest =>
    match splitAtZero rest with
    | none => false
    | some (language, rest) =>
      match splitAtZero rest with
      | none => false
      | some (keyword, text) =>
        language.all (· < 128) && isUnicode keyword &&
          (flag = 0 && isUnicode text || flag = 1 && packing = 0)
  | _ => false

/-! ## Chunks in front of the pixels -/

structure Preamble where
  header : Option Header
  palette : ByteArray
  /-- The alpha channels of the entries of the palette. -/
  alphas : ByteArray
  /-- The samples of the one colour that is transparent. -/
  key : Option (List Nat)
  /-- Whether some colours are transparent. -/
  hasAlpha : Bool
  /-- The kinds of chunks that must not come again. -/
  seen : List String
  /-- The number of animation frames that have been announced. -/
  frames : Nat

namespace Preamble

def blank : Preamble := ⟨none, ByteArray.empty, ByteArray.empty, none, false, [], 0⟩

def once (p : Preamble) (kind : String) : Option Preamble :=
  if kind ∈ p.seen then none else some { p with seen := kind :: p.seen }

/-- The samples of the transparent colour. Samples of fewer than sixteen bits are compared by their
last bytes, others only if there is one for each channel. -/
def keySamples (depth channels : Nat) (content : ByteArray) : Option (List Nat) :=
  if depth < 16 then some ((List.range channels).map fun i => byteAt content (2 * i + 1))
  else if content.size = 2 * channels then
    some ((List.range channels).map fun i =>
      256 * byteAt content (2 * i) + byteAt content (2 * i + 1))
  else none

def addTransparency (p : Preamble) (h : Header) (content : ByteArray) : Option Preamble :=
  match h.samples with
  | .palette =>
    if p.palette.size = 0 then none
    else if p.palette.size / 3 < content.size then some { p with hasAlpha := true }
    else some { p with alphas := content, hasAlpha := true }
  | .direct .gray | .direct .rgb =>
    if content.size < 2 * h.channels then none
    else some { p with key := keySamples h.depth h.channels content, hasAlpha := true }
  | _ => none

/-- The announcement of an animation frame: its number, its sizes and its place. The frame in front
of the pixels is the whole picture. -/
def isWholeFrame (p : Preamble) (h : Header) (content : ByteArray) : Bool :=
  let number := fun i => ofBigEndian (content.extract (4 * i) (4 * i + 4)).toList
  26 ≤ content.size && number 0 == p.frames && number 1 == h.width && number 2 == h.height &&
    number 3 == 0 && number 4 == 0 && byteAt content 24 ≤ 2 && byteAt content 25 ≤ 1

/-- What is known after a chunk that is neither empty nor damaged. -/
def addContent (p : Preamble) (kind : String) (content : ByteArray) : Option Preamble :=
  let atLeast := fun (size : Nat) (p : Option Preamble) => if size ≤ content.size then p else none
  match kind, p.header with
  | "IHDR", none => do
    let header ← Header.reader.read? content
    some { p with header }
  | "IHDR", some _ => none
  | "PLTE", _ => do
    let p ← p.once kind
    some { p with palette := content }
  | "tRNS", some h => do
    let p ← p.once kind
    p.addTransparency h content
  | "gAMA", _ => atLeast 4 (p.once kind)
  | "cHRM", _ => atLeast 32 (p.once kind)
  | "sRGB", _ => if byteAt content 0 ≤ 3 then p.once kind else none
  | "pHYs", _ => if byteAt content 8 ≤ 1 then atLeast 9 (p.once kind) else none
  | "acTL", _ => atLeast 8 (some p)
  | "fcTL", some h =>
    if p.isWholeFrame h content then some { p with frames := p.frames + 1 } else none
  | "tEXt", _ => (afterKeyword content.toList).map fun _ => p
  | "zTXt", _ => do
    let text ← afterKeyword content.toList
    if text.head? = some 0 then some p else none
  | "iTXt", _ => do
    let text ← afterKeyword content.toList
    if isWellFormedText text then some p else none
  | _, _ => some p

/-- What is known after one more chunk. The header comes first, pixels of further frames do not
come yet, and of the other chunks those without content do not count. -/
def add? (p : Preamble) (chunk : Chunk) : Option Preamble :=
  if p.header.isNone && chunk.kind != "IHDR" then none
  else if chunk.kind = "fdAT" || chunk.isCritical && !chunk.isSound then none
  else if chunk.content.size = 0 then some p
  else p.addContent chunk.kind chunk.content

def readFrom : Nat → Preamble → ByteReader Preamble
  | 0, _ => failure
  | fuel + 1, p => do
    if (← Chunk.peekKind) = Chunk.pixelKind then return p
    let some p := p.add? (← Chunk.reader) | failure
    readFrom fuel p

def reader : ByteReader Preamble := do readFrom (← ByteReader.remaining) blank

end Preamble

end IsoScene.Codec.Png
