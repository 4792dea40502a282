import IsoScene.Binary64.Basic
import IsoScene.Codec.Bytes
import IsoScene.Codec.Pixels

/-! # Netpbm files

Bitmaps, gray and coloured pictures, with samples as bytes or as decimal numbers. The header is
text: a few numbers with blanks between them, or lines with a keyword each. What is taken, and how
samples are scaled, follows the decoder of the package `image` 0.24.

* `Header` — the sizes, the greatest sample, and how samples are stored.
* `scaleSample` — a sample on the full range of bytes or of sixteen bits.
* `Netpbm.decode?` — the picture in a file.
-/

namespace IsoScene.Codec.Netpbm

inductive Storage where
  /-- A bit; one is black. Lines begin at whole bytes. -/
  | bit
  /-- The digit zero or one; one is black. -/
  | digit
  /-- A byte that is zero or one; one is white. -/
  | flag
  /-- A number of one or two bytes. -/
  | number (bytes : Nat)
  /-- A decimal number of at most one or two bytes. -/
  | decimal (bytes : Nat)

structure Header where
  width : Nat
  height : Nat
  greatest : Nat
  layout : PixelLayout
  storage : Storage

/-! ## Words of a header -/

def isBlank (n : Nat) : Bool := (9 ≤ n && n ≤ 13) || n == 32

def isLineEnd (n : Nat) : Bool := n == 10 || n == 13

/-- Skips a comment up to and with the end of its line, at most some bytes. -/
def skipComment : Nat → ByteReader Unit
  | 0 => return
  | count + 1 => do if !isLineEnd (← ByteReader.byte) then skipComment count

/-- Reads a word and the blank that ends it; blanks in front of it are skipped. Comments vanish,
also within a word. `word` holds what has been read, last byte first. -/
def readWordFrom : Nat → List Nat → ByteReader (List Char)
  | 0, _ => failure
  | fuel + 1, word => do
    if (← ByteReader.remaining) = 0 then
      guard (word ≠ [])
      return word.reverse.map Char.ofNat
    let byte ← ByteReader.byte
    if byte = '#'.toNat then
      skipComment (← ByteReader.remaining)
      readWordFrom fuel word
    else if !isBlank byte then readWordFrom fuel (byte :: word)
    else if word = [] then readWordFrom fuel word
    else return word.reverse.map Char.ofNat

/-- Reads a number of at most thirty-two bits. -/
def readNumber : ByteReader Nat := do
  let word ← readWordFrom ((← ByteReader.remaining) + 1) []
  let some n := Text.readNat Text.maxNat32 word | failure
  return n

def maxSample : Nat := 65535

/-- Reads a header that consists of numbers. Bitmaps do not give a greatest sample. -/
def readNumbers (isBitmap : Bool) (layout : PixelLayout) (storage : Nat → Storage) :
    ByteReader Header := do
  let width ← readNumber
  let height ← readNumber
  let greatest ← if isBitmap then pure 1 else readNumber
  guard (greatest ≤ maxSample)
  return ⟨width, height, greatest, layout, storage (if greatest ≤ 255 then 1 else 2)⟩

/-! ## Headers with keywords -/

/-- The values behind the keywords of a header. -/
structure Fields where
  values : List (String × Nat)
  kind : Option (List Char)

/-- The keywords that are followed by a number. All of them have to be there, and only once. -/
def numberKeys : List String := ["WIDTH", "HEIGHT", "DEPTH", "MAXVAL"]

/-- Adds a line to the fields. -/
def Fields.addLine (fields : Fields) (line : List Char) : Option Fields :=
  let isBlank := fun c : Char => Netpbm.isBlank c.toNat
  let key := String.ofList (line.takeWhile fun c => !isBlank c)
  let value := ((line.dropWhile fun c => !isBlank c).dropWhile isBlank).reverse.dropWhile isBlank
    |>.reverse
  if key ∈ numberKeys then do
    guard (fields.values.lookup key).isNone
    let n ← Text.readNat Text.maxNat32 value
    some { fields with values := (key, n) :: fields.values }
  else if key = "TUPLTYPE" then
    some { fields with kind := some (fields.kind.elim value fun kind => kind ++ ' ' :: value) }
  else none

/-- How samples are laid out and stored, for a number of samples in a pixel and a greatest
sample. -/
def Fields.layout? (kind : Option String) (depth greatest : Nat) :
    Option (PixelLayout × Storage) :=
  match kind, depth with
  | none, 1 => some (.gray, .number 1)
  | none, 3 => some (.rgb, .number 1)
  | some "BLACKANDWHITE", 1 => if greatest = 1 then some (.gray, .flag) else none
  | some "GRAYSCALE", 1 =>
    if greatest ≤ 255 then some (.gray, .number 1)
    else if greatest ≤ maxSample then some (.gray, .number 2)
    else none
  | some "GRAYSCALE", 0 => if greatest ≤ maxSample then some (.gray, .number 2) else none
  | some "RGB", 3 =>
    if greatest ≤ 255 then some (.rgb, .number 1)
    else if greatest ≤ maxSample then some (.rgb, .number 2)
    else none
  | _, _ => none

def Fields.header? (fields : Fields) : Option Header := do
  let width ← fields.values.lookup "WIDTH"
  let height ← fields.values.lookup "HEIGHT"
  let depth ← fields.values.lookup "DEPTH"
  let greatest ← fields.values.lookup "MAXVAL"
  let (layout, storage) ← Fields.layout? (fields.kind.map String.ofList) depth greatest
  some ⟨width, height, greatest, layout, storage⟩

def readLineFrom : Nat → List UInt8 → ByteReader (List UInt8)
  | 0, line => return line.reverse
  | fuel + 1, line => do
    let byte ← ByteReader.byte
    if byte = 10 then return line.reverse else readLineFrom fuel (UInt8.ofNat byte :: line)

/-- Reads lines up to the one that ends the header. Lines that begin with `#` are skipped. -/
def readLines : Nat → Fields → ByteReader Fields
  | 0, _ => failure
  | fuel + 1, fields => do
    let remaining ← ByteReader.remaining
    guard (remaining ≠ 0)
    let line ← readLineFrom remaining []
    let some text := String.fromUTF8? ⟨line.toArray⟩ | failure
    if text.toList.head? = some '#' then readLines fuel fields
    else
      guard (line.all (· < 128))
      let key := text.toList.takeWhile fun c => !isBlank c.toNat
      if key = "ENDHDR".toList then return fields
      let some fields := fields.addLine text.toList | failure
      readLines fuel fields

def readKeyed : ByteReader Header := do
  guard ((← ByteReader.byte) = 10)
  let fields ← readLines (← ByteReader.remaining) ⟨[], none⟩
  let some header := fields.header? | failure
  return header

def Header.reader : ByteReader Header := do
  match ← ByteReader.latin 2 with
  | "P1" => readNumbers true .gray fun _ => .digit
  | "P2" => readNumbers false .gray .decimal
  | "P3" => readNumbers false .rgb .decimal
  | "P4" => readNumbers true .gray fun _ => .bit
  | "P5" => readNumbers false .gray .number
  | "P6" => readNumbers false .rgb .number
  | "P7" => readKeyed
  | _ => failure

/-! ## Samples -/

namespace Header

def lineSamples (h : Header) : Nat := h.width * h.layout.channels

def samples (h : Header) : Nat := h.lineSamples * h.height

end Header

/-- Reads a digit that is zero or one; blanks in front of it are skipped. -/
def readDigit : Nat → ByteReader Nat
  | 0 => failure
  | fuel + 1 => do
    let byte ← ByteReader.byte
    if isBlank byte then readDigit fuel
    else if byte = '0'.toNat then return 0
    else if byte = '1'.toNat then return 1
    else failure

/-- Reads the bytes up to a blank or the end, and the blank. -/
def readToken : Nat → List Nat → ByteReader (List Char)
  | 0, token => return token.reverse.map Char.ofNat
  | fuel + 1, token => do
    let byte ← ByteReader.byte
    if !isBlank byte then readToken fuel (byte :: token)
    else if token = [] then readToken fuel token
    else return token.reverse.map Char.ofNat

def readSamples (h : Header) : ByteReader (List Nat) := do
  let size ← ByteReader.remaining
  match h.storage with
  | .bit =>
    let lineBytes := (h.lineSamples + 7) / 8
    let data ← ByteReader.take (lineBytes * h.height)
    return (List.range h.samples).map fun i =>
      let x := i % h.lineSamples
      1 - (byteAt data (i / h.lineSamples * lineBytes + x / 8) >>> (7 - x % 8)) % 2
  | .digit =>
    guard (h.samples ≤ size)
    return ← (do return 1 - (← readDigit (← ByteReader.remaining))).times h.samples
  | .flag =>
    let data ← ByteReader.take h.samples
    guard (data.toList.all (· ≤ 1))
    return data.toList.map UInt8.toNat
  | .number bytes =>
    let data ← ByteReader.take (h.samples * bytes)
    return (List.range h.samples).map fun i =>
      ofBigEndian (data.extract (i * bytes) ((i + 1) * bytes)).toList
  | .decimal bytes =>
    guard (h.samples ≤ size)
    let readOne : ByteReader Nat := do
      let some n := Text.readNat ((1 <<< (8 * bytes)) - 1) (← readToken (← ByteReader.remaining) [])
        | failure
      return n
    return ← readOne.times h.samples

/-- The number of significant bits of a factor, and of a product. -/
def factorBits : Nat := 24

/-- The fraction nearest to another one that has so few significant bits. -/
def roundFactor (num den : Nat) : Nat × Nat :=
  let guess : Int := num.log2 - den.log2 - (factorBits - 1)
  let (n, d) := Binary64.scaleDown num den guess
  let exponent := if n / d < 1 <<< (factorBits - 1) then guess - 1 else guess
  let (n, d) := Binary64.scaleDown num den exponent
  (Binary64.roundQuotient n d * twoTo exponent, twoTo (-exponent))

/-- A sample on the range up to `target`. The factor and the product are rounded to few significant
bits before the nearest whole number is taken. -/
def scaleSample (greatest target n : Nat) : Nat :=
  if n = 0 ∨ greatest = target then n
  else if greatest = 0 then target
  else
    let (a, b) := roundFactor target greatest
    let (num, den) := roundFactor (n * a) b
    min target ((2 * num + den) / (2 * den))

def Storage.bytes : Storage → Nat
  | .number bytes | .decimal bytes => bytes
  | _ => 1

def Header.sampleByte (h : Header) (n : Nat) : UInt8 :=
  if h.storage.bytes = 1 then UInt8.ofNat (scaleSample h.greatest 255 n)
  else narrowSample (scaleSample h.greatest maxSample n)

def reader : ByteReader Image := do
  let h ← Header.reader
  guard (h.layout.Fits h.width h.height h.storage.bytes)
  let samples := (← readSamples h).toArray
  let sample := fun i => h.sampleByte (samples.getD i 0)
  let some image := h.layout.picture? h.width h.height h.storage.bytes sample | failure
  return image

def decode? (bytes : ByteArray) : Option Image := reader.read? bytes

end IsoScene.Codec.Netpbm
