/-! # Bytes

Files are read by a cursor that moves over their bytes, and written as lists of bytes.

* `ofLittleEndian`, `ofBigEndian` — the number that some bytes denote.
* `toLittleEndian`, `toBigEndian` — a number as a given count of bytes.
* `ByteReader` — reads a value at a cursor and moves it, or fails.
-/

namespace IsoScene.Codec

/-! ## Numbers -/

/-- The number with these bytes, least significant byte first. -/
def ofLittleEndian : List UInt8 → Nat
  | [] => 0
  | b :: rest => b.toNat + 256 * ofLittleEndian rest

def ofBigEndian (bytes : List UInt8) : Nat := ofLittleEndian bytes.reverse

/-- The bytes of a number, least significant byte first. -/
def toLittleEndian : Nat → Nat → List UInt8
  | 0, _ => []
  | count + 1, n => UInt8.ofNat n :: toLittleEndian count (n / 256)

def toBigEndian (count n : Nat) : List UInt8 := (toLittleEndian count n).reverse

theorem toLittleEndian_ofLittleEndian (bytes : List UInt8) :
    toLittleEndian bytes.length (ofLittleEndian bytes) = bytes := by
  induction bytes with
  | nil => rfl
  | cons b rest ih =>
    have hb : b.toNat < 256 := b.toNat_lt
    have hdiv : (b.toNat + 256 * ofLittleEndian rest) / 256 = ofLittleEndian rest := by omega
    have hmod : UInt8.ofNat (b.toNat + 256 * ofLittleEndian rest) = b := by
      apply UInt8.toNat_inj.mp
      simp
    simp [ofLittleEndian, toLittleEndian, hdiv, hmod, ih]

/-- The byte at an index, or zero behind the end. -/
def byteAt (bytes : ByteArray) (index : Nat) : Nat := (bytes[index]?.getD 0).toNat

/-! ## Cursors -/

structure ByteCursor where
  bytes : ByteArray
  position : Nat

/-- Reads a value at a cursor and moves the cursor behind it, or fails. -/
abbrev ByteReader (α : Type) := StateT ByteCursor Option α

namespace ByteReader

def read? {α : Type} (reader : ByteReader α) (bytes : ByteArray) : Option α :=
  (reader.run ⟨bytes, 0⟩).map (·.1)

def position : ByteReader Nat := return (← get).position

def remaining : ByteReader Nat := return (← get).bytes.size - (← get).position

def seek (position : Nat) : ByteReader Unit := modify fun cursor => { cursor with position }

def take (count : Nat) : ByteReader ByteArray := do
  let ⟨bytes, start⟩ ← get
  guard (count ≤ bytes.size - start)
  set (⟨bytes, start + count⟩ : ByteCursor)
  return bytes.extract start (start + count)

/-- Reads at most a given number of bytes, fewer only at the end. -/
def takeUpTo (count : Nat) : ByteReader ByteArray := do take (min count (← remaining))

def rest : ByteReader ByteArray := do take (← remaining)

def byte : ByteReader Nat := do
  let ⟨bytes, start⟩ ← get
  match bytes[start]? with
  | some b =>
    set (⟨bytes, start + 1⟩ : ByteCursor)
    return b.toNat
  | none => failure

def littleEndian (count : Nat) : ByteReader Nat :=
  return ofLittleEndian (← take count).toList

def bigEndian (count : Nat) : ByteReader Nat :=
  return ofBigEndian (← take count).toList

def latin (count : Nat) : ByteReader String :=
  return String.ofList ((← take count).toList.map fun b => Char.ofNat b.toNat)

def times {α : Type} (reader : ByteReader α) (count : Nat) : ByteReader (List α) :=
  (List.range count).mapM fun _ => reader

end ByteReader

end IsoScene.Codec
