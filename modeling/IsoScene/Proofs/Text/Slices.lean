import Mathlib.Data.List.Basic

/-! # Slices of a text

A slice lies between two offsets that count bytes of UTF-8. There is a slice only if both offsets
are boundaries of characters and neither lies beyond the end (`slice?_eq_some_iff`).
-/

namespace IsoScene.Text

def byteCount (s : List Char) : Nat := (String.ofList s).utf8ByteSize

@[simp] theorem byteCount_nil : byteCount [] = 0 := rfl

@[simp] theorem byteCount_cons (c : Char) (s : List Char) :
    byteCount (c :: s) = c.utf8Size + byteCount s := by
  rw [byteCount, String.ofList_cons, String.utf8ByteSize_append, String.utf8ByteSize_singleton]
  rfl

theorem byteCount_append (s t : List Char) : byteCount (s ++ t) = byteCount s + byteCount t := by
  rw [byteCount, String.ofList_append, String.utf8ByteSize_append]
  rfl

/-- The text in front of an offset and the text behind it. -/
def splitAtByte? : Nat → List Char → Option (List Char × List Char)
  | 0, s => some ([], s)
  | _ + 1, [] => none
  | n + 1, c :: s =>
    if c.utf8Size ≤ n + 1 then
      (splitAtByte? (n + 1 - c.utf8Size) s).map fun (front, rest) => (c :: front, rest)
    else none

/-- The text between two offsets, if there is one. -/
def slice? (start stop : Nat) (s : List Char) : Option (List Char) :=
  if start ≤ stop then do
    let (_, behind) ← splitAtByte? start s
    let (piece, _) ← splitAtByte? (stop - start) behind
    some piece
  else none

theorem splitAtByte?_byteCount (front rest : List Char) :
    splitAtByte? (byteCount front) (front ++ rest) = some (front, rest) := by
  induction front with
  | nil => simp only [byteCount_nil, List.nil_append, splitAtByte?]
  | cons c front ih =>
    obtain ⟨n, count⟩ : ∃ n, byteCount (c :: front) = n + 1 := by
      have wide := c.utf8Size_pos
      exact ⟨c.utf8Size - 1 + byteCount front, by rw [byteCount_cons]; omega⟩
    have left : n + 1 - c.utf8Size = byteCount front := by
      rw [← count, byteCount_cons, Nat.add_sub_cancel_left]
    have fits : c.utf8Size ≤ n + 1 := by
      rw [← count, byteCount_cons]
      exact Nat.le_add_right ..
    rw [count, List.cons_append, splitAtByte?, if_pos fits, left, ih]
    rfl

theorem splitAtByte?_eq_some_iff {n : Nat} {s front rest : List Char} :
    splitAtByte? n s = some (front, rest) ↔ s = front ++ rest ∧ byteCount front = n := by
  constructor
  · intro split
    induction s generalizing n front with
    | nil =>
      cases n with
      | zero =>
        obtain ⟨rfl, rfl⟩ : [] = front ∧ [] = rest := by simpa [splitAtByte?] using split
        exact ⟨rfl, rfl⟩
      | succ n => cases split
    | cons c s ih =>
      cases n with
      | zero =>
        obtain ⟨rfl, rfl⟩ : [] = front ∧ c :: s = rest := by simpa [splitAtByte?] using split
        exact ⟨rfl, rfl⟩
      | succ n =>
        rw [splitAtByte?] at split
        split at split
        · obtain ⟨⟨later, _⟩, cut, ⟨⟩⟩ := Option.map_eq_some_iff.mp split
          obtain ⟨rfl, count⟩ := ih cut
          refine ⟨rfl, ?_⟩
          rw [byteCount_cons]
          omega
        · cases split
  · rintro ⟨rfl, rfl⟩
    exact splitAtByte?_byteCount front rest

theorem slice?_eq_some_iff {start stop : Nat} {s piece : List Char} :
    slice? start stop s = some piece ↔
      ∃ before after, s = before ++ (piece ++ after) ∧ byteCount before = start ∧
        start + byteCount piece = stop := by
  rw [slice?]
  split
  · next ordered =>
    simp only [Option.bind_eq_bind, Option.bind_eq_some_iff, Prod.exists, Option.some.injEq,
      splitAtByte?_eq_some_iff]
    constructor
    · rintro ⟨before, _, ⟨rfl, count⟩, _, after, ⟨rfl, length⟩, rfl⟩
      exact ⟨before, after, rfl, count, by omega⟩
    · rintro ⟨before, after, rfl, count, length⟩
      exact ⟨before, _, ⟨rfl, count⟩, _, after, ⟨rfl, by omega⟩, rfl⟩
  · next reversed =>
    refine iff_of_false nofun ?_
    rintro ⟨before, after, -, -, length⟩
    omega

/-- In a text of characters that have one byte each, offsets count characters. -/
theorem byteCount_eq_length {s : List Char} (single : ∀ c ∈ s, c.utf8Size = 1) :
    byteCount s = s.length := by
  induction s with
  | nil => rfl
  | cons c s ih =>
    obtain ⟨first, later⟩ := List.forall_mem_cons.mp single
    rw [byteCount_cons, first, ih later, List.length_cons, Nat.add_comm]

end IsoScene.Text
