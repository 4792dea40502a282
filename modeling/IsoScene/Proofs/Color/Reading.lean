import IsoScene.Proofs.Color.Grammar
import IsoScene.Proofs.Text.Slices

/-! # Colours read by slices, and read back

The digits of a colour may be cut out of its text by offsets in bytes (`Rgba.parseSlices?`). Offsets
and characters are not the same thing in a text with characters of several bytes. But the digits are
cut out only where there is nothing else, and a digit has one byte (`Rgba.slice?_of_digits`), so
every slice is there.

What is printed for a colour is read as this colour, in any letter case (`Rgba.parse_hex`).
-/

namespace IsoScene

open Text (hexValue? byteCount slice?)

theorem utf8Size_of_hexDigit {c : Char} {n : Nat} (digit : IsHexDigit c n) : c.utf8Size = 1 :=
  Char.utf8Size_eq_one_iff.mpr (UInt32.le_iff_toNat_le.mpr
    (Nat.le_of_lt_succ (toNat_lt_of_hexValue? (hexValue?_eq_some_iff.mpr digit))))

namespace Rgba

/-! ## Slices -/

/-- A byte in hexadecimal digits, with or without a plus sign. -/
def byteOfHex? (s : List Char) : Option UInt8 :=
  let digits := match s with
    | '+' :: rest => rest
    | _ => s
  if digits.isEmpty then none
  else
    ((digits.foldlM (fun n c => (hexValue? c).map (16 * n + ·)) 0).filter (· < 256)).map
      UInt8.ofNat

/-- The byte in a slice of the digits, and zero if it cannot be read. -/
def byteAt? (digits : List Char) (start count : Nat) : Option UInt8 :=
  (slice? start (start + count) digits).map fun piece => (byteOfHex? piece).getD 0

/-- The channel that a single digit stands for. -/
def doubledAt? (digits : List Char) (start : Nat) : Option UInt8 :=
  (byteAt? digits start 1).map (· * 17)

/-- The colour in some digits, by their number. There is no answer if one of the slices is not
there. -/
def colorAt? (digits : List Char) : Nat → Option (Except ColorError Rgba)
  | 3 => do
    some (.ok ⟨← doubledAt? digits 0, ← doubledAt? digits 1, ← doubledAt? digits 2, 255⟩)
  | 4 => do
    some (.ok ⟨← doubledAt? digits 0, ← doubledAt? digits 1, ← doubledAt? digits 2,
      ← doubledAt? digits 3⟩)
  | 6 => do
    some (.ok ⟨← byteAt? digits 0 2, ← byteAt? digits 2 2, ← byteAt? digits 4 2, 255⟩)
  | 8 => do
    some (.ok ⟨← byteAt? digits 0 2, ← byteAt? digits 2 2, ← byteAt? digits 4 2,
      ← byteAt? digits 6 2⟩)
  | count => some (.error (.invalidLength count))

/-- Reads a colour whose digits are cut out by offsets in bytes. -/
def parseSlices? (s : List Char) : Option (Except ColorError Rgba) :=
  if s.isEmpty then some (.error .empty)
  else if isWord "transparent" s then some (.ok transparent)
  else
    match s with
    | '#' :: digits =>
      match digits.find? fun c => (hexValue? c).isNone with
      | some c => some (.error (.invalidHex c))
      | none => colorAt? digits (byteCount digits)
    | _ => some (.error .missingHash)

theorem byteCount_of_digits {s : List Char} (digits : AreDigits s) : byteCount s = s.length :=
  Text.byteCount_eq_length fun c member =>
    have ⟨_, digit⟩ := digits c member
    utf8Size_of_hexDigit digit

/-- Offsets count digits where there is nothing else. -/
theorem slice?_of_digits {before piece after : List Char}
    (digits : AreDigits (before ++ (piece ++ after))) :
    slice? before.length (before.length + piece.length) (before ++ (piece ++ after)) =
      some piece := by
  obtain ⟨first, later⟩ := List.forall_mem_append.mp digits
  obtain ⟨inside, -⟩ := List.forall_mem_append.mp later
  refine Text.slice?_eq_some_iff.mpr ⟨before, after, rfl, byteCount_of_digits first, ?_⟩
  rw [byteCount_of_digits inside]

theorem byteOfHex?_of_digits {c : Char} {rest : List Char} {n : Nat} (digit : IsHexDigit c n) :
    byteOfHex? (c :: rest) =
      (((c :: rest).foldlM (fun n c => (hexValue? c).map (16 * n + ·)) 0).filter (· < 256)).map
        UInt8.ofNat := by
  have unsigned : c ≠ '+' := by
    rintro rfl
    cases hexValue?_eq_some_iff.mpr digit
  unfold byteOfHex?
  split
  · next same => exact absurd (List.cons.inj same).1 unsigned
  · rfl

section
variable {digits after : List Char} {c d : Char} {byte : UInt8}

theorem byteOfHex?_pair (isByte : IsByte c d byte) : byteOfHex? [c, d] = some byte := by
  obtain ⟨x, y, first, second, value⟩ := isByte
  have small : byte.toNat < 256 := byte.toNat_lt
  rw [byteOfHex?_of_digits first]
  simp [hexValue?_eq_some_iff.mpr first, hexValue?_eq_some_iff.mpr second, ← value,
    Option.filter, small]

theorem byteOfHex?_single {n : Nat} (digit : IsHexDigit c n) :
    byteOfHex? [c] = some (UInt8.ofNat n) := by
  have small : n < 256 := Nat.lt_trans digit.lt (by decide)
  rw [byteOfHex?_of_digits digit]
  simp [hexValue?_eq_some_iff.mpr digit, Option.filter, small]

theorem byteAt?_of_isByte (before : List Char) (split : digits = before ++ ([c, d] ++ after))
    (areDigits : AreDigits digits) (isByte : IsByte c d byte) :
    byteAt? digits before.length 2 = some byte := by
  have piece : slice? before.length (before.length + 2) digits = some [c, d] := by
    rw [split] at areDigits ⊢
    exact slice?_of_digits areDigits
  rw [byteAt?, piece, Option.map_some, byteOfHex?_pair isByte, Option.getD_some]

theorem doubledAt?_of_isByte (before : List Char) (split : digits = before ++ ([c] ++ after))
    (areDigits : AreDigits digits) (isByte : IsByte c c byte) :
    doubledAt? digits before.length = some byte := by
  obtain ⟨n, read, rfl⟩ := isByte_self_iff.mp isByte
  have piece : slice? before.length (before.length + 1) digits = some [c] := by
    rw [split] at areDigits ⊢
    exact slice?_of_digits areDigits
  rw [doubledAt?, byteAt?, piece, Option.map_some, Option.map_some,
    byteOfHex?_single (hexValue?_eq_some_iff.mp read), Option.getD_some, ofDigit, UInt8.ofNat_mul,
    UInt8.mul_comm]
  rfl

theorem IsByte.high_isDigit (isByte : IsByte c d byte) : ∃ n, IsHexDigit c n :=
  have ⟨x, _, first, _, _⟩ := isByte
  ⟨x, first⟩

theorem IsByte.low_isDigit (isByte : IsByte c d byte) : ∃ n, IsHexDigit d n :=
  have ⟨_, y, _, second, _⟩ := isByte
  ⟨y, second⟩

end

theorem parseSlices?_hash (digits : List Char) :
    parseSlices? ('#' :: digits) =
      match digits.find? fun c => (hexValue? c).isNone with
      | some c => some (.error (.invalidHex c))
      | none => colorAt? digits (byteCount digits) := by
  unfold parseSlices?
  rw [if_neg (by simp), if_neg (not_isWord_hash digits)]
  rfl

theorem isNone_hexValue?_iff {c : Char} : (hexValue? c).isNone ↔ ¬ ∃ n, IsHexDigit c n := by
  rw [Option.isNone_iff_eq_none, hexValue?_eq_none_iff]

theorem parseSlices?_of_areDigits {digits : List Char} (areDigits : AreDigits digits) :
    parseSlices? ('#' :: digits) = colorAt? digits digits.length := by
  have found : digits.find? (fun c => (hexValue? c).isNone) = none :=
    List.find?_eq_none.mpr fun c member odd => isNone_hexValue?_iff.mp odd (areDigits c member)
  rw [parseSlices?_hash, found, byteCount_of_digits areDigits]

theorem parseSlices?_of_spells {s : List Char} {color : Rgba} (spells : Spells s color) :
    parseSlices? s = some (.ok color) := by
  cases spells with
  | transparent word =>
    unfold parseSlices?
    rw [if_neg (not_isEmpty_of_word word), if_pos (isWord_iff.mpr word)]
    rfl
  | @three r g b red green blue isRed isGreen isBlue =>
    have digits : AreDigits [r, g, b] := by
      simp [AreDigits, isRed.low_isDigit, isGreen.low_isDigit, isBlue.low_isDigit]
    have first : doubledAt? [r, g, b] 0 = some red := doubledAt?_of_isByte [] rfl digits isRed
    have second : doubledAt? [r, g, b] 1 = some green := doubledAt?_of_isByte [r] rfl digits isGreen
    have third : doubledAt? [r, g, b] 2 = some blue := doubledAt?_of_isByte [r, g] rfl digits isBlue
    simp [parseSlices?_of_areDigits digits, colorAt?, first, second, third]
  | @four r g b a red green blue alpha isRed isGreen isBlue isAlpha =>
    have digits : AreDigits [r, g, b, a] := by
      simp [AreDigits, isRed.low_isDigit, isGreen.low_isDigit, isBlue.low_isDigit,
        isAlpha.low_isDigit]
    have first : doubledAt? [r, g, b, a] 0 = some red := doubledAt?_of_isByte [] rfl digits isRed
    have second : doubledAt? [r, g, b, a] 1 = some green :=
      doubledAt?_of_isByte [r] rfl digits isGreen
    have third : doubledAt? [r, g, b, a] 2 = some blue :=
      doubledAt?_of_isByte [r, g] rfl digits isBlue
    have fourth : doubledAt? [r, g, b, a] 3 = some alpha :=
      doubledAt?_of_isByte [r, g, b] rfl digits isAlpha
    simp [parseSlices?_of_areDigits digits, colorAt?, first, second, third, fourth]
  | @six r r' g g' b b' red green blue isRed isGreen isBlue =>
    have digits : AreDigits [r, r', g, g', b, b'] := by
      simp [AreDigits, isRed.high_isDigit, isRed.low_isDigit, isGreen.high_isDigit,
        isGreen.low_isDigit, isBlue.high_isDigit, isBlue.low_isDigit]
    have first : byteAt? [r, r', g, g', b, b'] 0 2 = some red :=
      byteAt?_of_isByte [] rfl digits isRed
    have second : byteAt? [r, r', g, g', b, b'] 2 2 = some green :=
      byteAt?_of_isByte [r, r'] rfl digits isGreen
    have third : byteAt? [r, r', g, g', b, b'] 4 2 = some blue :=
      byteAt?_of_isByte [r, r', g, g'] rfl digits isBlue
    simp [parseSlices?_of_areDigits digits, colorAt?, first, second, third]
  | @eight r r' g g' b b' a a' red green blue alpha isRed isGreen isBlue isAlpha =>
    have digits : AreDigits [r, r', g, g', b, b', a, a'] := by
      simp [AreDigits, isRed.high_isDigit, isRed.low_isDigit, isGreen.high_isDigit,
        isGreen.low_isDigit, isBlue.high_isDigit, isBlue.low_isDigit, isAlpha.high_isDigit,
        isAlpha.low_isDigit]
    have first : byteAt? [r, r', g, g', b, b', a, a'] 0 2 = some red :=
      byteAt?_of_isByte [] rfl digits isRed
    have second : byteAt? [r, r', g, g', b, b', a, a'] 2 2 = some green :=
      byteAt?_of_isByte [r, r'] rfl digits isGreen
    have third : byteAt? [r, r', g, g', b, b', a, a'] 4 2 = some blue :=
      byteAt?_of_isByte [r, r', g, g'] rfl digits isBlue
    have fourth : byteAt? [r, r', g, g', b, b', a, a'] 6 2 = some alpha :=
      byteAt?_of_isByte [r, r', g, g', b, b'] rfl digits isAlpha
    simp [parseSlices?_of_areDigits digits, colorAt?, first, second, third, fourth]

theorem colorAt?_of_length {digits : List Char} {count : Nat} (length : count ∉ [3, 4, 6, 8]) :
    colorAt? digits count = some (.error (.invalidLength count)) := by
  rw [colorAt?.eq_def]
  split
  · simp at length
  · simp at length
  · simp at length
  · simp at length
  · rfl

theorem parseSlices?_of_hasFault {s : List Char} {e : ColorError} (fault : HasFault s e) :
    parseSlices? s = some (.error e) := by
  cases fault with
  | empty => rfl
  | missingHash nonempty other noHash =>
    have notEmpty : ¬ s.isEmpty = true := by rwa [List.isEmpty_iff]
    unfold parseSlices?
    rw [if_neg notEmpty, if_neg (isWord_iff.not.mpr other)]
    split
    · exact absurd rfl noHash
    · rfl
  | @invalidHex front rest c digits odd =>
    have found : (front ++ c :: rest).find? (fun c => (hexValue? c).isNone) = some c := by
      refine List.find?_eq_some_iff_append.mpr ⟨isNone_hexValue?_iff.mpr odd, front, rest, rfl, ?_⟩
      intro d member
      rw [Bool.not_eq_true', ← Bool.not_eq_true, isNone_hexValue?_iff, not_not]
      exact digits d member
    rw [parseSlices?_hash, found]
  | invalidLength digits length =>
    rw [parseSlices?_of_areDigits digits, colorAt?_of_length length]

/-- All slices are there, and they give the answer of the reader. -/
theorem parseSlices?_eq (s : List Char) : parseSlices? s = some (parse s) := by
  rcases spells_or_hasFault s with ⟨color, spells⟩ | ⟨e, fault⟩
  · rw [parseSlices?_of_spells spells, parse_of_spells spells]
  · rw [parseSlices?_of_hasFault fault, parse_of_hasFault fault]

/-! ## Printed colours -/

theorem hexValue?_toLower (c : Char) : hexValue? c.toLower = hexValue? c := by
  by_cases ascii : c.toNat < 128
  · have table : ∀ code < 128,
        hexValue? (Char.ofNat code).toLower = hexValue? (Char.ofNat code) := by decide +kernel
    simpa using table c.toNat ascii
  · have noUpper : ¬ (c.val ≥ 'A'.val ∧ c.val ≤ 'Z'.val) := fun upper =>
      ascii (Nat.lt_of_le_of_lt (UInt32.le_iff_toNat_le.mp upper.2) (by decide))
    have unchanged : c.toLower = c := dif_neg noUpper
    rw [unchanged]

theorem isHexDigit_of_toLower {c : Char} {n : Nat} (small : n < 16)
    (printed : c.toLower = hexDigit n) : IsHexDigit c n := by
  have table : ∀ n < 16, hexValue? (hexDigit n) = some n := by decide +kernel
  rw [← hexValue?_eq_some_iff, ← hexValue?_toLower, printed, table n small]

theorem isByte_of_toLower {c d : Char} {byte : UInt8}
    (high : c.toLower = hexDigit (byte.toNat / 16)) (low : d.toLower = hexDigit (byte.toNat % 16)) :
    IsByte c d byte := by
  have small : byte.toNat / 16 < 16 := Nat.div_lt_of_lt_mul byte.toNat_lt
  exact ⟨_, _, isHexDigit_of_toLower small high,
    isHexDigit_of_toLower (Nat.mod_lt _ (by decide)) low, (Nat.div_add_mod ..).symm⟩

/-- The printed digits of a colour are its text, in any letter case. -/
theorem spells_of_toLower {color : Rgba} {s : List Char}
    (printed : s.map Char.toLower = color.hex) : Spells ('#' :: s) color := by
  have length : s.length = 8 := by
    rw [← List.length_map Char.toLower, printed]
    rfl
  match s, length with
  | [r, r', g, g', b, b', a, a'], _ =>
    simp only [List.map_cons, List.map_nil, hex, channelHex, List.cons_append, List.nil_append,
      List.cons.injEq, and_true] at printed
    obtain ⟨r, r', g, g', b, b', a, a'⟩ := printed
    exact .eight (isByte_of_toLower r r') (isByte_of_toLower g g') (isByte_of_toLower b b')
      (isByte_of_toLower a a')

theorem parse_hex {color : Rgba} {s : List Char} (printed : s.map Char.toLower = color.hex) :
    parse ('#' :: s) = .ok color :=
  parse_of_spells (spells_of_toLower printed)

/-- The reader accepts the texts of colours, with their colours, and no others, for which it names
the first fault. Read by slices every text has the same answer, so all slices are there. The printed
digits of a colour are read as this colour, in any letter case. -/
theorem parse_grammar :
    (∀ (s : List Char) (color : Rgba), parse s = .ok color ↔ Spells s color) ∧
      (∀ (s : List Char) (e : ColorError), parse s = .error e ↔ HasFault s e) ∧
      (∀ s : List Char, parseSlices? s = some (parse s)) ∧
      ∀ (color : Rgba) (s : List Char), s.map Char.toLower = color.hex →
        parse ('#' :: s) = .ok color :=
  ⟨fun _ _ => parse_eq_ok_iff, fun _ _ => parse_eq_error_iff, parseSlices?_eq,
    fun _ _ printed => parse_hex printed⟩

/-- A character of two bytes is found before anything is cut out. There is no slice that ends inside
it. -/
theorem parse_grammar_two_bytes :
    parse "TransParent".toList = .ok ⟨0, 0, 0, 0⟩ ∧
      parse "#fA0".toList = .ok ⟨255, 170, 0, 255⟩ ∧
      parse "#1é2".toList = .error (.invalidHex 'é') ∧
      parse "é#123".toList = .error .missingHash ∧
      parse "#12345".toList = .error (.invalidLength 5) ∧
      parseSlices? "#1é2".toList = some (.error (.invalidHex 'é')) ∧
      slice? 1 2 "1é2".toList = none ∧
      parse "#Ff00aB80".toList = .ok ⟨255, 0, 171, 128⟩ := by
  obtain ⟨accepts, refuses, slices, printed⟩ := parse_grammar
  have digits : AreDigits ['1'] := List.forall_mem_singleton.mpr ⟨1, by decide⟩
  have odd : ¬ ∃ n, IsHexDigit 'é' n := hexValue?_eq_none_iff.mp rfl
  have found : parse "#1é2".toList = .error (.invalidHex 'é') :=
    (refuses _ _).mpr (.invalidHex digits odd)
  refine ⟨?_, ?_, found, ?_, ?_, ?_, by decide, ?_⟩
  · exact (accepts _ _).mpr (.transparent (by decide))
  · refine (accepts _ _).mpr (.three ⟨15, 15, ?_⟩ ⟨10, 10, ?_⟩ ⟨0, 0, ?_⟩)
    all_goals decide
  · exact (refuses _ _).mpr (.missingHash (by decide) (by decide) (by decide))
  · refine (refuses _ _).mpr (.invalidLength (fun c member => ?_) (by decide))
    have readable : "12345".toList.all fun c => (hexValue? c).isSome := by decide
    have digit := List.all_eq_true.mp readable c member
    exact (Option.isSome_iff_exists.mp digit).imp fun _ => hexValue?_eq_some_iff.mp
  · rw [slices, found]
  · exact printed ⟨255, 0, 171, 128⟩ "Ff00aB80".toList (by decide)

end Rgba

end IsoScene
