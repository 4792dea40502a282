import IsoScene.Color.Basic
import Mathlib.Data.List.Basic

/-! # The texts of colours

A colour is written `transparent`, or as a `#` with three, four, six or eight digits
(`Rgba.Spells`). Every other text has one fault, the first of four that are looked for in turn
(`Rgba.HasFault`). There is no third kind of text (`Rgba.spells_or_hasFault`), and the reader does
what it should on both kinds, so it accepts exactly the first (`Rgba.parse_eq_ok_iff`) and names
exactly the faults of the second (`Rgba.parse_eq_error_iff`).
-/

namespace IsoScene

open Text (hexValue?)

/-! ## Hexadecimal digits -/

/-- The digit of a value, in either letter case. -/
def IsHexDigit (c : Char) (n : Nat) : Prop :=
  "0123456789abcdef".toList[n]? = some c ∨ "0123456789ABCDEF".toList[n]? = some c

instance (c : Char) (n : Nat) : Decidable (IsHexDigit c n) := inferInstanceAs (Decidable (_ ∨ _))

theorem IsHexDigit.lt {c : Char} {n : Nat} (digit : IsHexDigit c n) : n < 16 := by
  rcases digit with lower | upper
  · exact (List.getElem?_eq_some_iff.mp lower).1
  · exact (List.getElem?_eq_some_iff.mp upper).1

theorem toNat_lt_of_hexValue? {c : Char} {n : Nat} (read : hexValue? c = some n) :
    c.toNat < 128 := by
  have below : ∀ {d : Char}, d.toNat < 128 → c ≤ d → c.toNat < 128 := fun ascii le =>
    Nat.lt_of_le_of_lt (UInt32.le_iff_toNat_le.mp (Char.le_def.mp le)) ascii
  unfold hexValue? at read
  split at read
  · next digit => exact below (by decide) digit.2
  · split at read
    · next lower => exact below (by decide) lower.2
    · split at read
      · next upper => exact below (by decide) upper.2
      · cases read

theorem hexValue?_eq_some_iff {c : Char} {n : Nat} : hexValue? c = some n ↔ IsHexDigit c n := by
  constructor
  · intro read
    have table : ∀ code < 128, (hexValue? (Char.ofNat code)).all fun n =>
        decide (IsHexDigit (Char.ofNat code) n) := by decide +kernel
    have entry := table c.toNat (toNat_lt_of_hexValue? read)
    rw [Char.ofNat_toNat, read] at entry
    simpa using entry
  · intro digit
    have table : ∀ n < 16, "0123456789abcdef".toList[n]?.all fun c => hexValue? c = some n := by
      decide +kernel
    have upperTable : ∀ n < 16,
        "0123456789ABCDEF".toList[n]?.all fun c => hexValue? c = some n := by decide +kernel
    rcases digit with lower | upper
    · have entry := table n (IsHexDigit.lt (.inl lower))
      rw [lower] at entry
      simpa using entry
    · have entry := upperTable n (IsHexDigit.lt (.inr upper))
      rw [upper] at entry
      simpa using entry

theorem hexValue?_eq_none_iff {c : Char} : hexValue? c = none ↔ ¬ ∃ n, IsHexDigit c n := by
  simp only [← hexValue?_eq_some_iff, ← Option.isSome_iff_exists, Option.not_isSome_iff_eq_none]

/-! ## Texts -/

namespace Rgba

/-- The byte that two digits stand for. -/
def IsByte (high low : Char) (byte : UInt8) : Prop :=
  ∃ x y, IsHexDigit high x ∧ IsHexDigit low y ∧ byte.toNat = 16 * x + y

/-- The text of a colour. Digits that stand alone are doubled, and without digits for the alpha
channel it is 255. -/
inductive Spells : List Char → Rgba → Prop where
  | transparent {s : List Char} (word : s.map Char.toLower = "transparent".toList) :
    Spells s ⟨0, 0, 0, 0⟩
  | three {r g b : Char} {red green blue : UInt8} (isRed : IsByte r r red)
    (isGreen : IsByte g g green) (isBlue : IsByte b b blue) :
    Spells ['#', r, g, b] ⟨red, green, blue, 255⟩
  | four {r g b a : Char} {red green blue alpha : UInt8} (isRed : IsByte r r red)
    (isGreen : IsByte g g green) (isBlue : IsByte b b blue) (isAlpha : IsByte a a alpha) :
    Spells ['#', r, g, b, a] ⟨red, green, blue, alpha⟩
  | six {r r' g g' b b' : Char} {red green blue : UInt8} (isRed : IsByte r r' red)
    (isGreen : IsByte g g' green) (isBlue : IsByte b b' blue) :
    Spells ['#', r, r', g, g', b, b'] ⟨red, green, blue, 255⟩
  | eight {r r' g g' b b' a a' : Char} {red green blue alpha : UInt8} (isRed : IsByte r r' red)
    (isGreen : IsByte g g' green) (isBlue : IsByte b b' blue) (isAlpha : IsByte a a' alpha) :
    Spells ['#', r, r', g, g', b, b', a, a'] ⟨red, green, blue, alpha⟩

def AreDigits (s : List Char) : Prop := ∀ c ∈ s, ∃ n, IsHexDigit c n

/-- What is wrong with a text. Each fault is looked for where there is none of those before it. -/
inductive HasFault : List Char → ColorError → Prop where
  | empty : HasFault [] .empty
  | missingHash {s : List Char} (nonempty : s ≠ [])
    (other : s.map Char.toLower ≠ "transparent".toList) (noHash : s.head? ≠ some '#') :
    HasFault s .missingHash
  | invalidHex {front rest : List Char} {c : Char} (digits : AreDigits front)
    (odd : ¬ ∃ n, IsHexDigit c n) : HasFault ('#' :: (front ++ c :: rest)) (.invalidHex c)
  | invalidLength {s : List Char} (digits : AreDigits s) (length : s.length ∉ [3, 4, 6, 8]) :
    HasFault ('#' :: s) (.invalidLength s.length)

theorem isByte_iff {high low : Char} {byte : UInt8} :
    IsByte high low byte ↔
      ∃ x y, hexValue? high = some x ∧ hexValue? low = some y ∧ byte = ofDigits x y := by
  simp only [IsByte, hexValue?_eq_some_iff]
  refine exists_congr fun x => exists_congr fun y => ?_
  refine and_congr_right fun first => and_congr_right fun second => ?_
  have small : 16 * x + y < 256 := by
    have := first.lt
    have := second.lt
    omega
  rw [← UInt8.toNat_inj, ofDigits, UInt8.toNat_ofNat', Nat.mod_eq_of_lt small]

theorem exists_isByte {high low : Char} (first : ∃ n, IsHexDigit high n)
    (second : ∃ n, IsHexDigit low n) : ∃ byte, IsByte high low byte := by
  obtain ⟨x, first⟩ := first
  obtain ⟨y, second⟩ := second
  exact ⟨ofDigits x y, isByte_iff.mpr ⟨x, y, hexValue?_eq_some_iff.mpr first,
    hexValue?_eq_some_iff.mpr second, rfl⟩⟩

/-- Digits end the text, or there is a first character that is none. -/
theorem areDigits_or_odd (s : List Char) :
    AreDigits s ∨ ∃ front c rest, s = front ++ c :: rest ∧ AreDigits front ∧
      ¬ ∃ n, IsHexDigit c n := by
  induction s with
  | nil => exact .inl (List.forall_mem_nil _)
  | cons d s ih =>
    by_cases digit : ∃ n, IsHexDigit d n
    · rcases ih with digits | ⟨front, c, rest, rfl, digits, odd⟩
      · exact .inl (List.forall_mem_cons.mpr ⟨digit, digits⟩)
      · exact .inr ⟨d :: front, c, rest, rfl, List.forall_mem_cons.mpr ⟨digit, digits⟩, odd⟩
    · exact .inr ⟨[], d, s, rfl, List.forall_mem_nil _, digit⟩

/-- Digits in one of the four numbers are the text of a colour. -/
theorem exists_spells_of_digits {s : List Char} (digits : AreDigits s)
    (length : s.length ∈ [3, 4, 6, 8]) : ∃ color, Spells ('#' :: s) color := by
  simp only [List.mem_cons, List.not_mem_nil, or_false] at length
  rcases length with three | four | six | eight
  · match s, three with
    | [r, g, b], _ =>
      simp only [AreDigits, List.forall_mem_cons] at digits
      obtain ⟨r, g, b, -⟩ := digits
      obtain ⟨red, isRed⟩ := exists_isByte r r
      obtain ⟨green, isGreen⟩ := exists_isByte g g
      obtain ⟨blue, isBlue⟩ := exists_isByte b b
      exact ⟨_, .three isRed isGreen isBlue⟩
  · match s, four with
    | [r, g, b, a], _ =>
      simp only [AreDigits, List.forall_mem_cons] at digits
      obtain ⟨r, g, b, a, -⟩ := digits
      obtain ⟨red, isRed⟩ := exists_isByte r r
      obtain ⟨green, isGreen⟩ := exists_isByte g g
      obtain ⟨blue, isBlue⟩ := exists_isByte b b
      obtain ⟨alpha, isAlpha⟩ := exists_isByte a a
      exact ⟨_, .four isRed isGreen isBlue isAlpha⟩
  · match s, six with
    | [r, r', g, g', b, b'], _ =>
      simp only [AreDigits, List.forall_mem_cons] at digits
      obtain ⟨r, r', g, g', b, b', -⟩ := digits
      obtain ⟨red, isRed⟩ := exists_isByte r r'
      obtain ⟨green, isGreen⟩ := exists_isByte g g'
      obtain ⟨blue, isBlue⟩ := exists_isByte b b'
      exact ⟨_, .six isRed isGreen isBlue⟩
  · match s, eight with
    | [r, r', g, g', b, b', a, a'], _ =>
      simp only [AreDigits, List.forall_mem_cons] at digits
      obtain ⟨r, r', g, g', b, b', a, a', -⟩ := digits
      obtain ⟨red, isRed⟩ := exists_isByte r r'
      obtain ⟨green, isGreen⟩ := exists_isByte g g'
      obtain ⟨blue, isBlue⟩ := exists_isByte b b'
      obtain ⟨alpha, isAlpha⟩ := exists_isByte a a'
      exact ⟨_, .eight isRed isGreen isBlue isAlpha⟩

/-- Every text is that of a colour or has a fault. -/
theorem spells_or_hasFault (s : List Char) : (∃ color, Spells s color) ∨ ∃ e, HasFault s e := by
  by_cases nonempty : s = []
  · exact .inr ⟨.empty, nonempty ▸ HasFault.empty⟩
  by_cases word : s.map Char.toLower = "transparent".toList
  · exact .inl ⟨_, .transparent word⟩
  by_cases hash : s.head? = some '#'
  · obtain ⟨digits, rfl⟩ := List.head?_eq_some_iff.mp hash
    rcases areDigits_or_odd digits with areDigits | ⟨front, c, rest, rfl, areDigits, odd⟩
    · by_cases length : digits.length ∈ [3, 4, 6, 8]
      · exact .inl (exists_spells_of_digits areDigits length)
      · exact .inr ⟨_, .invalidLength areDigits length⟩
    · exact .inr ⟨_, .invalidHex areDigits odd⟩
  · exact .inr ⟨_, .missingHash nonempty word hash⟩

/-! ## Reading -/

theorem isWord_iff {word : String} {s : List Char} :
    isWord word s = true ↔ s.map Char.toLower = word.toList := by
  rw [isWord, beq_iff_eq]

theorem not_isEmpty_of_word {s : List Char} (word : s.map Char.toLower = "transparent".toList) :
    ¬ s.isEmpty = true := by
  rw [List.isEmpty_iff]
  rintro rfl
  cases word

theorem not_isWord_hash (digits : List Char) : ¬ isWord "transparent" ('#' :: digits) = true := by
  rw [isWord_iff, List.map_cons]
  intro same
  cases (List.cons.inj same).1

theorem parse_hash (digits : List Char) :
    parse ('#' :: digits) =
      match hexValues digits with
      | .error c => .error (.invalidHex c)
      | .ok values =>
        match ofHexValues values with
        | some color => .ok color
        | none => .error (.invalidLength values.length) := by
  unfold parse
  rw [if_neg (by simp), if_neg (not_isWord_hash digits)]
  rfl

theorem hexValues_of_areDigits {s : List Char} (digits : AreDigits s) :
    ∃ values, hexValues s = .ok values ∧ values.length = s.length := by
  induction s with
  | nil => exact ⟨[], rfl, rfl⟩
  | cons c s ih =>
    obtain ⟨⟨n, digit⟩, later⟩ := List.forall_mem_cons.mp digits
    obtain ⟨values, read, length⟩ := ih later
    refine ⟨n :: values, ?_, by rw [List.length_cons, List.length_cons, length]⟩
    rw [hexValues, hexValue?_eq_some_iff.mpr digit, read]
    rfl

theorem hexValues_of_odd {front : List Char} {c : Char} (digits : AreDigits front)
    (odd : ¬ ∃ n, IsHexDigit c n) (rest : List Char) :
    hexValues (front ++ c :: rest) = .error c := by
  induction front with
  | nil => rw [List.nil_append, hexValues, hexValue?_eq_none_iff.mpr odd]
  | cons d front ih =>
    obtain ⟨⟨n, digit⟩, later⟩ := List.forall_mem_cons.mp digits
    rw [List.cons_append, hexValues, hexValue?_eq_some_iff.mpr digit, ih later]
    rfl

theorem ofHexValues_of_length {values : List Nat} (length : values.length ∉ [3, 4, 6, 8]) :
    ofHexValues values = none := by
  rw [ofHexValues.eq_def]
  split
  · simp at length
  · simp at length
  · simp at length
  · simp at length
  · rfl

/-- A digit that is doubled. -/
theorem isByte_self_iff {c : Char} {byte : UInt8} :
    IsByte c c byte ↔ ∃ x, hexValue? c = some x ∧ byte = ofDigit x := by
  have doubled (x : Nat) : ofDigits x x = ofDigit x := by
    rw [ofDigits, ofDigit]
    congr 1
    omega
  rw [isByte_iff]
  constructor
  · rintro ⟨x, y, first, second, rfl⟩
    obtain rfl := Option.some.inj (first.symm.trans second)
    exact ⟨x, first, doubled x⟩
  · rintro ⟨x, digit, rfl⟩
    exact ⟨x, x, digit, digit, (doubled x).symm⟩

theorem parse_of_spells {s : List Char} {color : Rgba} (spells : Spells s color) :
    parse s = .ok color := by
  cases spells with
  | transparent word =>
    unfold parse
    rw [if_neg (not_isEmpty_of_word word), if_pos (isWord_iff.mpr word)]
    rfl
  | three isRed isGreen isBlue =>
    obtain ⟨_, r, rfl⟩ := isByte_self_iff.mp isRed
    obtain ⟨_, g, rfl⟩ := isByte_self_iff.mp isGreen
    obtain ⟨_, b, rfl⟩ := isByte_self_iff.mp isBlue
    simp [parse_hash, hexValues, r, g, b, Except.map, ofHexValues]
  | four isRed isGreen isBlue isAlpha =>
    obtain ⟨_, r, rfl⟩ := isByte_self_iff.mp isRed
    obtain ⟨_, g, rfl⟩ := isByte_self_iff.mp isGreen
    obtain ⟨_, b, rfl⟩ := isByte_self_iff.mp isBlue
    obtain ⟨_, a, rfl⟩ := isByte_self_iff.mp isAlpha
    simp [parse_hash, hexValues, r, g, b, a, Except.map, ofHexValues]
  | six isRed isGreen isBlue =>
    obtain ⟨_, _, r, r', rfl⟩ := isByte_iff.mp isRed
    obtain ⟨_, _, g, g', rfl⟩ := isByte_iff.mp isGreen
    obtain ⟨_, _, b, b', rfl⟩ := isByte_iff.mp isBlue
    simp [parse_hash, hexValues, r, r', g, g', b, b', Except.map, ofHexValues]
  | eight isRed isGreen isBlue isAlpha =>
    obtain ⟨_, _, r, r', rfl⟩ := isByte_iff.mp isRed
    obtain ⟨_, _, g, g', rfl⟩ := isByte_iff.mp isGreen
    obtain ⟨_, _, b, b', rfl⟩ := isByte_iff.mp isBlue
    obtain ⟨_, _, a, a', rfl⟩ := isByte_iff.mp isAlpha
    simp [parse_hash, hexValues, r, r', g, g', b, b', a, a', Except.map, ofHexValues]

theorem parse_of_hasFault {s : List Char} {e : ColorError} (fault : HasFault s e) :
    parse s = .error e := by
  cases fault with
  | empty => rfl
  | missingHash nonempty other noHash =>
    have notEmpty : ¬ s.isEmpty = true := by rwa [List.isEmpty_iff]
    unfold parse
    rw [if_neg notEmpty, if_neg (isWord_iff.not.mpr other)]
    split
    · exact absurd rfl noHash
    · rfl
  | invalidHex digits odd => rw [parse_hash, hexValues_of_odd digits odd]
  | invalidLength digits length =>
    obtain ⟨values, read, count⟩ := hexValues_of_areDigits digits
    rw [← count] at length
    rw [parse_hash, read, ← count]
    simp only [ofHexValues_of_length length]

theorem parse_eq_ok_iff {s : List Char} {color : Rgba} : parse s = .ok color ↔ Spells s color := by
  refine ⟨fun read => ?_, parse_of_spells⟩
  rcases spells_or_hasFault s with ⟨other, spells⟩ | ⟨e, fault⟩
  · rwa [← Except.ok.inj ((parse_of_spells spells).symm.trans read)]
  · cases (parse_of_hasFault fault).symm.trans read

theorem parse_eq_error_iff {s : List Char} {e : ColorError} :
    parse s = .error e ↔ HasFault s e := by
  refine ⟨fun failed => ?_, parse_of_hasFault⟩
  rcases spells_or_hasFault s with ⟨color, spells⟩ | ⟨other, fault⟩
  · cases (parse_of_spells spells).symm.trans failed
  · rwa [← Except.error.inj ((parse_of_hasFault fault).symm.trans failed)]

end Rgba

end IsoScene
