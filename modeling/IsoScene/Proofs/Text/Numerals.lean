import IsoScene.Text.Integer
import Mathlib.Data.List.Induction

/-! # Numerals

Every number has one plain numeral, that of `Nat.toDigits`. A text of digits is read as a number
exactly if it is the plain numeral of the number with zeros in front of it
(`natOfDigits?_eq_some_iff`); where a sign is allowed, a plus sign may come before them
(`readNat_eq_some_iff`).

A whole number may have either sign. It is read if it is a literal and its value lies within the
limits (`readInt_eq_some_iff`), so one that is too great is refused like a text that is no literal
(`readInt_eq_none_iff`).
-/

namespace IsoScene.Text

theorem natOfDigits_eq (s : List Char) : natOfDigits s = Nat.ofDigitChars 10 s 0 := rfl

theorem natOfDigits_concat (s : List Char) (c : Char) :
    natOfDigits (s ++ [c]) = 10 * natOfDigits s + digitValue c := by
  simp [natOfDigits]

theorem natOfDigits_toDigits (n : Nat) : natOfDigits (Nat.toDigits 10 n) = n := by
  rw [natOfDigits_eq, Nat.ofDigitChars_ten_toDigits]

theorem natOfDigits_zeros_append (zeros : Nat) (s : List Char) :
    natOfDigits (List.replicate zeros '0' ++ s) = natOfDigits s := by
  induction zeros with
  | zero => rfl
  | succ zeros ih => exact ih

theorem toDigits_digitValue {c : Char} (digit : c.isDigit = true) :
    digitValue c < 10 ∧ Nat.toDigits 10 (digitValue c) = [c] := by
  obtain ⟨least, greatest⟩ : 48 ≤ c.toNat ∧ c.toNat ≤ 57 := by
    simpa [Char.isDigit, Char.le_def, UInt32.le_iff_toNat_le] using digit
  have value : digitValue c = c.toNat - 48 := rfl
  have small : digitValue c < 10 := by omega
  refine ⟨small, ?_⟩
  rw [Nat.toDigits_of_lt_base small]
  refine congrArg (fun d => [d]) (Char.toNat_inj.mp ?_)
  rw [Nat.toNat_digitChar_of_lt_ten small]
  omega

/-- Decimal digits, at least one. -/
structure IsDigits (s : List Char) : Prop where
  ne_nil : s ≠ []
  digits : ∀ c ∈ s, c.isDigit = true

theorem natOfDigits?_eq_some_iff_isDigits {s : List Char} {n : Nat} :
    natOfDigits? s = some n ↔ IsDigits s ∧ Nat.ofDigitChars 10 s 0 = n := by
  unfold natOfDigits?
  split
  · next noNumeral =>
    refine iff_of_false nofun fun ⟨isNumeral, _⟩ => ?_
    rw [Bool.or_eq_true, List.isEmpty_iff, Bool.not_eq_true', ← Bool.not_eq_true,
      List.all_eq_true] at noNumeral
    exact noNumeral.elim isNumeral.ne_nil fun odd => odd isNumeral.digits
  · next isNumeral =>
    rw [Bool.or_eq_true, List.isEmpty_iff, Bool.not_eq_true', not_or, Bool.not_eq_false,
      List.all_eq_true] at isNumeral
    rw [Option.some.injEq, natOfDigits_eq]
    exact (and_iff_right ⟨isNumeral.1, isNumeral.2⟩).symm

/-- Digits are the plain numeral of their value with zeros in front of it. -/
theorem IsDigits.exists_zeros {s : List Char} (isNumeral : IsDigits s) :
    ∃ zeros, s = List.replicate zeros '0' ++ Nat.toDigits 10 (natOfDigits s) := by
  obtain ⟨nonempty, digits⟩ := isNumeral
  induction s using List.reverseRecOn with
  | nil => exact absurd rfl nonempty
  | append_singleton front c ih =>
    obtain ⟨small, last⟩ := toDigits_digitValue (digits c (by simp))
    by_cases alone : front = []
    · refine ⟨0, ?_⟩
      rw [alone, natOfDigits_concat]
      simpa [natOfDigits] using last.symm
    obtain ⟨zeros, split⟩ := ih alone fun d member => digits d (by simp [member])
    by_cases zero : natOfDigits front = 0
    · -- There are only zeros in front of the last digit.
      refine ⟨zeros + 1, ?_⟩
      rw [natOfDigits_concat, zero, Nat.mul_zero, Nat.zero_add, last, List.replicate_succ',
        ← Nat.toDigits_zero 10, ← zero, ← split]
    · refine ⟨zeros, ?_⟩
      rw [natOfDigits_concat, ← Nat.toDigits_append_toDigits (by decide)
        (Nat.pos_of_ne_zero zero) small, last, ← List.append_assoc, ← split]

theorem isDigits_zeros_append (zeros n : Nat) :
    IsDigits (List.replicate zeros '0' ++ Nat.toDigits 10 n) := by
  refine ⟨by simp [Nat.toDigits_ne_nil], fun c member => ?_⟩
  rcases List.mem_append.mp member with inZeros | inNumeral
  · rw [List.eq_of_mem_replicate inZeros]
    rfl
  · exact Nat.isDigit_of_mem_toDigits (by decide) (by decide) inNumeral

theorem natOfDigits?_eq_some_iff {s : List Char} {n : Nat} :
    natOfDigits? s = some n ↔ ∃ zeros, s = List.replicate zeros '0' ++ Nat.toDigits 10 n := by
  rw [natOfDigits?_eq_some_iff_isDigits, ← natOfDigits_eq]
  constructor
  · rintro ⟨isNumeral, rfl⟩
    exact isNumeral.exists_zeros
  · rintro ⟨zeros, rfl⟩
    refine ⟨isDigits_zeros_append zeros n, ?_⟩
    rw [natOfDigits_zeros_append, natOfDigits_toDigits]

theorem natOfDigits?_plus (s : List Char) : natOfDigits? ('+' :: s) = none := by
  simp [natOfDigits?]

/-- A number is read from its plain numeral with zeros and perhaps a plus sign in front of it. -/
theorem readNat_eq_some_iff {limit n : Nat} {s : List Char} :
    readNat limit s = some n ↔ n ≤ limit ∧ ∃ sign zeros, (sign = [] ∨ sign = ['+']) ∧
      s = sign ++ (List.replicate zeros '0' ++ Nat.toDigits 10 n) := by
  have within : ∀ digits, (natOfDigits? digits).filter (fun n => decide (n ≤ limit)) = some n ↔
      n ≤ limit ∧ ∃ zeros, digits = List.replicate zeros '0' ++ Nat.toDigits 10 n := by
    intro digits
    rw [Option.filter_eq_some_iff, natOfDigits?_eq_some_iff, decide_eq_true_iff, and_comm]
  unfold readNat
  split
  · next rest =>
    rw [within]
    refine and_congr_right fun _ => ⟨?_, ?_⟩
    · rintro ⟨zeros, rfl⟩
      exact ⟨['+'], zeros, .inr rfl, rfl⟩
    · rintro ⟨sign, zeros, rfl | rfl, split⟩
      · -- Without a sign, the text would consist of digits.
        have read := natOfDigits?_eq_some_iff.mpr ⟨zeros, split⟩
        rw [natOfDigits?_plus] at read
        cases read
      · exact ⟨zeros, (List.cons.inj split).2⟩
  · next unsigned =>
    rw [within]
    refine and_congr_right fun _ => ⟨?_, ?_⟩
    · rintro ⟨zeros, rfl⟩
      exact ⟨[], zeros, .inl rfl, rfl⟩
    · rintro ⟨sign, zeros, rfl | rfl, split⟩
      · exact ⟨zeros, split⟩
      · exact absurd split (unsigned _)

/-! ## Literals with a sign -/

/-- The text is a whole number in decimal digits, with or without a sign. -/
inductive IsLiteral : List Char → Int → Prop where
  | plain {s : List Char} (digits : IsDigits s) : IsLiteral s (Nat.ofDigitChars 10 s 0)
  | plus {s : List Char} (digits : IsDigits s) : IsLiteral ('+' :: s) (Nat.ofDigitChars 10 s 0)
  | minus {s : List Char} (digits : IsDigits s) :
    IsLiteral ('-' :: s) (-(Nat.ofDigitChars 10 s 0 : Nat))

theorem IsDigits.no_sign {c : Char} {s : List Char} (isNumeral : IsDigits (c :: s)) :
    c ≠ '+' ∧ c ≠ '-' := by
  have digit := isNumeral.digits c List.mem_cons_self
  constructor
  · rintro rfl
    cases digit
  · rintro rfl
    cases digit

/-- The value of a literal, whatever its size. -/
def literal? (s : List Char) : Option Int :=
  match s with
  | '+' :: rest => (natOfDigits? rest).map Int.ofNat
  | '-' :: rest => (natOfDigits? rest).map fun n => -Int.ofNat n
  | _ => (natOfDigits? s).map Int.ofNat

theorem readInt_eq (least greatest : Int) (s : List Char) :
    readInt least greatest s = (literal? s).filter fun n => least ≤ n && n ≤ greatest := rfl

theorem literal?_of_isDigits {s : List Char} (isNumeral : IsDigits s) :
    literal? s = (natOfDigits? s).map Int.ofNat := by
  unfold literal?
  split
  · exact absurd rfl isNumeral.no_sign.1
  · exact absurd rfl isNumeral.no_sign.2
  · rfl

theorem literal?_eq_some_iff {s : List Char} {n : Int} : literal? s = some n ↔ IsLiteral s n := by
  constructor
  · intro read
    unfold literal? at read
    split at read
    all_goals
      obtain ⟨amount, digits, rfl⟩ := Option.map_eq_some_iff.mp read
      obtain ⟨isNumeral, rfl⟩ := natOfDigits?_eq_some_iff_isDigits.mp digits
    · exact .plus isNumeral
    · exact .minus isNumeral
    · exact .plain isNumeral
  · intro literal
    cases literal with
    | plain digits =>
      rw [literal?_of_isDigits digits, natOfDigits?_eq_some_iff_isDigits.mpr ⟨digits, rfl⟩]
      rfl
    | plus digits => simp [literal?, natOfDigits?_eq_some_iff_isDigits.mpr ⟨digits, rfl⟩]
    | minus digits => simp [literal?, natOfDigits?_eq_some_iff_isDigits.mpr ⟨digits, rfl⟩]

instance (s : List Char) (n : Int) : Decidable (IsLiteral s n) :=
  decidable_of_iff (literal? s = some n) literal?_eq_some_iff

theorem readInt_eq_some_iff {least greatest n : Int} {s : List Char} :
    readInt least greatest s = some n ↔ IsLiteral s n ∧ least ≤ n ∧ n ≤ greatest := by
  rw [readInt_eq, Option.filter_eq_some_iff, literal?_eq_some_iff, Bool.and_eq_true,
    decide_eq_true_iff, decide_eq_true_iff]

/-- A literal beyond the limits is refused like a text that is no literal. -/
theorem readInt_eq_none_iff {least greatest : Int} {s : List Char} :
    readInt least greatest s = none ↔ ∀ n, IsLiteral s n → ¬ (least ≤ n ∧ n ≤ greatest) := by
  rw [Option.eq_none_iff_forall_ne_some]
  simp only [ne_eq, readInt_eq_some_iff, not_and]

theorem IsLiteral.unique {s : List Char} {n m : Int} (first : IsLiteral s n)
    (second : IsLiteral s m) : n = m :=
  Option.some.inj ((literal?_eq_some_iff.mpr first).symm.trans (literal?_eq_some_iff.mpr second))

end IsoScene.Text
