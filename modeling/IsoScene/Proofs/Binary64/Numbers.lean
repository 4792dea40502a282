import IsoScene.Binary64.Basic
import Mathlib.Algebra.Order.Field.Basic
import Mathlib.Data.Rat.Floor
import Mathlib.Tactic.Linarith
import Mathlib.Tactic.Ring
import Mathlib.Order.Monotone.Basic

/-! # The numbers that bit patterns denote

A finite pattern denotes a rational number, which is a whole number of least units
(`denotes_of_isFinite`). The units grow with the magnitude of the pattern (`units_mono`), so the
order of keys is the order of numbers (`le_of_key_le`).
-/

namespace IsoScene.Binary64

def signed (negative : Bool) (q : ℚ) : ℚ := if negative then -q else q

/-- The pattern denotes this number. -/
def Denotes (x : Binary64) (q : ℚ) : Prop :=
  ∃ s m e, x.value = .finite s m e ∧ signed s (m * 2 ^ e) = q

/-! ## Order -/

/-- The order of numbers. What is not a number stands in no order, and both zeros are equal. -/
def Value.AtMost : Value → Value → Prop
  | .notANumber, _ => False
  | _, .notANumber => False
  | .infinite s, .infinite t => s = true ∨ t = false
  | .infinite s, .finite .. => s = true
  | .finite .., .infinite t => t = false
  | .finite s m p, .finite t n q => signed s (m * 2 ^ p) ≤ signed t (n * 2 ^ q)

instance : LE Binary64 := ⟨fun x y => x.value.AtMost y.value⟩

theorem le_iff_of_denotes {x y : Binary64} {q r : ℚ} (hx : x.Denotes q) (hy : y.Denotes r) :
    x ≤ y ↔ q ≤ r := by
  obtain ⟨s, m, e, value, rfl⟩ := hx
  obtain ⟨s', m', e', value', rfl⟩ := hy
  show x.value.AtMost y.value ↔ _
  rw [value, value']
  rfl

/-! ## Units -/

/-- A magnitude in least units. -/
def units (magnitude : Nat) : Nat :=
  if magnitude < exponentWeight then magnitude
  else (exponentWeight + magnitude % exponentWeight) * 2 ^ (magnitude / exponentWeight - 1)

theorem exponentWeight_pos : 0 < exponentWeight := by decide

theorem units_pack (field significand : Nat) (normal : exponentWeight ≤ significand ∨ field = 0)
    (bound : significand ≤ 2 * exponentWeight) :
    units (field * exponentWeight + significand) = significand * 2 ^ field := by
  have quotient : (field * exponentWeight + significand) / exponentWeight =
      field + significand / exponentWeight := by
    rw [Nat.add_comm, Nat.add_mul_div_right _ _ exponentWeight_pos, Nat.add_comm]
  have rest : (field * exponentWeight + significand) % exponentWeight =
      significand % exponentWeight := Nat.mul_add_mod_self_right ..
  rcases Nat.lt_or_ge significand exponentWeight with small | large
  · obtain rfl : field = 0 := by omega
    rw [units, if_pos (by omega)]
    simp
  · rw [units, if_neg (by omega), quotient, rest]
    rcases Nat.lt_or_ge significand (2 * exponentWeight) with short | long
    · have one : significand / exponentWeight = 1 :=
        Nat.div_eq_of_lt_le (by omega) (by omega)
      rw [one, Nat.mod_eq_sub_mod large, Nat.mod_eq_of_lt (by omega), Nat.add_sub_cancel,
        Nat.add_sub_cancel' large]
    · -- The significand is one bit too long, which is carried to the exponent.
      obtain rfl : significand = 2 * exponentWeight := by omega
      rw [Nat.mul_mod_left, Nat.mul_div_cancel _ exponentWeight_pos, Nat.add_zero,
        show field + 2 - 1 = field + 1 from rfl, Nat.pow_succ]
      ring

theorem units_mono : Monotone units := by
  refine monotone_nat_of_le_succ fun magnitude => ?_
  rcases Nat.lt_or_ge magnitude exponentWeight with small | normal
  · have here := units_pack 0 magnitude (.inr rfl) (by omega)
    have next := units_pack 0 (magnitude + 1) (.inr rfl) (by omega)
    rw [Nat.zero_mul, Nat.zero_add] at here next
    rw [here, next]
    exact Nat.mul_le_mul_right _ (Nat.le_succ magnitude)
  · -- Both magnitudes can be written with the same exponent.
    have least : 1 ≤ magnitude / exponentWeight := (Nat.one_le_div_iff (by decide)).mpr normal
    have split := Nat.div_add_mod magnitude exponentWeight
    have rest : magnitude % exponentWeight < exponentWeight := Nat.mod_lt _ (by decide)
    obtain ⟨field, quotient⟩ := Nat.exists_eq_add_of_le least
    rw [quotient] at split
    have here := units_pack field (exponentWeight + magnitude % exponentWeight)
      (.inl (by omega)) (by omega)
    have next := units_pack field (exponentWeight + magnitude % exponentWeight + 1)
      (.inl (by omega)) (by omega)
    have packed : field * exponentWeight + (exponentWeight + magnitude % exponentWeight) =
        magnitude := by
      rw [Nat.mul_comm]
      rw [Nat.mul_add, Nat.mul_one] at split
      omega
    rw [← Nat.add_assoc, packed] at next
    rw [packed] at here
    rw [here, next]
    exact Nat.mul_le_mul_right _ (Nat.le_succ _)

/-! ## Reading patterns -/

theorem bits_inj {x y : Binary64} : x.bits = y.bits ↔ x = y := by
  cases x
  cases y
  rw [mk.injEq]

theorem toNat_bits (x : Binary64) :
    x.bits.toNat = (if x.negative then signWeight else 0) + x.magnitude := by
  have bound : x.bits.toNat < 2 * signWeight := x.bits.toNat_lt
  have sign : x.negative = true ↔ signWeight ≤ x.bits.toNat := decide_eq_true_iff
  rw [magnitude]
  split
  · next negative =>
    have large := sign.mp negative
    rw [Nat.mod_eq_sub_mod large, Nat.mod_eq_of_lt (by omega)]
    omega
  · next positive =>
    have small := sign.not.mp positive
    rw [Nat.mod_eq_of_lt (by omega), Nat.zero_add]

/-- No two patterns have the same position, not even both zeros or two that are not numbers. -/
theorem key_injective : Function.Injective key := by
  intro x y same
  have alike : x.negative = y.negative ∧ x.magnitude = y.magnitude := by
    revert same
    rw [key, key]
    cases x.negative <;> cases y.negative <;> simp <;> omega
  have bits : x.bits.toNat = y.bits.toNat := by rw [toNat_bits, toNat_bits, alike.1, alike.2]
  exact bits_inj.mp (UInt64.toNat_inj.mp bits)

theorem fraction_eq (x : Binary64) : x.fraction = x.magnitude % exponentWeight := by
  have divides : exponentWeight ∣ signWeight := by decide
  exact (Nat.mod_mod_of_dvd _ divides).symm

theorem value_of_infinite {x : Binary64} (infinite : x.magnitude = infiniteMagnitude) :
    x.value = .infinite x.negative := by
  have number : x.isNaN = false := decide_eq_false (by omega)
  rw [value, number, if_pos infinite]
  rfl

theorem denotes_of_isFinite {x : Binary64} (finite : x.magnitude < infiniteMagnitude) :
    x.Denotes (signed x.negative (units x.magnitude * 2 ^ leastExponent)) := by
  have number : x.isNaN = false := decide_eq_false (by omega)
  have notInfinite : x.magnitude ≠ infiniteMagnitude := by omega
  have reads : x.value = if x.magnitude / exponentWeight = 0 then
      .finite x.negative (x.magnitude % exponentWeight) leastExponent
    else .finite x.negative (exponentWeight + x.magnitude % exponentWeight)
      (leastExponent + (x.magnitude / exponentWeight - 1 : Nat)) := by
    rw [value, number, if_neg notInfinite, fraction_eq]
    rfl
  rcases Nat.lt_or_ge x.magnitude exponentWeight with small | normal
  · rw [Nat.div_eq_of_lt small, Nat.mod_eq_of_lt small] at reads
    exact ⟨_, _, _, reads, by rw [units, if_pos small]⟩
  · have field : x.magnitude / exponentWeight ≠ 0 :=
      Nat.ne_of_gt ((Nat.one_le_div_iff exponentWeight_pos).mpr normal)
    rw [if_neg field] at reads
    refine ⟨_, _, _, reads, ?_⟩
    rw [units, if_neg (by omega), zpow_add₀ two_ne_zero, zpow_natCast, Nat.cast_mul, Nat.cast_pow,
      Nat.cast_ofNat]
    ring_nf

/-- A pattern is not a number, or infinite, or finite. -/
theorem magnitude_of_number {x : Binary64} (number : x.isNaN = false) :
    x.magnitude < infiniteMagnitude ∨ x.magnitude = infiniteMagnitude := by
  have := of_decide_eq_false number
  omega

/-! ## Keys -/

/-- The order of keys is the order of numbers. -/
theorem le_of_key_le {x y : Binary64} (numberLeft : x.isNaN = false) (numberRight : y.isNaN = false)
    (ordered : x.key ≤ y.key) : x ≤ y := by
  unfold key at ordered
  rcases magnitude_of_number numberLeft with finiteLeft | infiniteLeft <;>
    rcases magnitude_of_number numberRight with finiteRight | infiniteRight
  · have left := denotes_of_isFinite finiteLeft
    have right := denotes_of_isFinite finiteRight
    have grow {m n : Nat} (less : m ≤ n) : (units m : ℚ) * 2 ^ leastExponent ≤
        units n * 2 ^ leastExponent :=
      mul_le_mul_of_nonneg_right (Nat.cast_le.mpr (units_mono less)) (zpow_pos two_pos _).le
    have positive (m : Nat) : (0 : ℚ) ≤ units m * 2 ^ leastExponent :=
      mul_nonneg (Nat.cast_nonneg _) (zpow_pos two_pos _).le
    rw [le_iff_of_denotes left right]
    cases signLeft : x.negative <;> cases signRight : y.negative <;>
      simp only [signLeft, signRight, Bool.false_eq_true, if_false, if_true] at ordered
    · exact grow (by omega)
    · omega
    · exact (neg_nonpos.mpr (positive _)).trans (positive _)
    · exact neg_le_neg (grow (by omega))
  -- An infinite key is beyond that of every finite number, so the signs must be right.
  · obtain ⟨s, m, e, value, -⟩ := denotes_of_isFinite finiteLeft
    show x.value.AtMost y.value
    rw [value, value_of_infinite infiniteRight]
    show y.negative = false
    cases sign : y.negative with
    | false => rfl
    | true =>
      rw [sign, if_pos rfl] at ordered
      split at ordered <;> omega
  · obtain ⟨s, m, e, value, -⟩ := denotes_of_isFinite finiteRight
    show x.value.AtMost y.value
    rw [value, value_of_infinite infiniteLeft]
    show x.negative = true
    cases sign : x.negative with
    | true => rfl
    | false =>
      rw [sign, if_neg Bool.false_ne_true] at ordered
      split at ordered <;> omega
  · show x.value.AtMost y.value
    rw [value_of_infinite infiniteLeft, value_of_infinite infiniteRight]
    show x.negative = true ∨ y.negative = false
    cases signLeft : x.negative <;> cases signRight : y.negative <;>
      simp [signLeft, signRight] at ordered ⊢
    omega

end IsoScene.Binary64
