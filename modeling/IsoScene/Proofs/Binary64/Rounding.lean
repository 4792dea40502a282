import IsoScene.Proofs.Binary64.Numbers

/-! # Rounding

A rounded result is always a number, be it an infinity (`isNaN_ofRatio`). What can be written with a
significand of fifty-three bits and an exponent in range is not changed by rounding: the last bit
that a rounded number may have is no higher than that of the number itself (`lastBit_spec`), so the
quotient that is rounded is whole (`ofRatio_denotes`).
-/

namespace IsoScene.Binary64

/-! ## Patterns that are built -/

section
variable {magnitude : Nat} (bound : magnitude ≤ infiniteMagnitude) (negative : Bool)
include bound

theorem toNat_ofMagnitude : (ofMagnitude negative magnitude).bits.toNat =
    if negative then signWeight + magnitude else magnitude := by
  have fits : signWeight + infiniteMagnitude < UInt64.size := by decide
  exact UInt64.toNat_ofNat_of_lt' (by split <;> omega)

theorem magnitude_ofMagnitude : (ofMagnitude negative magnitude).magnitude = magnitude := by
  have small : infiniteMagnitude < signWeight := by decide
  rw [Binary64.magnitude, toNat_ofMagnitude bound]
  split
  · rw [Nat.add_mod_left, Nat.mod_eq_of_lt (by omega)]
  · exact Nat.mod_eq_of_lt (by omega)

theorem negative_ofMagnitude : (ofMagnitude negative magnitude).negative = negative := by
  have small : infiniteMagnitude < signWeight := by decide
  rw [Binary64.negative, toNat_ofMagnitude bound]
  cases negative with
  | false => exact decide_eq_false (by simp; omega)
  | true => exact decide_eq_true (by simp)

theorem isNaN_ofMagnitude : (ofMagnitude negative magnitude).isNaN = false := by
  rw [isNaN, magnitude_ofMagnitude bound]
  exact decide_eq_false (by omega)

end

theorem isNaN_ofRatio (negative : Bool) (num den : Nat) :
    (ofRatio negative num den).isNaN = false := by
  unfold ofRatio
  split
  · exact isNaN_ofMagnitude (Nat.zero_le _) negative
  · exact isNaN_ofMagnitude (Nat.min_le_right ..) negative

theorem isNaN_ofScaledInt (zeroNegative : Bool) (n exponent : Int) :
    (ofScaledInt zeroNegative n exponent).isNaN = false := by
  unfold ofScaledInt
  split
  · exact isNaN_ofMagnitude (Nat.zero_le _) zeroNegative
  · exact isNaN_ofRatio ..

theorem zero_denotes (negative : Bool) : (zero negative).Denotes 0 := by
  have finite : (zero negative).magnitude < infiniteMagnitude := by
    rw [zero, magnitude_ofMagnitude (Nat.zero_le _)]
    decide
  have nothing : units (zero negative).magnitude = 0 := by
    rw [zero, magnitude_ofMagnitude (Nat.zero_le _)]
    rfl
  simpa [nothing, signed] using denotes_of_isFinite finite

/-! ## Powers of two -/

theorem twoTo_cast (exponent : Int) : (twoTo exponent : ℚ) = 2 ^ max exponent 0 := by
  rw [twoTo, Nat.pow_eq, Nat.cast_pow, Nat.cast_ofNat, ← zpow_natCast, Int.ofNat_toNat]

theorem twoTo_ne_zero (exponent : Int) : (twoTo exponent : ℚ) ≠ 0 :=
  Nat.cast_ne_zero.mpr (twoTo_pos exponent).ne'

theorem twoTo_div (exponent : Int) : (twoTo exponent : ℚ) / twoTo (-exponent) = 2 ^ exponent := by
  rw [div_eq_iff (twoTo_ne_zero _), twoTo_cast, twoTo_cast, ← zpow_add₀ two_ne_zero]
  congr 1
  omega

theorem scaleDown_eq (num den : Nat) (exponent : Int) :
    ((scaleDown num den exponent).1 : ℚ) / (scaleDown num den exponent).2 =
      num / den / 2 ^ exponent := by
  have inverse : (twoTo (-exponent) : ℚ) / twoTo exponent = (2 ^ exponent)⁻¹ := by
    rw [← twoTo_div, inv_div]
  rw [scaleDown]
  dsimp only
  rw [Nat.cast_mul, Nat.cast_mul, mul_div_mul_comm, inverse, ← div_eq_mul_inv]

/-! ## The last bit -/

/-- The leading bits of numerator and denominator fix a quotient up to a factor of four. -/
theorem quotient_bounds {num den : Nat} (hnum : 0 < num) (hden : 0 < den) :
    let guess : Int := (num.log2 : Int) - (den.log2 : Int) - 52
    (2 : ℚ) ^ (guess + 51) < num / den ∧ (num / den : ℚ) < 2 ^ (guess + 53) := by
  intro guess
  have positive : (0 : ℚ) < den := Nat.cast_pos.mpr hden
  have low : (2 : ℚ) ^ (num.log2 : Int) ≤ num := by
    exact_mod_cast Nat.log2_self_le hnum.ne'
  have high : (num : ℚ) < 2 ^ (num.log2 + 1 : Int) := by
    exact_mod_cast Nat.lt_log2_self (n := num)
  have lowDen : (2 : ℚ) ^ (den.log2 : Int) ≤ den := by
    exact_mod_cast Nat.log2_self_le hden.ne'
  have highDen : (den : ℚ) < 2 ^ (den.log2 + 1 : Int) := by
    exact_mod_cast Nat.lt_log2_self (n := den)
  constructor
  · rw [lt_div_iff₀ positive]
    calc (2 : ℚ) ^ (guess + 51) * den < 2 ^ (guess + 51) * 2 ^ (den.log2 + 1 : Int) :=
          mul_lt_mul_of_pos_left highDen (zpow_pos two_pos _)
      _ = 2 ^ (num.log2 : Int) := by
          rw [← zpow_add₀ two_ne_zero]
          congr 1
          omega
      _ ≤ num := low
  · rw [div_lt_iff₀ positive]
    calc (num : ℚ) < 2 ^ (num.log2 + 1 : Int) := high
      _ = 2 ^ (guess + 53) * 2 ^ (den.log2 : Int) := by
          rw [← zpow_add₀ two_ne_zero]
          congr 1
          omega
      _ ≤ 2 ^ (guess + 53) * den := mul_le_mul_of_nonneg_left lowDen (zpow_pos two_pos _).le

theorem scaleDown_pos (num : Nat) {den : Nat} (hden : 0 < den) (exponent : Int) :
    0 < (scaleDown num den exponent).2 := Nat.mul_pos hden (twoTo_pos _)

/-- A quotient of natural numbers falls short of fifty-three bits exactly if the exact one does. -/
theorem scaleDown_lt_iff {num den : Nat} (hden : 0 < den) (exponent : Int) :
    (scaleDown num den exponent).1 / (scaleDown num den exponent).2 < exponentWeight ↔
      (num / den : ℚ) < 2 ^ (exponent + 52) := by
  have positive := scaleDown_pos num hden exponent
  have weight : (exponentWeight : ℚ) = 2 ^ (52 : Int) := by norm_num [exponentWeight]
  rw [Nat.div_lt_iff_lt_mul positive, ← Nat.cast_lt (α := ℚ), Nat.cast_mul,
    ← div_lt_iff₀ (Nat.cast_pos.mpr positive), scaleDown_eq, div_lt_iff₀ (zpow_pos two_pos _),
    weight, ← zpow_add₀ two_ne_zero, Int.add_comm]

/-- Above the last bit there is room for fifty-three bits, and they are needed unless it is the
least of all. -/
theorem lastBit_spec {num den : Nat} (hnum : 0 < num) (hden : 0 < den) :
    leastExponent ≤ lastBit num den ∧
      (num / den : ℚ) < 2 ^ (lastBit num den + 53) ∧
      (lastBit num den = leastExponent ∨ (2 : ℚ) ^ (lastBit num den + 52) ≤ num / den) := by
  obtain ⟨low, high⟩ := quotient_bounds hnum hden
  rw [lastBit]
  dsimp only at low high ⊢
  generalize (num.log2 : Int) - (den.log2 : Int) - 52 = guess at low high ⊢
  -- Without the limit at the least exponent there are exactly fifty-three bits.
  obtain ⟨free, isFree, lower, upper⟩ : ∃ free : Int,
      (if (scaleDown num den guess).1 / (scaleDown num den guess).2 < exponentWeight then guess - 1
        else guess) = free ∧ (2 : ℚ) ^ (free + 52) ≤ num / den ∧
      (num / den : ℚ) < 2 ^ (free + 53) := by
    by_cases short : (num / den : ℚ) < 2 ^ (guess + 52)
    · refine ⟨guess - 1, if_pos ((scaleDown_lt_iff hden guess).mpr short), ?_, ?_⟩
      · rw [show guess - 1 + 52 = guess + 51 by omega]
        exact low.le
      · rw [show guess - 1 + 53 = guess + 52 by omega]
        exact short
    · exact ⟨guess, if_neg ((scaleDown_lt_iff hden guess).not.mpr short), not_lt.mp short, high⟩
  rw [isFree]
  refine ⟨le_max_left _ _, ?_, ?_⟩
  · exact upper.trans_le (zpow_le_zpow_right₀ one_le_two (by omega))
  · rcases max_choice leastExponent free with least | same
    · exact .inl least
    · exact .inr (by rw [same]; exact lower)

/-! ## Numbers that are not changed by rounding -/

/-- The number fits into the format: its significand has at most fifty-three bits, and its exponent
is in range. -/
def IsExact (q : ℚ) : Prop :=
  ∃ (n e : Int), q = n * 2 ^ e ∧ |n| < 2 ^ 53 ∧ leastExponent ≤ e ∧ e ≤ 971

theorem roundQuotient_mul {den : Nat} (hden : 0 < den) (whole : Nat) :
    roundQuotient (whole * den) den = whole := by
  rw [roundQuotient, Nat.mul_mod_left, Nat.mul_div_cancel _ hden]
  simp [hden.ne]

theorem exists_whole_of_isExact {num den : Nat} (hnum : 0 < num) (hden : 0 < den)
    (exact : IsExact (num / den)) :
    lastBit num den ≤ 971 ∧ ∃ whole : Nat, (num / den : ℚ) = whole * 2 ^ lastBit num den ∧
      whole < 2 * exponentWeight ∧
      (exponentWeight ≤ whole ∨ lastBit num den = leastExponent) := by
  obtain ⟨-, upper, lower⟩ := lastBit_spec hnum hden
  obtain ⟨n, e, same, short, least, most⟩ := exact
  generalize lastBit num den = last at upper lower ⊢
  have positive : (0 : ℚ) < num / den := div_pos (Nat.cast_pos.mpr hnum) (Nat.cast_pos.mpr hden)
  rw [same] at positive upper lower ⊢
  have nPositive : 0 < n := by exact_mod_cast pos_of_mul_pos_left positive (zpow_pos two_pos e).le
  have nShort : (n : ℚ) < 2 ^ (53 : Int) := by exact_mod_cast (abs_lt.mp short).2
  -- Otherwise the number would need more than fifty-three bits.
  have ordered : last ≤ e := by
    rcases lower with rfl | lower
    · exact least
    · have below : (2 : ℚ) ^ (last + 52) < 2 ^ (53 + e) := by
        rw [zpow_add₀ two_ne_zero 53 e]
        exact lower.trans_lt (mul_lt_mul_of_pos_right nShort (zpow_pos two_pos e))
      have := (zpow_lt_zpow_iff_right₀ one_lt_two).mp below
      omega
  have whole : (n : ℚ) * 2 ^ e = (n.toNat * 2 ^ (e - last).toNat : Nat) * 2 ^ last := by
    have shift : ((e - last).toNat : Int) = e - last := Int.toNat_of_nonneg (by omega)
    have natural : (n.toNat : ℚ) = n := by exact_mod_cast Int.toNat_of_nonneg nPositive.le
    rw [Nat.cast_mul, Nat.cast_pow, Nat.cast_ofNat, natural, ← zpow_natCast, shift, mul_assoc,
      ← zpow_add₀ two_ne_zero, Int.sub_add_cancel]
  rw [whole] at upper lower ⊢
  generalize n.toNat * 2 ^ (e - last).toNat = s at upper lower ⊢
  refine ⟨by omega, s, rfl, ?_, ?_⟩
  · have bits : (s : ℚ) < 2 ^ (53 : Int) := by
      rw [Int.add_comm, zpow_add₀ two_ne_zero] at upper
      exact lt_of_mul_lt_mul_right upper (zpow_pos two_pos last).le
    exact_mod_cast bits
  · refine lower.symm.imp_left fun lower => ?_
    have bits : (2 : ℚ) ^ (52 : Int) ≤ s := by
      rw [Int.add_comm, zpow_add₀ two_ne_zero] at lower
      exact le_of_mul_le_mul_right lower (zpow_pos two_pos last)
    exact_mod_cast bits

/-- Reading the units of a pattern undoes the packing of exponent and significand. -/
theorem ofMagnitude_denotes (negative : Bool) {field significand : Nat}
    (normal : exponentWeight ≤ significand ∨ field = 0) (short : significand ≤ 2 * exponentWeight)
    (finite : field * exponentWeight + significand < infiniteMagnitude) :
    (ofMagnitude negative (field * exponentWeight + significand)).Denotes
      (signed negative (significand * 2 ^ (leastExponent + field))) := by
  have magnitude := magnitude_ofMagnitude finite.le negative
  have denotes := denotes_of_isFinite (magnitude ▸ finite)
  rw [magnitude, negative_ofMagnitude finite.le, units_pack field significand normal short,
    Nat.cast_mul, Nat.cast_pow, Nat.cast_ofNat, ← zpow_natCast, mul_assoc,
    ← zpow_add₀ two_ne_zero, Int.add_comm] at denotes
  exact denotes

theorem ofRatio_denotes (negative : Bool) {num den : Nat} (hden : 0 < den)
    (exact : IsExact (num / den)) :
    (ofRatio negative num den).Denotes (signed negative (num / den)) := by
  rcases Nat.eq_zero_or_pos num with rfl | hnum
  · have nothing : signed negative ((0 : Nat) / den) = 0 := by cases negative <;> simp [signed]
    rw [ofRatio, if_pos rfl, nothing]
    exact zero_denotes negative
  obtain ⟨least, -, -⟩ := lastBit_spec hnum hden
  obtain ⟨most, whole, same, short, normal⟩ := exists_whole_of_isExact hnum hden exact
  have positive := scaleDown_pos num hden (lastBit num den)
  -- The quotient that is rounded is a whole number, so rounding leaves it as it is.
  have quotient : (scaleDown num den (lastBit num den)).1 =
      whole * (scaleDown num den (lastBit num den)).2 := by
    have scaled := scaleDown_eq num den (lastBit num den)
    rw [same, mul_div_cancel_right₀ _ (zpow_pos two_pos _).ne',
      div_eq_iff (Nat.cast_pos.mpr positive).ne'] at scaled
    exact_mod_cast scaled
  obtain ⟨field, isField⟩ : ∃ field : Nat, lastBit num den - leastExponent = field :=
    Int.eq_ofNat_of_zero_le (Int.sub_nonneg_of_le least)
  have finite : field * exponentWeight + whole < infiniteMagnitude := by
    have small : field ≤ 2045 := by
      simp only [leastExponent] at isField
      omega
    have := Nat.mul_le_mul_right exponentWeight small
    have limit : infiniteMagnitude = 2045 * exponentWeight + 2 * exponentWeight := rfl
    omega
  have built : ofRatio negative num den =
      ofMagnitude negative (field * exponentWeight + whole) := by
    rw [ofRatio, if_neg hnum.ne', ofPositiveRatio]
    dsimp only
    rw [quotient, roundQuotient_mul positive, isField, Int.toNat_natCast,
      Nat.min_eq_left finite.le]
  rw [built, same, show lastBit num den = leastExponent + field by omega]
  refine ofMagnitude_denotes negative (normal.imp_right fun last => ?_) short.le finite
  omega

end IsoScene.Binary64
