import IsoScene.Proofs.Binary64.Rounding

/-! # Exact arithmetic

Each operation rounds the exact result once, so it is exact whenever that result fits into the
format (`Denotes.add`, `Denotes.sub`, `Denotes.mul`, `Denotes.div`).
-/

namespace IsoScene.Binary64

theorem isNaN_of_value_ne {x : Binary64} (numeric : x.value ≠ .notANumber) : x.isNaN = false := by
  cases number : x.isNaN with
  | false => rfl
  | true => simp [value, number] at numeric

theorem Denotes.isNaN_eq_false {x : Binary64} {q : ℚ} (hx : x.Denotes q) : x.isNaN = false := by
  obtain ⟨s, m, e, value, -⟩ := hx
  exact isNaN_of_value_ne (by simp [value])

/-- On numbers an operation is one on their values. -/
theorem operate_of_number {op : Value → Value → Binary64} {x y : Binary64}
    (hx : x.isNaN = false) (hy : y.isNaN = false) : operate op x y = op x.value y.value := by
  simp [operate, hx, hy]

theorem signed_neg (s : Bool) (q : ℚ) : signed (!s) q = -signed s q := by
  cases s <;> simp [signed]

theorem signed_mul (s t : Bool) (q r : ℚ) : signed (s != t) (q * r) = signed s q * signed t r := by
  cases s <;> cases t <;> simp [signed]

theorem signed_div (s t : Bool) (q r : ℚ) : signed (s != t) (q / r) = signed s q / signed t r := by
  cases s <;> cases t <;> simp [signed, neg_div, div_neg]

theorem ne_zero_of_signed {s : Bool} {m : Nat} {e : Int} (nonzero : signed s (m * 2 ^ e) ≠ 0) :
    m ≠ 0 := by
  rintro rfl
  exact nonzero (by cases s <;> simp [signed])

theorem aligned_eq (s : Bool) (m : Nat) {exponent target : Int} (le : target ≤ exponent) :
    (Value.aligned s m exponent target : ℚ) * 2 ^ target = signed s (m * 2 ^ exponent) := by
  have power : (twoTo (exponent - target) : ℚ) * 2 ^ target = 2 ^ exponent := by
    rw [twoTo_cast, ← zpow_add₀ two_ne_zero]
    congr 1
    omega
  rw [Value.aligned]
  cases s <;> simp [signed, mul_assoc, power]

/-- Two numbers are added in units that are fine enough for both. -/
theorem aligned_add (s t : Bool) (m n : Nat) (e f : Int) :
    ((Value.aligned s m e (min e f) + Value.aligned t n f (min e f) : Int) : ℚ) * 2 ^ min e f =
      signed s (m * 2 ^ e) + signed t (n * 2 ^ f) := by
  rw [Int.cast_add, add_mul, aligned_eq s m (min_le_left e f), aligned_eq t n (min_le_right e f)]

theorem IsExact.neg {q : ℚ} (exact : IsExact q) : IsExact (-q) := by
  obtain ⟨n, e, rfl, short, least, most⟩ := exact
  exact ⟨-n, e, by simp, by simpa using short, least, most⟩

theorem IsExact.signed {s : Bool} {q : ℚ} (exact : IsExact (signed s q)) : IsExact q := by
  cases s with
  | false => exact exact
  | true => simpa [Binary64.signed] using exact.neg

theorem ofScaledInt_denotes (zeroNegative : Bool) {n exponent : Int}
    (exact : IsExact (n * 2 ^ exponent)) :
    (ofScaledInt zeroNegative n exponent).Denotes (n * 2 ^ exponent) := by
  rw [ofScaledInt]
  split
  · next nothing =>
    rw [nothing, Int.cast_zero, zero_mul]
    exact zero_denotes zeroNegative
  · have ratio : ((n.natAbs * twoTo exponent : Nat) : ℚ) / twoTo (-exponent) =
        n.natAbs * 2 ^ exponent := by
      rw [Nat.cast_mul, mul_div_assoc, twoTo_div]
    have sign : signed (n < 0) (n.natAbs * 2 ^ exponent) = n * 2 ^ exponent := by
      rw [signed, Nat.cast_natAbs, Int.cast_abs]
      by_cases negative : n < 0
      · rw [if_pos (decide_eq_true negative), abs_of_neg (Int.cast_lt_zero.mpr negative), neg_mul,
          neg_neg]
      · rw [if_neg (by simpa using negative), abs_of_nonneg (Int.cast_nonneg (not_lt.mp negative))]
    rw [← sign, ← ratio] at exact ⊢
    exact ofRatio_denotes _ (twoTo_pos _) exact.signed

section
variable {x y : Binary64} {q r : ℚ} (hx : x.Denotes q) (hy : y.Denotes r)
include hx hy

theorem operate_denotes {op : Value → Value → Binary64} {result : ℚ}
    (onValues : ∀ (s : Bool) (m : Nat) (e : Int) (t : Bool) (n : Nat) (f : Int),
      signed s (m * 2 ^ e) = q → signed t (n * 2 ^ f) = r →
        (op (.finite s m e) (.finite t n f)).Denotes result) :
    (operate op x y).Denotes result := by
  rw [operate_of_number hx.isNaN_eq_false hy.isNaN_eq_false]
  obtain ⟨s, m, e, value, left⟩ := hx
  obtain ⟨t, n, f, value', right⟩ := hy
  rw [value, value']
  exact onValues s m e t n f left right

theorem Denotes.add (exact : IsExact (q + r)) : (x + y).Denotes (q + r) := by
  show (operate addValues x y).Denotes (q + r)
  refine operate_denotes hx hy fun s m e t n f left right => ?_
  rw [← left, ← right, ← aligned_add] at exact ⊢
  exact ofScaledInt_denotes (s && t) exact

theorem Denotes.sub (exact : IsExact (q - r)) : (x - y).Denotes (q - r) := by
  show (operate (fun a b => addValues a b.neg) x y).Denotes (q - r)
  refine operate_denotes hx hy fun s m e t n f left right => ?_
  rw [sub_eq_add_neg, ← left, ← right, ← signed_neg, ← aligned_add] at exact ⊢
  exact ofScaledInt_denotes (s && !t) exact

theorem Denotes.mul (exact : IsExact (q * r)) : (x * y).Denotes (q * r) := by
  show (operate mulValues x y).Denotes (q * r)
  refine operate_denotes hx hy fun s m e t n f left right => ?_
  have ratio : ((m * n * twoTo (e + f) : Nat) : ℚ) / twoTo (-(e + f)) =
      m * 2 ^ e * (n * 2 ^ f) := by
    rw [Nat.cast_mul, Nat.cast_mul, mul_div_assoc, twoTo_div, zpow_add₀ two_ne_zero,
      mul_mul_mul_comm]
  rw [← left, ← right, ← signed_mul, ← ratio] at exact ⊢
  exact ofRatio_denotes _ (twoTo_pos _) exact.signed

theorem Denotes.div (nonzero : r ≠ 0) (exact : IsExact (q / r)) : (x / y).Denotes (q / r) := by
  show (operate divValues x y).Denotes (q / r)
  refine operate_denotes hx hy fun s m e t n f left right => ?_
  have positive : n ≠ 0 := ne_zero_of_signed (right ▸ nonzero)
  have ratio : ((m * twoTo (e - f) : Nat) : ℚ) / (n * twoTo (-(e - f)) : Nat) =
      m * 2 ^ e / (n * 2 ^ f) := by
    rw [Nat.cast_mul, Nat.cast_mul, mul_div_mul_comm, twoTo_div, zpow_sub₀ two_ne_zero,
      mul_div_mul_comm]
  have opened : divValues (.finite s m e) (.finite t n f) =
      ofRatio (s != t) (m * twoTo (e - f)) (n * twoTo (-(e - f))) := if_neg positive
  rw [← left, ← right, ← signed_div, ← ratio] at exact ⊢
  rw [opened]
  exact ofRatio_denotes _ (Nat.mul_pos (Nat.pos_of_ne_zero positive) (twoTo_pos _)) exact.signed

end

/-! ## Whole numbers -/

theorem isExact_ofInt {n : Int} (short : |n| < 2 ^ 53) : IsExact n :=
  ⟨n, 0, by simp, short, by decide, by decide⟩

theorem ofInt_denotes {n : Int} (short : |n| < 2 ^ 53) : (ofInt n).Denotes n := by
  have exact : IsExact ((n : ℚ) * 2 ^ (0 : Int)) := by simpa using isExact_ofInt short
  simpa [ofInt] using ofScaledInt_denotes false exact

theorem ofNat_denotes {n : Nat} (short : n < 2 ^ 53) : (ofNat n).Denotes n := by
  have short' : |(n : Int)| < 2 ^ 53 := by
    rw [Nat.abs_cast]
    exact_mod_cast short
  simpa [ofNat] using ofInt_denotes short'

/-- Whole numbers keep their order. -/
theorem key_ofNat_lt {m n : Nat} (less : m < n) (small : n < 2 ^ 53) :
    (ofNat m).key < (ofNat n).key := by
  have left := ofNat_denotes (less.trans small)
  have right := ofNat_denotes small
  by_contra ordered
  have reversed := le_of_key_le right.isNaN_eq_false left.isNaN_eq_false (not_lt.mp ordered)
  rw [le_iff_of_denotes right left, Nat.cast_le] at reversed
  omega

theorem floorScaled_eq (s : Bool) (m : Nat) (e : Int) :
    floorScaled s m e = ⌊signed s (m * 2 ^ e)⌋ := by
  have shift : (twoTo (-e) : ℚ) * 2 ^ min e 0 = 1 := by
    rw [twoTo_cast, ← zpow_add₀ two_ne_zero, show max (-e) 0 + min e 0 = 0 by omega, zpow_zero]
  -- The number is a quotient of integers, so its floor is an integer division.
  have quotient : signed s (m * 2 ^ e) =
      (Value.aligned s m e (min e 0) : ℚ) / (twoTo (-e) : Nat) := by
    rw [← aligned_eq s m (min_le_left e 0), eq_div_iff (twoTo_ne_zero _), mul_assoc,
      mul_comm (_ ^ _), shift, mul_one]
  rw [floorScaled, Int.fdiv_eq_ediv_of_nonneg _ (Int.natCast_nonneg _), quotient,
    Rat.floor_intCast_div_natCast]

theorem floor64_of_denotes {x : Binary64} {q : ℚ} (hx : x.Denotes q) :
    x.floor64 = max Text.minInt64 (min Text.maxInt64 ⌊q⌋) := by
  obtain ⟨s, m, e, value, rfl⟩ := hx
  rw [floor64, value, ← floorScaled_eq]

theorem side_of_denotes {x : Binary64} {q : ℚ} (hx : x.Denotes q) :
    x.side = max 1 (min Text.maxNat32 ⌈q⌉.toNat) := by
  obtain ⟨s, m, e, value, rfl⟩ := hx
  have ceiling : -floorScaled (!s) m e = ⌈signed s (m * 2 ^ e)⌉ := by
    rw [floorScaled_eq, signed_neg, Int.floor_neg, neg_neg]
  rw [side, value, ← ceiling]

/-! ## What stays a number -/

theorem isNaN_ofInt (n : Int) : (ofInt n).isNaN = false := isNaN_ofScaledInt ..

def Value.IsFinite (v : Value) : Prop := ∃ s m e, v = .finite s m e

theorem Denotes.isFinite_value {x : Binary64} {q : ℚ} (hx : x.Denotes q) : x.value.IsFinite := by
  obtain ⟨s, m, e, value, -⟩ := hx
  exact ⟨s, m, e, value⟩

theorem value_ne_notANumber {x : Binary64} (number : x.isNaN = false) : x.value ≠ .notANumber := by
  rcases magnitude_of_number number with finite | infinite
  · obtain ⟨s, m, e, value⟩ := (denotes_of_isFinite finite).isFinite_value
    simp [value]
  · simp [value_of_infinite infinite]

/-- Only the sum of two infinities may have no value. -/
theorem isNaN_addValues {v w : Value} (left : v ≠ .notANumber) (right : w ≠ .notANumber)
    (finite : v.IsFinite ∨ w.IsFinite) : (addValues v w).isNaN = false := by
  cases v with
  | notANumber => exact absurd rfl left
  | infinite s =>
    obtain ⟨t, n, q, rfl⟩ : w.IsFinite := finite.resolve_left (by simp [Value.IsFinite])
    exact isNaN_ofMagnitude (Nat.le_refl _) s
  | finite s m p =>
    cases w with
    | notANumber => exact absurd rfl right
    | infinite t => exact isNaN_ofMagnitude (Nat.le_refl _) t
    | finite t n q => exact isNaN_ofScaledInt ..

theorem isNaN_add {x d : Binary64} (number : x.isNaN = false) (finite : d.isFinite = true) :
    (x + d).isNaN = false := by
  have denotes := denotes_of_isFinite (of_decide_eq_true finite)
  show (operate addValues x d).isNaN = false
  rw [operate_of_number number denotes.isNaN_eq_false]
  exact isNaN_addValues (value_ne_notANumber number)
    (value_ne_notANumber denotes.isNaN_eq_false) (.inr denotes.isFinite_value)

theorem isNaN_sub {x y : Binary64} {q : ℚ} (hx : x.Denotes q) (number : y.isNaN = false) :
    (x - y).isNaN = false := by
  show (operate (fun a b => addValues a b.neg) x y).isNaN = false
  rw [operate_of_number hx.isNaN_eq_false number]
  -- A subtraction adds the negated value, which is a number as well.
  have numeric := value_ne_notANumber number
  refine isNaN_addValues (value_ne_notANumber hx.isNaN_eq_false) ?_ (.inl hx.isFinite_value)
  cases value : y.value with
  | notANumber => exact absurd value numeric
  | infinite t => simp [Value.neg]
  | finite t n f => simp [Value.neg]

theorem isNaN_div {x y : Binary64} {r : ℚ} (number : x.isNaN = false) (hy : y.Denotes r)
    (nonzero : r ≠ 0) : (x / y).isNaN = false := by
  show (operate divValues x y).isNaN = false
  rw [operate_of_number number hy.isNaN_eq_false]
  have numeric := value_ne_notANumber number
  obtain ⟨t, n, f, value, rfl⟩ := hy
  have positive := ne_zero_of_signed nonzero
  rw [value]
  cases value : x.value with
  | notANumber => exact absurd value numeric
  | infinite s => exact isNaN_ofMagnitude (Nat.le_refl _) _
  | finite s m e =>
    rw [divValues, if_neg positive]
    exact isNaN_ofRatio ..

/-! ## What stays nonnegative -/

theorem zero_le_iff_of_denotes {x : Binary64} {q : ℚ} (hx : x.Denotes q) :
    zero false ≤ x ↔ 0 ≤ q := le_iff_of_denotes (zero_denotes false) hx

theorem zero_le_of_negative_eq_false {x : Binary64} (number : x.isNaN = false)
    (positive : x.negative = false) : zero false ≤ x := by
  have least : (zero false).key = 0 := by decide
  refine le_of_key_le (zero_denotes false).isNaN_eq_false number ?_
  rw [least, key, positive]
  exact Int.natCast_nonneg _

theorem zero_le_ofScaledInt (zeroNegative : Bool) {n : Int} (nonneg : 0 ≤ n) (exponent : Int) :
    zero false ≤ ofScaledInt zeroNegative n exponent := by
  rw [ofScaledInt]
  split
  · exact (zero_le_iff_of_denotes (zero_denotes zeroNegative)).mpr (le_refl 0)
  · have positive : decide (n < 0) = false := decide_eq_false (by omega)
    refine zero_le_of_negative_eq_false (isNaN_ofRatio ..) ?_
    rw [positive, ofRatio]
    split
    · exact negative_ofMagnitude (Nat.zero_le _) false
    · exact negative_ofMagnitude (Nat.min_le_right ..) false

theorem zero_le_ofNat (n : Nat) : zero false ≤ ofNat n :=
  zero_le_ofScaledInt false (Int.natCast_nonneg n) 0

theorem zero_le_infinity : zero false ≤ infinity false :=
  zero_le_of_negative_eq_false (isNaN_ofMagnitude (Nat.le_refl _) false)
    (negative_ofMagnitude (Nat.le_refl _) false)

theorem zero_le_cases {x : Binary64} (nonneg : zero false ≤ x) :
    x.value = .infinite false ∨ ∃ s m e, x.value = .finite s m e ∧ 0 ≤ signed s (m * 2 ^ e) := by
  have ordered : (zero false).value.AtMost x.value := nonneg
  obtain ⟨t, n, f, value, same⟩ := zero_denotes false
  rw [value] at ordered
  cases value' : x.value with
  | notANumber => simp [value', Value.AtMost] at ordered
  | infinite s =>
    rw [value'] at ordered
    exact .inl (congrArg _ ordered)
  | finite s m e =>
    rw [value'] at ordered
    exact .inr ⟨s, m, e, rfl, same ▸ ordered⟩

theorem isNaN_of_zero_le {x : Binary64} (nonneg : zero false ≤ x) : x.isNaN = false := by
  rcases zero_le_cases nonneg with value | ⟨s, m, e, value, -⟩ <;>
    exact isNaN_of_value_ne (by simp [value])

theorem zero_le_add {x y : Binary64} (hx : zero false ≤ x) (hy : zero false ≤ y) :
    zero false ≤ x + y := by
  show zero false ≤ operate addValues x y
  rw [operate_of_number (isNaN_of_zero_le hx) (isNaN_of_zero_le hy)]
  rcases zero_le_cases hx with left | ⟨s, m, e, left, nonneg⟩ <;>
    rcases zero_le_cases hy with right | ⟨t, n, f, right, nonneg'⟩
  · rw [left, right]
    exact zero_le_infinity
  · rw [left, right]
    exact zero_le_infinity
  · rw [left, right]
    exact zero_le_infinity
  · -- The exact sum is not negative, in whatever units, and rounding does not change a sign.
    have sum := add_nonneg nonneg nonneg'
    rw [← aligned_add] at sum
    have whole := Int.cast_nonneg_iff.mp (nonneg_of_mul_nonneg_left sum (zpow_pos two_pos _))
    rw [left, right]
    exact zero_le_ofScaledInt (s && t) whole _

end IsoScene.Binary64
