import IsoScene.Proofs.Binary64.Arithmetic

/-! # Numbers on a grid

Multiples of a power of two that are not too large fit into the format, so arithmetic on them is
exact as long as there is room for the result. The grid gets finer with every division by two.
-/

namespace IsoScene.Binary64

/-- The pattern denotes a number with so many binary places whose amount is limited. -/
structure OnGrid (places : Nat) (limit : ℚ) (x : Binary64) (q : ℚ) : Prop where
  denotes : x.Denotes q
  whole : ∃ n : Int, q * 2 ^ places = n
  small : |q| ≤ limit

theorem isExact_of_whole {places : Nat} {q limit : ℚ} (whole : ∃ n : Int, q * 2 ^ places = n)
    (small : |q| ≤ limit) (room : limit * 2 ^ places < 2 ^ 53) (fine : places ≤ 1074) :
    IsExact q := by
  obtain ⟨n, same⟩ := whole
  have power : (0 : ℚ) < 2 ^ places := pow_pos two_pos _
  refine ⟨n, -places, ?_, ?_, ?_, ?_⟩
  · rw [zpow_neg, zpow_natCast, ← same, mul_assoc, mul_inv_cancel₀ power.ne', mul_one]
  · have bound : |(n : ℚ)| < 2 ^ 53 := by
      rw [← same, abs_mul, abs_of_pos power]
      exact (mul_le_mul_of_nonneg_right small power.le).trans_lt room
    exact_mod_cast bound
  · simp only [leastExponent]
    omega
  · omega

namespace OnGrid

variable {j k : Nat} {a b : ℚ} {x y : Binary64} {q r : ℚ}

theorem exists_whole (hx : OnGrid j a x q) (finer : j ≤ k) : ∃ n : Int, q * 2 ^ k = n := by
  obtain ⟨n, same⟩ := hx.whole
  refine ⟨n * 2 ^ (k - j), ?_⟩
  rw [← Nat.add_sub_cancel' finer, pow_add, ← mul_assoc, same, Nat.add_sub_cancel_left]
  push_cast
  rfl

theorem mono (hx : OnGrid j a x q) (finer : j ≤ k) (more : a ≤ b) : OnGrid k b x q :=
  ⟨hx.denotes, hx.exists_whole finer, hx.small.trans more⟩

theorem ofInt {n : Int} (small : |(n : ℚ)| ≤ a) (room : a < 2 ^ 53 := by norm_num) :
    OnGrid 0 a (ofInt n) n := by
  have short : |n| < 2 ^ 53 := by exact_mod_cast small.trans_lt room
  exact ⟨ofInt_denotes short, ⟨n, by simp⟩, small⟩

section
variable (hx : OnGrid j a x q) (hy : OnGrid k b y r)
include hx hy

theorem add (room : (a + b) * 2 ^ max j k < 2 ^ 53 := by norm_num)
    (fine : max j k ≤ 1074 := by norm_num) : OnGrid (max j k) (a + b) (x + y) (q + r) := by
  have whole : ∃ n : Int, (q + r) * 2 ^ max j k = n := by
    obtain ⟨m, left⟩ := hx.exists_whole (Nat.le_max_left j k)
    obtain ⟨n, right⟩ := hy.exists_whole (Nat.le_max_right j k)
    exact ⟨m + n, by rw [add_mul, left, right, Int.cast_add]⟩
  have small : |q + r| ≤ a + b := (abs_add_le q r).trans (add_le_add hx.small hy.small)
  exact ⟨hx.denotes.add hy.denotes (isExact_of_whole whole small room fine), whole, small⟩

theorem sub (room : (a + b) * 2 ^ max j k < 2 ^ 53 := by norm_num)
    (fine : max j k ≤ 1074 := by norm_num) : OnGrid (max j k) (a + b) (x - y) (q - r) := by
  have whole : ∃ n : Int, (q - r) * 2 ^ max j k = n := by
    obtain ⟨m, left⟩ := hx.exists_whole (Nat.le_max_left j k)
    obtain ⟨n, right⟩ := hy.exists_whole (Nat.le_max_right j k)
    exact ⟨m - n, by rw [sub_mul, left, right, Int.cast_sub]⟩
  have small : |q - r| ≤ a + b := (abs_sub q r).trans (add_le_add hx.small hy.small)
  exact ⟨hx.denotes.sub hy.denotes (isExact_of_whole whole small room fine), whole, small⟩

theorem mul (room : a * b * 2 ^ (j + k) < 2 ^ 53 := by norm_num)
    (fine : j + k ≤ 1074 := by norm_num) : OnGrid (j + k) (a * b) (x * y) (q * r) := by
  have whole : ∃ n : Int, q * r * 2 ^ (j + k) = n := by
    obtain ⟨m, left⟩ := hx.whole
    obtain ⟨n, right⟩ := hy.whole
    exact ⟨m * n, by rw [pow_add, mul_mul_mul_comm, left, right, Int.cast_mul]⟩
  have small : |q * r| ≤ a * b := by
    rw [abs_mul]
    exact mul_le_mul hx.small hy.small (abs_nonneg r) ((abs_nonneg q).trans hx.small)
  exact ⟨hx.denotes.mul hy.denotes (isExact_of_whole whole small room fine), whole, small⟩

end

theorem div (m : Nat) (hx : OnGrid k a x q) (hy : y.Denotes (2 ^ m))
    (room : a * 2 ^ k < 2 ^ 53 := by norm_num) (fine : k + m ≤ 1074 := by norm_num) :
    OnGrid (k + m) (a / 2 ^ m) (x / y) (q / 2 ^ m) := by
  have power : (0 : ℚ) < 2 ^ m := pow_pos two_pos m
  have whole : ∃ n : Int, q / 2 ^ m * 2 ^ (k + m) = n := by
    obtain ⟨n, same⟩ := hx.whole
    exact ⟨n, by rw [pow_add, ← same]; field_simp⟩
  have small : |q / 2 ^ m| ≤ a / 2 ^ m := by
    rw [abs_div, abs_of_pos power]
    exact div_le_div_of_nonneg_right hx.small power.le
  -- The grid gets finer just as the limit gets smaller, so no bits are added.
  have room' : a / 2 ^ m * 2 ^ (k + m) < 2 ^ 53 := by
    rw [pow_add, mul_comm (2 ^ k), ← mul_assoc, div_mul_cancel₀ a power.ne']
    exact room
  exact ⟨hx.denotes.div hy power.ne' (isExact_of_whole whole small room' fine), whole, small⟩

end OnGrid

end IsoScene.Binary64
