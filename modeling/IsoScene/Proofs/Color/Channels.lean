import IsoScene.Effect.Apply
import Mathlib.Algebra.GroupWithZero.Nat

/-! # Stretching and averaging channels

A channel is stretched by a product and a quotient. As long as the value is not above the one that
becomes 255, the quotient is a byte. A step of the value is at least one step of the result, so no
value falls, and what is less becomes less (`stretchChannel_lt`).

Stretching works with words of thirty-two bits and averaging with words of sixteen. Both have room
for all their steps (`stretchChannel_eq_word`, `gray_eq_word`).
-/

namespace IsoScene

def Rgba.black : Rgba := ⟨0, 0, 0, 255⟩

def Rgba.white : Rgba := ⟨255, 255, 255, 255⟩

inductive Channel where
  | red
  | green
  | blue
  | alpha
deriving DecidableEq

namespace Rgba

def channel (c : Rgba) : Channel → UInt8
  | .red => c.red
  | .green => c.green
  | .blue => c.blue
  | .alpha => c.alpha

theorem ext_channel {c d : Rgba} (same : ∀ k, c.channel k = d.channel k) : c = d := by
  cases c
  cases d
  rw [Rgba.mk.injEq]
  exact ⟨same .red, same .green, same .blue, same .alpha⟩

theorem channel_zipWith (f : UInt8 → UInt8 → UInt8) (c d : Rgba) (k : Channel) :
    (zipWith f c d).channel k = f (c.channel k) (d.channel k) := by
  cases k <;> rfl

end Rgba

namespace Raster

theorem toNat_pos {most : UInt8} (some : most ≠ 0) : 0 < most.toNat :=
  Nat.pos_of_ne_zero fun none => some (UInt8.toNat_inj.mp none)

theorem le_full (value : UInt8) : value ≤ 255 :=
  UInt8.le_iff_toNat_le.mpr (Nat.le_of_lt_succ value.toNat_lt)

/-! ## Stretching -/

section
variable {most value other : UInt8}

theorem stretched_lt (below : value ≤ most) : value.toNat * 255 / most.toNat < 2 ^ 8 := by
  refine Nat.lt_succ_of_le (Nat.div_le_of_le_mul ?_)
  exact Nat.mul_le_mul_right 255 (UInt8.le_iff_toNat_le.mp below)

theorem toNat_stretchChannel (some : most ≠ 0) (below : value ≤ most) :
    (stretchChannel most value).toNat = value.toNat * 255 / most.toNat := by
  rw [stretchChannel, if_neg some, UInt8.toNat_ofNat', Nat.mod_eq_of_lt (stretched_lt below)]

theorem stretchChannel_zero (value : UInt8) : stretchChannel 0 value = value := rfl

theorem stretchChannel_full (value : UInt8) : stretchChannel 255 value = value := by
  rw [stretchChannel, if_neg (by decide)]
  exact (congrArg UInt8.ofNat (Nat.mul_div_cancel _ (by decide))).trans UInt8.ofNat_toNat

theorem stretchChannel_self (some : most ≠ 0) : stretchChannel most most = 255 := by
  rw [← UInt8.toNat_inj, toNat_stretchChannel some (UInt8.le_refl most)]
  exact Nat.mul_div_cancel_left _ (toNat_pos some)

theorem le_stretchChannel (below : value ≤ most) : value ≤ stretchChannel most value := by
  by_cases none : most = 0
  · rw [none, stretchChannel_zero]
    exact UInt8.le_refl value
  · rw [UInt8.le_iff_toNat_le, toNat_stretchChannel none below,
      Nat.le_div_iff_mul_le (toNat_pos none)]
    exact Nat.mul_le_mul_left _ (Nat.le_of_lt_succ most.toNat_lt)

theorem stretchChannel_lt (less : value < other) (below : other ≤ most) :
    stretchChannel most value < stretchChannel most other := by
  by_cases none : most = 0
  · rwa [none, stretchChannel_zero, stretchChannel_zero]
  · -- One step of the value adds 255 to the product, and the divisor is not greater.
    rw [UInt8.lt_iff_toNat_lt] at less
    have step : value.toNat * 255 + most.toNat ≤ other.toNat * 255 := by
      have byte := most.toNat_lt
      omega
    rw [UInt8.lt_iff_toNat_lt, toNat_stretchChannel none below,
      toNat_stretchChannel none (UInt8.le_trans (UInt8.le_of_lt less) below)]
    calc value.toNat * 255 / most.toNat
        < value.toNat * 255 / most.toNat + 1 := Nat.lt_succ_self _
      _ = (value.toNat * 255 + most.toNat) / most.toNat :=
        (Nat.add_div_right _ (toNat_pos none)).symm
      _ ≤ other.toNat * 255 / most.toNat := Nat.div_le_div_right step

theorem stretchChannel_le_iff (below : value ≤ most) (otherBelow : other ≤ most) :
    stretchChannel most value ≤ stretchChannel most other ↔ value ≤ other := by
  constructor
  · intro order
    refine UInt8.not_lt.mp fun greater => ?_
    exact UInt8.not_le.mpr (stretchChannel_lt greater below) order
  · intro order
    obtain less | rfl := UInt8.lt_or_eq_of_le order
    · exact UInt8.le_of_lt (stretchChannel_lt less otherBelow)
    · exact UInt8.le_refl _

theorem stretchChannel_eq_word (below : value ≤ most) :
    stretchChannel most value =
      if most = 0 then value else (value.toUInt32 * 255 / most.toUInt32).toUInt8 := by
  split
  · next none => rw [none, stretchChannel_zero]
  · next some =>
    have room : value.toNat * 255 < 2 ^ 32 := by
      have byte := value.toNat_lt
      omega
    have product : (value.toUInt32 * 255).toNat = value.toNat * 255 := by
      rw [UInt32.toNat_mul, UInt8.toNat_toUInt32]
      exact Nat.mod_eq_of_lt room
    rw [← UInt8.toNat_inj, toNat_stretchChannel some below, UInt32.toNat_toUInt8,
      UInt32.toNat_div, product, UInt8.toNat_toUInt32, Nat.mod_eq_of_lt (stretched_lt below)]

end

/-! ## Averaging -/

theorem brightness_lt (c : Rgba) : brightness c < 3 * 2 ^ 8 := by
  have red := c.red.toNat_lt
  have green := c.green.toNat_lt
  have blue := c.blue.toNat_lt
  rw [brightness]
  omega

theorem toNat_ofNat_average (c : Rgba) :
    (UInt8.ofNat (brightness c / 3)).toNat = brightness c / 3 := by
  have bound := brightness_lt c
  rw [UInt8.toNat_ofNat', Nat.mod_eq_of_lt (by omega)]

theorem brightness_gray (c : Rgba) : brightness (gray c) = 3 * (brightness c / 3) := by
  rw [brightness, gray]
  simp only [toNat_ofNat_average]
  omega

theorem gray_gray (c : Rgba) : gray (gray c) = gray c := by
  have average : brightness (gray c) / 3 = brightness c / 3 := by
    rw [brightness_gray, Nat.mul_div_cancel_left _ (by decide)]
  rw [gray, average]
  rfl

theorem brightness_eq_word (c : Rgba) :
    brightness c = (c.red.toUInt32 + c.green.toUInt32 + c.blue.toUInt32).toNat := by
  have bound := brightness_lt c
  simp only [UInt32.toNat_add, UInt8.toNat_toUInt32]
  rw [brightness] at bound ⊢
  omega

theorem gray_eq_word (c : Rgba) :
    let average := ((c.red.toUInt16 + c.green.toUInt16 + c.blue.toUInt16) / 3).toUInt8
    gray c = ⟨average, average, average, c.alpha⟩ := by
  intro average
  have same : UInt8.ofNat (brightness c / 3) = average := by
    have bound := brightness_lt c
    have sum : (c.red.toUInt16 + c.green.toUInt16 + c.blue.toUInt16).toNat = brightness c := by
      simp only [UInt16.toNat_add, UInt8.toNat_toUInt16]
      rw [brightness] at bound ⊢
      omega
    rw [← UInt8.toNat_inj, toNat_ofNat_average, UInt16.toNat_toUInt8, UInt16.toNat_div, sum]
    exact (Nat.mod_eq_of_lt (by omega)).symm
  rw [gray, same]

end Raster

end IsoScene
