import IsoScene.Proofs.Effect.Surround
import IsoScene.Proofs.Raster.Drawing
import IsoScene.Proofs.Raster.Outlines

/-! # An image on its own outline

An outline stands only where the image does not show. So when the image is drawn over it, each cell
is drawn once: where the image shows, on nothing, and elsewhere not at all (`get?_withOutline`).

An outline of level one is the same outline in the dominant colour, without the image
(`surround_one`). In both, a channel of the colour is multiplied by the strength of the edge, and
sixteen bits have room for the product (`toNat_mul_lt`).
-/

namespace IsoScene

/-! ## Room for the products -/

namespace Rgba

theorem toNat_mul_lt (a b : UInt8) : a.toNat * b.toNat < 2 ^ 16 :=
  calc a.toNat * b.toNat < 2 ^ 8 * 2 ^ 8 := Nat.mul_lt_mul'' a.toNat_lt b.toNat_lt
    _ = 2 ^ 16 := by decide

/-- Numbers of sixteen bits do not wrap around here, and the quotient is a byte. -/
theorem scaleChannel_eq (a b : UInt8) :
    scaleChannel a b = (a.toUInt16 * b.toUInt16 / 255).toUInt8 := by
  have product : (a.toUInt16 * b.toUInt16).toNat = a.toNat * b.toNat := by
    rw [UInt16.toNat_mul, UInt8.toNat_toUInt16, UInt8.toNat_toUInt16]
    exact Nat.mod_eq_of_lt (toNat_mul_lt a b)
  rw [← UInt8.toNat_inj, scaleChannel, UInt16.toNat_toUInt8, UInt16.toNat_div, product]
  exact UInt8.toNat_ofNat'

end Rgba

namespace Raster

/-! ## The image over its outline -/

/-- What a cell of an image shows on the outline of the image. -/
def outlined (image : Image) (color : Rgba) (x y : Nat) (cell : Rgba) : Rgba :=
  if cell.alpha = 255 then cell
  else if cell.alpha ≠ 0 then cell.onto Rgba.transparent
  else
    let strength := min 255 (image.alphaAround x y)
    color.map fun channel => UInt8.ofNat (channel.toNat * strength / 255)

theorem get?_outlineLayer_blit (image : Image) (color : Rgba) (x y : Nat) :
    ((image.outlineLayer color).blit image 0 0).get? x y =
      (image.get? x y).map (image.outlined color x y) := by
  rw [get?_blit, Int.sub_zero, Int.sub_zero, at?_ofNat]
  cases found : image.get? x y with
  | none =>
    have outside := isSome_get?_iff.not.mp (Option.not_isSome_iff_eq_none.mpr found)
    have none : (image.outlineLayer color).get? x y = none := get?_eq_none (by
      simp only [outlineLayer, width_ofFn, height_ofFn]
      omega)
    rw [none]
    rfl
  | some cell =>
    rw [get?_outlineLayer image color found, Option.map_some, Option.map_some]
    refine congrArg some ?_
    by_cases hidden : cell.alpha = 0
    · -- Nothing is drawn on the outline.
      have opposite : cell.alpha ≠ 255 := by rw [hidden]; decide
      have strong : min 255 (image.alphaAround x y) ≤ 255 := Nat.min_le_left ..
      rw [if_pos hidden, scale_ofNat color strong, outlined, if_neg opposite,
        if_neg (not_not_intro hidden)]
      simp [Rgba.under, Rgba.isVisible, hidden]
    · -- There is no outline under the cell.
      have visible : cell.isVisible = true := by simp [Rgba.isVisible, hidden]
      rw [if_neg hidden, Rgba.under, if_pos visible, outlined, if_pos hidden]
      split
      · next full => exact Rgba.onto_of_opaque full _
      · rfl

theorem get?_withOutline (image : Image) (color : Rgba) (x y : Nat) :
    (image.withOutline color).get? x y =
      ((image.pad 1).get? x y).map ((image.pad 1).outlined color x y) :=
  get?_outlineLayer_blit (image.pad 1) color x y

@[simp] theorem width_withOutline (image : Image) (color : Rgba) :
    (image.withOutline color).width = image.width + 2 :=
  width_blit ..

@[simp] theorem height_withOutline (image : Image) (color : Rgba) :
    (image.withOutline color).height = image.height + 2 :=
  height_blit ..

/-! ## The outline of level one -/

/-- One pass of the kernel gives the outline, and an odd level leaves out the image. -/
theorem surround_one (image : Image) :
    image.surround 1 = (image.pad 1).outlineLayer image.dominant := by
  rw [surround, outlineLayer]
  refine congrArg (ofFn _ _) (funext₂ fun x y => ?_)
  rw [sample_eq_at?, sample_eq_at?, at?_ofNat, at?_ofNat]
  rfl

/-- On its outline an image has one cell more on every side. Its opaque cells stay what they are, its
translucent cells are drawn on nothing, and elsewhere the colour is scaled by the strength of the
edge. Without the image, and in its dominant colour, this is the outline of level one. Sixteen bits
have room for all products. -/
theorem outlines_agree (image : Image) (color : Rgba) :
    (image.withOutline color).width = image.width + 2 ∧
      (image.withOutline color).height = image.height + 2 ∧
      (∀ x y cell, image.get? x y = some cell →
        (image.pad 1).get? (x + 1) (y + 1) = some cell) ∧
      (∀ x y : Nat, (image.withOutline color).get? x y =
        ((image.pad 1).get? x y).map ((image.pad 1).outlined color x y)) ∧
      image.surround 1 = (image.pad 1).outlineLayer image.dominant ∧
      (image.shown.Nonempty → image.IsDominant image.dominant) ∧
      ∀ strength channel : UInt8, strength.toNat * channel.toNat < 2 ^ 16 ∧
        Rgba.scaleChannel strength channel =
          (strength.toUInt16 * channel.toUInt16 / 255).toUInt8 := by
  refine ⟨width_withOutline .., height_withOutline .., fun _ _ _ found => get?_pad_add found 1,
    get?_withOutline image color, surround_one image, ?_, ?_⟩
  · exact fun some => isDominant_dominant (visible_ne_nil_of_shown some)
  · exact fun strength channel =>
      ⟨Rgba.toNat_mul_lt strength channel, Rgba.scaleChannel_eq strength channel⟩

/-- An opaque cell beside a translucent one. Around the latter the outline is translucent, too. -/
theorem outlines_agree_translucent :
    let full : Rgba := ⟨255, 255, 0, 255⟩
    let thin : Rgba := ⟨200, 100, 0, 128⟩
    let image : Image := ofFn 2 1 fun x _ => if x = 0 then full else thin
    (image.withOutline outlineColor).width = 4 ∧ (image.pad 1).get? 1 1 = some full ∧
      (image.withOutline outlineColor).get? 1 1 = some full ∧
      (image.withOutline outlineColor).get? 2 1 = some thin ∧
      (image.withOutline outlineColor).get? 1 0 = some outlineColor ∧
      (image.withOutline outlineColor).get? 3 1 = some ⟨4, 4, 4, 128⟩ ∧
      (image.withOutline outlineColor).get? 0 0 = some Rgba.transparent ∧
      image.IsDominant image.dominant ∧
      image.surround 1 = (image.pad 1).outlineLayer image.dominant := by
  intro full thin image
  obtain ⟨width, -, middle, cells, levelOne, dominant, -⟩ := outlines_agree image outlineColor
  have lit : ((0, 0) : Point) ∈ image.shown := rfl
  refine ⟨width, middle 0 0 full rfl, ?_, ?_, ?_, ?_, ?_, dominant ⟨_, lit⟩, levelOne⟩
  · rw [cells 1 1]
    decide +kernel
  · rw [cells 2 1]
    decide +kernel
  · rw [cells 1 0]
    decide +kernel
  · rw [cells 3 1]
    decide +kernel
  · rw [cells 0 0]
    decide +kernel

end Raster

end IsoScene
