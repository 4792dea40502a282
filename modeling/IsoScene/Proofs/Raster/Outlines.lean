import IsoScene.Proofs.Raster.Cells
import IsoScene.Raster.Outline
import Mathlib.Algebra.Order.Ring.Nat
import Mathlib.Data.List.ReduceOption

/-! # Outlines, cell by cell

The kernel takes four times the level of a cell away from the levels around it. Where nothing shows
the cell itself adds nothing, and the edge there is the sum of the alphas around, up to the greatest
byte (`edgeSum_of_hidden`). So the outline of an image stands only where the image does not
(`get?_outlineLayer`).
-/

namespace IsoScene.Raster

/-- The cells above, on the left, on the right and below, as far as there are such cells. -/
def neighbours (image : Image) (x y : Nat) : List Rgba :=
  [image.at? x (y - 1), image.at? (x - 1) y, image.at? (x + 1) y,
    image.at? x (y + 1)].reduceOption

def alphaAround (image : Image) (x y : Nat) : Nat :=
  ((image.neighbours x y).map (·.alpha.toNat)).sum

theorem at?_map {α β : Type} (f : α → β) (r : Raster α) (x y : Int) :
    (r.map f).at? x y = (r.at? x y).map f := by
  unfold at?
  split
  · exact get?_map f r _ _
  · rfl

theorem level_alpha (image : Image) (x y : Int) :
    image.alpha.level x y = (((image.at? x y).map (·.alpha.toNat)).getD 0 : Nat) := by
  rw [level, sample_eq_at?, alpha, at?_map]
  cases image.at? x y <;> rfl

/-- Summing up over the cells that there are is summing up over all, the others counting nothing. -/
theorem sum_reduceOption (weight : Rgba → Nat) (cells : List (Option Rgba)) :
    (cells.reduceOption.map weight).sum = (cells.map fun cell => (cell.map weight).getD 0).sum := by
  induction cells with
  | nil => rfl
  | cons cell cells ih => cases cell <;> simp [ih]

theorem edgeSum_of_hidden {image : Image} {x y : Nat} {cell : Rgba}
    (found : image.get? x y = some cell) (hidden : cell.alpha = 0) :
    image.alpha.edgeSum x y = image.alphaAround x y := by
  -- The cell itself takes nothing away from the levels around it.
  have own : image.alpha.level x y = 0 := by
    rw [level_alpha, at?_ofNat, found, Option.map_some, Option.getD_some, hidden]
    rfl
  rw [edgeSum, own, alphaAround, neighbours, sum_reduceOption]
  simp only [level_alpha, List.map_cons, List.map_nil, List.sum_cons, List.sum_nil]
  omega

theorem toNat_ofNat_strength {strength : Nat} (bound : strength ≤ 255) :
    (UInt8.ofNat strength).toNat = strength :=
  UInt8.toNat_ofNat_of_lt' (Nat.lt_succ_of_le bound)

/-- Each channel is multiplied by the strength, of which 255 stands for the whole. -/
theorem scale_ofNat (color : Rgba) {strength : Nat} (bound : strength ≤ 255) :
    color.scale (UInt8.ofNat strength) =
      color.map fun channel => UInt8.ofNat (channel.toNat * strength / 255) := by
  have each (channel : UInt8) : Rgba.scaleChannel (UInt8.ofNat strength) channel =
      UInt8.ofNat (channel.toNat * strength / 255) := by
    rw [Rgba.scaleChannel, toNat_ofNat_strength bound, Nat.mul_comm]
  rw [Rgba.scale, funext each]

/-- The outline has no cell on which the image shows. -/
theorem get?_outlineLayer (image : Image) (color : Rgba) {x y : Nat} {cell : Rgba}
    (found : image.get? x y = some cell) :
    (image.outlineLayer color).get? x y = some (
      if cell.alpha = 0 then color.scale (UInt8.ofNat (min 255 (image.alphaAround x y)))
      else Rgba.transparent) := by
  obtain ⟨hx, hy⟩ := isSome_get?_iff.mp (Option.isSome_of_eq_some found)
  rw [outlineLayer, get?_ofFn _ hx hy, sample_eq_at?, at?_ofNat, found, Option.getD_some]
  by_cases hidden : cell.alpha = 0
  · have edge : image.alpha.edges.sample x y =
        UInt8.ofNat (min 255 (image.alphaAround x y)) := by
      have hxAlpha : x < image.alpha.width := hx
      have hyAlpha : y < image.alpha.height := hy
      rw [sample_eq_at?, at?_ofNat, edges, get?_ofFn _ hxAlpha hyAlpha, Option.getD_some,
        clampByte, edgeSum_of_hidden found hidden, Int.toNat_natCast, Nat.min_comm]
    simp [Rgba.isVisible, hidden, edge]
  · simp [Rgba.isVisible, hidden]

end IsoScene.Raster
