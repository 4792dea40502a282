import IsoScene.Proofs.Raster.Drawing
import IsoScene.Scene.Projection

/-! # Clipped drawing

An image may be drawn anywhere, also where none of it lies on the canvas. What falls outside is
clipped: a cell of the canvas changes only if a visible cell of the image lies on it, and then it is
that cell over the old one (`blit_clipped`).

Places are 64-bit integers, and the least and the greatest of them stand for all that is farther
away. The loops add the number of a cell to the first place. They end as soon as they are beyond the
canvas, so a sum is at most the limit, unless it is the first place itself
(`place_of_mem_reached`). This keeps all sums in the range.
-/

namespace IsoScene

/-- The number is in the range of 64-bit integers. -/
def IsInt64 (n : Int) : Prop := Text.minInt64 ≤ n ∧ n ≤ Text.maxInt64

theorem Binary64.isInt64_floor64 (x : Binary64) : IsInt64 x.floor64 := by
  have ordered : Text.minInt64 ≤ Text.maxInt64 := by decide
  rw [floor64]
  split
  · exact ⟨by decide, by decide⟩
  · split
    · exact ⟨Int.le_refl _, ordered⟩
    · exact ⟨ordered, Int.le_refl _⟩
  · exact ⟨by omega, by omega⟩

theorem Projection.isInt64_place (projection : Projection Binary64) (position : Position Binary64)
    (groundHeight : Int) (width height : Nat) :
    IsInt64 (projection.place position groundHeight width height).1 ∧
      IsInt64 (projection.place position groundHeight width height).2 :=
  ⟨Binary64.isInt64_floor64 _, Binary64.isInt64_floor64 _⟩

namespace Raster

section
variable {origin : Int} {limit : Nat} {cell : Nat × Int}

/-- A place that a loop looks at is the sum of the first place and the number of the cell. It is not
beyond the limit, unless the loop has begun there. -/
theorem place_of_mem_reached {i remaining : Nat}
    (member : cell ∈ reached origin limit i remaining) :
    cell.2 = origin + cell.1 ∧ origin + i ≤ cell.2 ∧ cell.2 ≤ max (origin + i) limit := by
  induction remaining generalizing i with
  | zero => cases member
  | succ remaining ih =>
    rw [reached] at member
    by_cases below : origin + i < limit
    · rw [if_pos below] at member
      rcases List.mem_cons.mp member with rfl | later
      · exact ⟨rfl, Int.le_refl _, Int.le_max_left ..⟩
      · obtain ⟨sum, least, most⟩ := ih later
        exact ⟨sum, by omega, by omega⟩
    · -- This is the first place beyond the canvas, and the last one that the loop looks at.
      rw [if_neg below] at member
      obtain rfl := List.mem_singleton.mp member
      exact ⟨rfl, Int.le_refl _, Int.le_max_left ..⟩

theorem isInt64_of_mem_reached {count : Nat} (start : IsInt64 origin)
    (side : limit ≤ Text.maxNat32) (member : cell ∈ reached origin limit 0 count) :
    cell.2 = origin + cell.1 ∧ IsInt64 cell.2 := by
  obtain ⟨sum, least, most⟩ := place_of_mem_reached member
  simp only [IsInt64, Text.maxNat32, Text.minInt64, Text.maxInt64] at start side ⊢
  exact ⟨sum, by omega, by omega⟩

end

/-- Drawing keeps the size of the canvas. A cell on which a visible cell of the image lies holds that
cell over the old one, and every other cell stays as it is. All places that the loops over the
columns and the rows look at are 64-bit integers if the image is drawn at 64-bit integers, which it
is where a projection places it. -/
theorem blit_clipped (canvas sprite : Image) (x y : Int) :
    (canvas.blit sprite x y).width = canvas.width ∧
      (canvas.blit sprite x y).height = canvas.height ∧
      (∀ (i j : Nat) (dst src : Rgba), canvas.get? i j = some dst →
        sprite.at? (i - x) (j - y) = some src → src.isVisible →
          (canvas.blit sprite x y).get? i j = some (src.onto dst)) ∧
      (∀ i j : Nat, (∀ src, sprite.at? (i - x) (j - y) = some src → src.isVisible = false) →
        (canvas.blit sprite x y).get? i j = canvas.get? i j) ∧
      (IsInt64 x → canvas.width ≤ Text.maxNat32 →
        ∀ cell ∈ reached x canvas.width 0 sprite.width,
          cell.2 = x + cell.1 ∧ IsInt64 cell.2) ∧
      (IsInt64 y → canvas.height ≤ Text.maxNat32 →
        ∀ cell ∈ reached y canvas.height 0 sprite.height,
          cell.2 = y + cell.1 ∧ IsInt64 cell.2) ∧
      ∀ (projection : Projection Binary64) (position : Position Binary64) (groundHeight : Int),
        let place := projection.place position groundHeight sprite.width sprite.height
        IsInt64 place.1 ∧ IsInt64 place.2 := by
  refine ⟨width_blit .., height_blit .., ?_, ?_, ?_, ?_, ?_⟩
  · intro i j dst src found lies visible
    rw [get?_blit, found, lies, Option.map_some, Rgba.under, if_pos visible]
  · intro i j hidden
    have unchanged (dst : Rgba) : dst.under (sprite.at? (i - x) (j - y)) = dst := by
      cases lies : sprite.at? (i - x) (j - y) with
      | none => rfl
      | some src =>
        rw [Rgba.under, hidden src lies]
        rfl
    rw [get?_blit, funext unchanged]
    exact Option.map_id'
  · exact fun start side cell member => isInt64_of_mem_reached start side member
  · exact fun start side cell member => isInt64_of_mem_reached start side member
  · exact fun projection position groundHeight => projection.isInt64_place ..

/-- An image that is drawn above the canvas and to the left of it shows its last cell only. Drawn at
an infinite distance it shows nothing, and the loop over its columns ends at the first place. -/
theorem blit_clipped_extremes :
    let canvas : Image := filled 2 2 Rgba.transparent
    let sprite : Image := ofFn 3 3 fun x y => ⟨.ofNat x, .ofNat y, 9, 255⟩
    let away : Position Binary64 := ⟨.infinity false, .zero false, .zero false, .zero false⟩
    let place := Envelope.none.projection.place away 0 sprite.width sprite.height
    (canvas.blit sprite (-2) (-2)).get? 0 0 = some ⟨2, 2, 9, 255⟩ ∧
      (canvas.blit sprite (-2) (-2)).get? 1 0 = some Rgba.transparent ∧
      place = (Text.maxInt64, Text.minInt64) ∧
      (canvas.blit sprite place.1 place.2).get? 0 0 = some Rgba.transparent ∧
      reached place.1 canvas.width 0 sprite.width = [(0, place.1)] ∧
      (∀ cell ∈ reached place.1 canvas.width 0 sprite.width, IsInt64 cell.2) ∧
      ∀ cell ∈ reached place.2 canvas.height 0 sprite.height, IsInt64 cell.2 := by
  intro canvas sprite away place
  obtain ⟨-, -, shows, keeps, -⟩ := blit_clipped canvas sprite (-2) (-2)
  obtain ⟨-, -, -, keepsAway, columns, rows, places⟩ := blit_clipped canvas sprite place.1 place.2
  have farthest : place = (Text.maxInt64, Text.minInt64) := by decide +kernel
  have ranges := places Envelope.none.projection away 0
  refine ⟨?_, ?_, farthest, ?_, ?_, ?_, ?_⟩
  · exact (shows 0 0 Rgba.transparent ⟨2, 2, 9, 255⟩ rfl rfl rfl).trans
      (congrArg some (Rgba.onto_of_opaque rfl _))
  · exact keeps 1 0 fun src lies => by cases lies
  · refine keepsAway 0 0 fun src lies => ?_
    rw [farthest] at lies
    cases lies
  · rw [farthest]
    rfl
  · exact fun cell member => (columns ranges.1 (by decide) cell member).2
  · exact fun cell member => (rows ranges.2 (by decide) cell member).2

end Raster

end IsoScene
