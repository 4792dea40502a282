import IsoScene.Proofs.Effect.Outlined
import IsoScene.Proofs.Scene.Canvas
import IsoScene.Scene.Frame

/-! # Where the cells of an image land

A tile is projected to the middle of its image. If the image grows by some cells on every side, its
corner recedes by as many, also where half a side is no whole number: the corner is rounded only
after the half has been taken away (`recedes_rat`). So each cell of the image lands on the same cell
of the canvas, with an outline or without (`outlines_keep_place`).
-/

namespace IsoScene

namespace Projection

section
variable {α : Type} [Coordinate α] (projection : Projection α) (position : Position α)
  (groundHeight : Int)

/-- The place on the canvas of a cell of an image that is drawn for a tile. -/
def landing (image : Image) (u v : Nat) : Point :=
  let corner := projection.place position groundHeight image.width image.height
  (corner.1 + u, corner.2 + v)

/-- What an image that is drawn for a tile shows at a place of the canvas. -/
def seen? (image : Image) (p : Point) : Option Rgba :=
  let corner := projection.place position groundHeight image.width image.height
  image.at? (p.1 - corner.1) (p.2 - corner.2)

/-- With `size` more cells on every side the corner is that much farther to the left and to the
top. -/
def Recedes (width height size : Nat) : Prop :=
  projection.place position groundHeight (width + 2 * size) (height + 2 * size) =
    ((projection.place position groundHeight width height).1 - size,
      (projection.place position groundHeight width height).2 - size)

/-- The place where a cell of an image lands shows this cell, whether the image is drawn as it is, on
its outline, or with outlines around it. Odd levels leave a hole where the image has been. -/
structure SeenAlike (image : Image) (level u v : Nat) (c : Rgba) : Prop where
  plain : projection.seen? position groundHeight image
    (projection.landing position groundHeight image u v) = some c
  outlined : ∀ color, projection.seen? position groundHeight (image.withOutline color)
    (projection.landing position groundHeight image u v) =
      some ((image.pad 1).outlined color (u + 1) (v + 1) c)
  surrounded : projection.seen? position groundHeight (image.surround level)
    (projection.landing position groundHeight image u v) = some (
      if c.isVisible then if level % 2 = 0 then c else Rgba.transparent
      else image.dominant.scale (image.strength level (u + level, v + level)))

section
variable {projection position groundHeight}

theorem seen?_landing (image : Image) (u v : Nat) :
    projection.seen? position groundHeight image
      (projection.landing position groundHeight image u v) = image.get? u v := by
  rw [seen?, landing, add_sub_cancel_left, add_sub_cancel_left, Raster.at?_ofNat]

/-- What has more cells on every side has the cells of the image where they have been. -/
theorem landing_of_recedes (image grown : Image) {size : Nat}
    (width : grown.width = image.width + 2 * size) (height : grown.height = image.height + 2 * size)
    (recedes : projection.Recedes position groundHeight image.width image.height size)
    (u v : Nat) :
    projection.landing position groundHeight grown (u + size) (v + size) =
      projection.landing position groundHeight image u v := by
  rw [landing, landing, width, height, recedes]
  simp only [Int.natCast_add, Prod.mk.injEq]
  omega

theorem seenAlike_of_recedes {image : Image} {level u v : Nat} {c : Rgba}
    (found : image.get? u v = some c)
    (one : projection.Recedes position groundHeight image.width image.height 1)
    (many : projection.Recedes position groundHeight image.width image.height level) :
    projection.SeenAlike position groundHeight image level u v c where
  plain := (seen?_landing image u v).trans found
  outlined color := by
    have place := landing_of_recedes image (image.withOutline color)
      (Raster.width_withOutline ..) (Raster.height_withOutline ..) one u v
    rw [← place, seen?_landing, Raster.get?_withOutline, Raster.get?_pad_add found]
    rfl
  surrounded := by
    have place := landing_of_recedes image (image.surround level) rfl rfl many u v
    rw [← place, seen?_landing, Raster.get?_surround_add found]

end

end

/-! ## Rational numbers -/

theorem recedes_rat (projection : Projection ℚ) (position : Position ℚ) (groundHeight : Int)
    (width height size : Nat) : projection.Recedes position groundHeight width height size := by
  have half (side : Nat) : ((side + 2 * size : Nat) : ℚ) / 2 = side / 2 + size := by
    push_cast
    ring
  -- The number of cells is whole, so it does not matter whether it is taken away before rounding.
  have floor {a b : ℚ} (less : b = a - size) : ⌊b⌋ = ⌊a⌋ - size := by
    rw [less, Int.floor_sub_natCast]
  rw [Recedes, place_rat, place_rat, half, half]
  exact Prod.ext (floor (by ring)) (floor (by ring))

/-! ## Patterns -/

structure Moderate (projection : Projection Binary64) (r : Projection ℚ) : Prop where
  sceneWidth : projection.sceneWidth.Moderate r.sceneWidth
  maxDepth : projection.maxDepth.Moderate r.maxDepth

section
variable {projection : Projection Binary64} {r : Projection ℚ} {position : Position Binary64}
  {q : Position ℚ} {groundHeight : Int}

theorem Moderate.place_eq_rat (moderate : projection.Moderate r) (place : position.Moderate q)
    (level : |groundHeight| ≤ 2 ^ 31) {width height : Nat} (narrow : width < 2 ^ 32)
    (low : height < 2 ^ 32) :
    projection.place position groundHeight width height =
      r.place q groundHeight width height := by
  have zero : (Binary64.ofInt 0).Moderate ((0 : Int) : ℚ) :=
    (Binary64.OnGrid.ofInt (a := 0) (by norm_num)).mono (by decide) (by norm_num)
  -- A projection is that of an envelope, whose other bounds do not matter.
  let e : Envelope Binary64 :=
    ⟨projection.sceneWidth, .ofInt 0, .ofInt 0, projection.maxDepth, .ofInt 0⟩
  let bounds : Envelope ℚ := ⟨r.sceneWidth, (0 : Int), (0 : Int), r.maxDepth, (0 : Int)⟩
  have envelope : e.Moderate bounds := ⟨moderate.sceneWidth, zero, zero, moderate.maxDepth⟩
  exact envelope.place_eq place level narrow low

theorem Moderate.recedes (moderate : projection.Moderate r) (place : position.Moderate q)
    (level : |groundHeight| ≤ 2 ^ 31) {width height size : Nat}
    (narrow : width + 2 * size < 2 ^ 32) (low : height + 2 * size < 2 ^ 32) :
    projection.Recedes position groundHeight width height size := by
  rw [Recedes, moderate.place_eq_rat place level narrow low,
    moderate.place_eq_rat place level (by omega) (by omega)]
  exact recedes_rat r q groundHeight width height size

end

theorem get?_paint (projection : Projection Binary64) (layer : Image) (tile : Tile) (image : Image)
    (i j : Nat) : (paint projection layer tile image).get? i j = (layer.get? i j).map
      (·.under (projection.seen? tile.position tile.metadata.groundHeight image (i, j))) :=
  Raster.get?_blit ..

/-- An image with more cells on every side is drawn that much farther to the left and to the top. So a
cell lands on the same place of the canvas whether its image is drawn as it is, on its outline, or
with outlines of any level around it. This is so in rational numbers, with which `Binary64` agrees on
moderate quarters, and what is painted is what is seen at a place. -/
theorem outlines_keep_place :
    (∀ (projection : Projection ℚ) (position : Position ℚ) (groundHeight : Int)
      (width height size : Nat), projection.Recedes position groundHeight width height size) ∧
    (∀ (projection : Projection ℚ) (position : Position ℚ) (groundHeight : Int) (image : Image)
      (level u v : Nat) (c : Rgba), image.get? u v = some c →
      projection.SeenAlike position groundHeight image level u v c) ∧
    (∀ (projection : Projection Binary64) (r : Projection ℚ) (position : Position Binary64)
      (q : Position ℚ) (groundHeight : Int), projection.Moderate r → position.Moderate q →
      |groundHeight| ≤ 2 ^ 31 →
      (∀ width height : Nat, width < 2 ^ 32 → height < 2 ^ 32 →
        projection.place position groundHeight width height =
          r.place q groundHeight width height) ∧
      (∀ width height size : Nat, width + 2 * size < 2 ^ 32 → height + 2 * size < 2 ^ 32 →
        projection.Recedes position groundHeight width height size) ∧
      ∀ (image : Image) (level u v : Nat) (c : Rgba),
        image.width + 2 * max level 1 < 2 ^ 32 → image.height + 2 * max level 1 < 2 ^ 32 →
        image.get? u v = some c → projection.SeenAlike position groundHeight image level u v c) ∧
    ∀ (projection : Projection Binary64) (layer : Image) (tile : Tile) (image : Image) (i j : Nat),
      (paint projection layer tile image).get? i j = (layer.get? i j).map
        (·.under (projection.seen? tile.position tile.metadata.groundHeight image (i, j))) := by
  refine ⟨recedes_rat, ?_, ?_, get?_paint⟩
  · intro projection position groundHeight image level u v c found
    exact seenAlike_of_recedes found (recedes_rat ..) (recedes_rat ..)
  · intro projection r position q groundHeight moderate place lift
    refine ⟨?_, ?_, ?_⟩
    · exact fun width height narrow low => moderate.place_eq_rat place lift narrow low
    · exact fun width height size narrow low => moderate.recedes place lift narrow low
    · intro image level u v c narrow low found
      exact seenAlike_of_recedes found (moderate.recedes place lift (by omega) (by omega))
        (moderate.recedes place lift (by omega) (by omega))

/-- An image of odd size, whose corner falls between two cells on both axes. -/
theorem outlines_keep_place_quarters :
    let r : Projection ℚ := ⟨2, (-1 : Int) / 2 ^ 2⟩
    let q : Position ℚ := ⟨(-1 : Int) / 2 ^ 2, (11 : Int) / 2 ^ 2, (3 : Int) / 2 ^ 2, 0⟩
    let quarters (n : Int) : Binary64 := .ofInt n / .ofInt 4
    let projection : Projection Binary64 := ⟨.ofInt 2, quarters (-1)⟩
    let tile : Tile := .new "baba" ⟨quarters (-1), quarters 11, quarters 3, .zero false⟩ []
      { TileMetadata.text with groundHeight := 2 }
    let red : Rgba := ⟨200, 0, 0, 255⟩
    let image : Image := Raster.filled 3 3 red
    let layer : Image := Raster.filled 60 60 Rgba.transparent
    projection.Moderate r ∧ tile.position.Moderate q ∧
      r.place q 2 3 3 = (52, 40) ∧ r.place q 2 (3 + 2 * 2) (3 + 2 * 2) = (50, 38) ∧
      projection.place tile.position 2 3 3 = (52, 40) ∧
      projection.place tile.position 2 (3 + 2 * 2) (3 + 2 * 2) = (50, 38) ∧
      r.SeenAlike q 2 image 2 1 1 red ∧ projection.SeenAlike tile.position 2 image 2 1 1 red ∧
      (paint projection layer tile image).get? 53 41 = some red ∧
      (paint projection layer tile (image.surround 2)).get? 53 41 = some red := by
  intro r q quarters projection tile red image layer
  obtain ⟨recedes, seen, realised, painted⟩ := outlines_keep_place
  have two : (Binary64.ofInt 2).Moderate (2 : ℚ) :=
    (Binary64.OnGrid.ofInt (n := 2) (a := 2) (by norm_num)).mono (by decide) (by norm_num)
  have four : (Binary64.ofInt 4).Denotes (2 ^ 2 : ℚ) := by
    have whole := Binary64.ofInt_denotes (n := 4) (by decide)
    norm_num at whole ⊢
    exact whole
  have quarter {n : Int} (small : |(n : ℚ)| ≤ 11) : (quarters n).Moderate (n / 2 ^ 2) :=
    ((Binary64.OnGrid.ofInt small).div 2 four).mono (by decide) (by norm_num)
  have moderate : projection.Moderate r := ⟨two, quarter (by norm_num)⟩
  have place : tile.position.Moderate q :=
    ⟨quarter (by norm_num), quarter (by norm_num), quarter (by norm_num)⟩
  have found : image.get? 1 1 = some red := rfl
  have here : r.place q 2 3 3 = (52, 40) := by decide +kernel
  obtain ⟨rational, recedesToo, seenToo⟩ := realised projection r tile.position q 2 moderate place
    (by decide)
  have same : projection.place tile.position 2 3 3 = (52, 40) :=
    (rational 3 3 (by decide) (by decide)).trans here
  have alike := seenToo image 2 1 1 red (by decide) (by decide) found
  have landing : projection.landing tile.position 2 image 1 1 = (53, 41) := by
    show ((projection.place tile.position 2 3 3).1 + 1,
      (projection.place tile.position 2 3 3).2 + 1) = ((53, 41) : Point)
    rw [same]
    rfl
  have visible : red.isVisible = true := rfl
  have onto : Rgba.transparent.under (some red) = red := Rgba.under_of_opaque rfl
  have blank : layer.get? 53 41 = some Rgba.transparent := Raster.get?_filled _ _ _ (by decide)
    (by decide)
  refine ⟨moderate, place, here, ?_, same, ?_, seen r q 2 image 2 1 1 red found, alike, ?_, ?_⟩
  · rw [recedes r q 2 3 3 2, here]
    rfl
  · rw [recedesToo 3 3 2 (by decide) (by decide), same]
    rfl
  · have shown := alike.plain
    rw [landing] at shown
    rw [painted, blank]
    exact congrArg some ((congrArg _ shown).trans onto)
  · have shown := alike.surrounded
    rw [landing, if_pos visible] at shown
    rw [painted, blank]
    exact congrArg some ((congrArg _ shown).trans onto)

end Projection

end IsoScene
