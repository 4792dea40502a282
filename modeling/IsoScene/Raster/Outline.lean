import IsoScene.Raster.Blend
import IsoScene.Raster.Edge

/-! # Outlines

* `Raster.outlineLayer` — the ring around the visible cells of an image, without the image.
* `Raster.withOutline` — an image on top of its own outline, one cell larger on every side.
-/

namespace IsoScene.Raster

/-- The near-black of outlines and of property text. -/
def outlineColor : Rgba := ⟨8, 8, 8, 255⟩

/-- The outline of the visible cells: each transparent cell holds the colour scaled by the
strength of the edge there. -/
def outlineLayer (image : Image) (color : Rgba) : Image :=
  let strength := image.alpha.edges
  ofFn image.width image.height fun x y =>
    if (image.sample x y).isVisible then Rgba.transparent
    else color.scale (strength.sample x y)

/-- The image, padded by one cell, over its outline. -/
def withOutline (image : Image) (color : Rgba) : Image :=
  let padded := image.pad 1
  (padded.outlineLayer color).blit padded 0 0

end IsoScene.Raster
