import IsoScene.Raster.Basic

/-! # Enlarging

An image is enlarged by a whole factor, each cell becoming a square of equal cells.
-/

namespace IsoScene.Raster

/-- The image enlarged by a factor. The factors zero and one leave it as it is. -/
def enlarge (image : Image) (factor : Nat) : Image :=
  if factor ≤ 1 then image
  else
    ofFn (image.width * factor) (image.height * factor) fun x y =>
      image.sample (x / factor : Nat) (y / factor : Nat)

end IsoScene.Raster
