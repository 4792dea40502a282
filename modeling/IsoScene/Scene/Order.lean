import IsoScene.Scene.Basic

/-! # Draw order

Tiles are drawn from back to front: first by the diagonal `y - x`, then by height, then by pixel
layer. Coordinates are compared in the total order of bit patterns, so the order is total
whatever the coordinates are.
-/

namespace IsoScene

namespace Tile

/-- How far in front a tile stands. -/
def diagonal (tile : Tile) : Binary64 := tile.position.y - tile.position.x

/-- Compares two tiles by draw order. -/
def drawOrder (a b : Tile) : Ordering :=
  (compare a.diagonal.key b.diagonal.key).then
    ((compare a.position.z.key b.position.z.key).then
      (compare a.position.p.key b.position.p.key))

/-- The first tile may be drawn before the second. -/
def drawsBefore (a b : Tile) : Bool := (a.drawOrder b).isLE

/-- Sorts tiles by draw order; tiles that compare equal keep their order. -/
def sort (tiles : List Tile) : List Tile := tiles.mergeSort drawsBefore

end Tile

end IsoScene
