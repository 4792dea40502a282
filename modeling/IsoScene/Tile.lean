import IsoScene.Binary64.Basic
import IsoScene.Variant

/-! # Tiles

A tile is one placed element of a scene: where it stands, which way it faces, what its variants
ask for, and what the catalog says about its name.
-/

namespace IsoScene

/-- A place in a scene: the axes `x` and `y` of the ground, the height `z`, and the pixel layer
`p` that orders tiles at one height. -/
structure Position (α : Type) where
  x : α
  y : α
  z : α
  p : α
deriving DecidableEq, Repr, Inhabited

/-- What the catalog says about a tile name. -/
structure TileMetadata where
  /-- Sprites are stored for each orientation. -/
  directional : Bool
  /-- How far raised ground lifts the tile, in quarter tiles. -/
  groundHeight : Int
  /-- The number of wobble frames; one for a tile that does not move. -/
  frameCount : Nat
  /-- The tile gets a dark outline of its own. -/
  unit : Bool
  /-- The directory in which the sprite directory lies. -/
  assetDirectory : String
deriving DecidableEq, Repr, Inhabited

/-- Metadata of a text tile that the catalog does not list. -/
def TileMetadata.text : TileMetadata := ⟨false, 0, 1, false, ""⟩

structure Tile where
  name : String
  position : Position Binary64
  /-- Down, right, up and left are 0, 1, 2 and 3. -/
  orientation : Nat
  /-- The variants that the geometric pass left. -/
  variants : List Variant
  /-- The working copy that the pixel pass of a frame consumes. -/
  running : List Variant
  metadata : TileMetadata
deriving DecidableEq, Repr, Inhabited

namespace Tile

/-- A tile that faces down and has not been rendered. -/
def new (name : String) (position : Position Binary64) (variants : List Variant)
    (metadata : TileMetadata) : Tile :=
  { name, position, orientation := 0, variants, running := [], metadata }

/-- The word that a text tile shows; other tiles show none. -/
def word? (tile : Tile) : Option (List Char) :=
  let start := "text_".toList
  if start.isPrefixOf tile.name.toList then some (tile.name.toList.drop start.length) else none

def resetRunning (tile : Tile) : Tile := { tile with running := tile.variants }

end Tile

end IsoScene
