import IsoScene.FileSystem.Path
import IsoScene.Tile

/-! # Names of sprites

A sprite belongs to a tile name, a wobble frame and an orientation. Tiles that do not move share
one frame, and tiles that look the same from all sides share one orientation.

* `SpriteKey.ofTile` — the sprite that a tile needs in a wobble frame.
* `spritePath` — the file of a sprite.
-/

namespace IsoScene

structure SpriteKey where
  name : String
  frame : Nat
  orientation : Nat
deriving DecidableEq, Repr

def SpriteKey.ofTile (tile : Tile) (wobble : Nat) : SpriteKey where
  name := tile.name
  frame := if tile.metadata.frameCount ≤ 1 then 0 else wobble % tile.metadata.frameCount
  orientation := if tile.metadata.directional then tile.orientation else 0

/-- The file of a sprite: `<assets>/<sprites>/<name>[_<orientation>]_<frame>.png`, where frames
count from one. -/
def spritePath (assetDirectory spriteDirectory name : String) (orientation : Option Nat)
    (frame : Nat) : List Char :=
  let turn := match orientation with
    | some o => "_" ++ toString o
    | none => ""
  let file := name ++ turn ++ "_" ++ toString (frame + 1) ++ ".png"
  Path.join (Path.join assetDirectory.toList spriteDirectory.toList) file.toList

def SpriteKey.path (key : SpriteKey) (metadata : TileMetadata) (spriteDirectory : String) :
    List Char :=
  spritePath metadata.assetDirectory spriteDirectory key.name
    (if metadata.directional then some key.orientation else none) key.frame

end IsoScene
