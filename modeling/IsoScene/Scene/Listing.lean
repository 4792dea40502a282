import IsoScene.Datum
import IsoScene.Scene.Basic

/-! # Scenes as structured data

The listing of a scene: its envelope, and for each tile where it stands, what its variants are, and
what the catalog says about it.
-/

namespace IsoScene

def Variant.datum (v : Variant) : Datum :=
  .table [("name", .text v.name), ("arguments", .list (v.arguments.map .text))]

def TileMetadata.datum (m : TileMetadata) : Datum :=
  .table [("directional", .boolean m.directional), ("ground_height", .integer m.groundHeight),
    ("frame_count", .integer m.frameCount), ("unit", .boolean m.unit),
    ("asset_directory", .text m.assetDirectory)]

def Tile.datum (tile : Tile) : Datum :=
  .table [("name", .text tile.name), ("x", .real tile.position.x), ("y", .real tile.position.y),
    ("z", .real tile.position.z), ("p", .real tile.position.p),
    ("orientation", .integer tile.orientation),
    ("variants", .list (tile.variants.map Variant.datum)),
    ("metadata", tile.metadata.datum)]

def Scene.datum (scene : Scene) : Datum :=
  .table [("width", .real scene.bounds.width), ("height", .real scene.bounds.height),
    ("min_depth", .real scene.bounds.minDepth), ("max_depth", .real scene.bounds.maxDepth),
    ("pixel_depth", .real scene.bounds.pixelDepth), ("tiles", .list (scene.tiles.map Tile.datum))]

end IsoScene
