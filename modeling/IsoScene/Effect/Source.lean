import IsoScene.Error
import IsoScene.Raster.Basic
import IsoScene.Tile

/-! # Where bitmaps come from

Rendering asks for bitmaps and does not know how they are kept. A request may fail, and it may
change the state of the source, for instance fill a cache; the change stays when the request
fails.

* `Fetch` — requests against a source with state `σ`.
* `Assets` — the two bitmaps that pixel effects share.
* `SpriteSource` — these and the sprites of tiles.
-/

namespace IsoScene

/-- A request against a source with state `σ`. -/
abbrev Fetch (σ α : Type) := ExceptT RenderError (StateM σ) α

namespace Fetch

variable {σ α : Type}

def answer (request : Fetch σ α) (state : σ) : Except RenderError α × σ :=
  (ExceptT.run request).run state

def ofAnswer (f : σ → Except RenderError α × σ) : Fetch σ α := ExceptT.mk f

/-- A result that needs no source. -/
def ofUser : Except UserError α → Fetch σ α
  | .ok a => pure a
  | .error e => throw (.user e)

end Fetch

structure Assets (σ : Type) where
  palette : Fetch σ Image
  plate : Fetch σ Image

/-- Assets, and the sprite of a tile in a wobble frame; a placeholder has none. -/
structure SpriteSource (σ : Type) extends Assets σ where
  sprite : Tile → Nat → Fetch σ (Option Image)

end IsoScene
