import IsoScene.Glyph.Render
import IsoScene.Sprite.Key

/-! # The sprite store

Sprites are read from files, words are drawn from letters, and everything is remembered: a bitmap
that was once found is not looked for again. What was not found is not remembered.

* `SpriteCache` — what has been found.
* `StoreLayout` — where the files are.
* `SpriteStore.source` — the store as a source of bitmaps.
-/

namespace IsoScene

structure SpriteCache where
  sprites : List (SpriteKey × Image)
  palette : Option Image
  plate : Option Image
  widths : Glyph.WidthCache

def SpriteCache.empty : SpriteCache := ⟨[], none, none, []⟩

instance : Inhabited SpriteCache := ⟨SpriteCache.empty⟩

structure StoreLayout where
  /-- The directory of sprites inside every asset directory. -/
  sprites : String
  letters : List Char
  palette : List Char
  plate : List Char

namespace SpriteStore

/-- Names that stand for no tile at all. -/
def placeholders : List String := ["", "-", "."]

/-- Reads a picture on behalf of a tile or another asset. -/
def loadPicture (fs : FileSystem) (what : String) (path : List Char) : Except RenderError Image :=
  if fs.isFile path then fs.readImage path
  else .error (.user (.assetMissing what (String.ofList path)))

/-- Runs a request for letters on their part of the cache. -/
def withWidths {α : Type} (request : Fetch Glyph.WidthCache α) : Fetch SpriteCache α :=
  Fetch.ofAnswer fun cache =>
    let (answer, widths) := request.answer cache.widths
    (answer, { cache with widths })

def loadSprite (layout : StoreLayout) (fs : FileSystem) (tile : Tile) (key : SpriteKey) :
    Fetch SpriteCache Image :=
  match tile.word? with
  | some word => withWidths (Glyph.renderText fs layout.letters word)
  | none => liftM (loadPicture fs tile.name (key.path tile.metadata layout.sprites))

/-- The bitmap of a tile, remembered once it has been made. -/
def sprite (layout : StoreLayout) (fs : FileSystem) (tile : Tile) (wobble : Nat) :
    Fetch SpriteCache (Option Image) := do
  if placeholders.contains tile.name then pure none
  else
    let key := SpriteKey.ofTile tile wobble
    match (← get).sprites.lookup key with
    | some image => pure (some image)
    | none =>
      let image ← loadSprite layout fs tile key
      modify fun cache => { cache with sprites := (key, image) :: cache.sprites }
      pure (some image)

/-- The palette, remembered once it has been read. -/
def palette (layout : StoreLayout) (fs : FileSystem) : Fetch SpriteCache Image := do
  match (← get).palette with
  | some image => pure image
  | none =>
    let image ← liftM (loadPicture fs "palette" layout.palette)
    modify fun cache => { cache with palette := some image }
    pure image

/-- The plate behind property text, remembered once it has been read. -/
def plate (layout : StoreLayout) (fs : FileSystem) : Fetch SpriteCache Image := do
  match (← get).plate with
  | some image => pure image
  | none =>
    let image ← liftM (loadPicture fs "property plate" layout.plate)
    modify fun cache => { cache with plate := some image }
    pure image

def source (layout : StoreLayout) (fs : FileSystem) : SpriteSource SpriteCache where
  palette := palette layout fs
  plate := plate layout fs
  sprite := sprite layout fs

end SpriteStore

end IsoScene
