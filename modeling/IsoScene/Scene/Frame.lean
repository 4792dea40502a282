import IsoScene.Effect.Apply
import IsoScene.Raster.Scale
import IsoScene.Scene.Projection

/-! # Frames

A scene is drawn once for each wobble frame. The tiles go onto a transparent layer in list order;
the finished frame is the background, the outline of the layer, and the layer, enlarged.

Drawing uses up the running variants of the tiles. What it leaves of them, and of the state of
the sprite source, is part of every result, also of a failure.

* `Drawn` — a result with the tiles and the state that drawing leaves.
* `drawTile`, `drawTiles` — one tile and all tiles on a layer.
* `Scene.render` — the frames of a scene.
-/

namespace IsoScene

def backgroundFloor : UInt8 := 16

/-- Keeps an opaque background off pure black. -/
def Rgba.floored (color : Rgba) : Rgba :=
  if color.alpha < 255 then color
  else
    ⟨max color.red backgroundFloor, max color.green backgroundFloor,
      max color.blue backgroundFloor, color.alpha⟩

/-- What drawing answers, with the tiles and the state of the sprite source that it leaves. -/
structure Drawn (σ α : Type) where
  answer : Except RenderError α
  tiles : List Tile
  state : σ

variable {σ : Type}

/-- The bitmap of a tile: its sprite after the pixel effects, outlined if the tile is a unit. -/
def finish (tile : Tile) (image : Image) : Image :=
  if tile.metadata.unit then image.withOutline Raster.outlineColor else image

def paint (projection : Projection Binary64) (layer : Image) (tile : Tile) (image : Image) :
    Image :=
  let (x, y) :=
    projection.place tile.position tile.metadata.groundHeight image.width image.height
  layer.blit image x y

def drawTile (source : SpriteSource σ) (projection : Projection Binary64) (wobble : Nat)
    (layer : Image) (tile : Tile) (state : σ) : Except RenderError Image × Tile × σ :=
  let tile := tile.resetRunning
  match (source.sprite tile wobble).answer state with
  | (.error e, state) => (.error e, tile, state)
  | (.ok none, state) => (.ok layer, tile, state)
  | (.ok (some sprite), state) =>
    match (resolvePixels source.toAssets tile.running sprite).answer state with
    | (.error e, state) => (.error e, { tile with running := [] }, state)
    | (.ok (image, left), state) =>
      (.ok (paint projection layer tile (finish tile image)), { tile with running := left }, state)

/-- Draws tiles in order. The first failure ends the drawing; later tiles stay as they are. -/
def drawTiles (source : SpriteSource σ) (projection : Projection Binary64) (wobble : Nat)
    (layer : Image) : List Tile → σ → Drawn σ Image
  | [], state => ⟨.ok layer, [], state⟩
  | tile :: rest, state =>
    match drawTile source projection wobble layer tile state with
    | (.error e, tile, state) => ⟨.error e, tile :: rest, state⟩
    | (.ok layer, tile, state) =>
      let drawn := drawTiles source projection wobble layer rest state
      { drawn with tiles := tile :: drawn.tiles }

def frameOf (background : Rgba) (scale : Nat) (layer : Image) : Image :=
  let frame := Raster.filled layer.width layer.height background
  let frame := frame.blit (layer.outlineLayer Raster.outlineColor) 0 0
  (frame.blit layer 0 0).enlarge scale

/-- The wobble frames of every animation. -/
def wobbles : List Nat := [0, 1, 2]

/-- The layers of several wobble frames, drawn one after another. -/
def drawLayers (source : SpriteSource σ) (projection : Projection Binary64) (blank : Image) :
    List Nat → List Tile → σ → Drawn σ (List Image)
  | [], tiles, state => ⟨.ok [], tiles, state⟩
  | wobble :: rest, tiles, state =>
    let drawn := drawTiles source projection wobble blank tiles state
    match drawn.answer with
    | .error e => ⟨.error e, drawn.tiles, drawn.state⟩
    | .ok layer =>
      let others := drawLayers source projection blank rest drawn.tiles drawn.state
      { others with answer := others.answer.map (layer :: ·) }

def defaultScale : Nat := 2

namespace Scene

/-- The frames of a sorted scene. Nothing is drawn if a frame would be too large for an
animation. -/
def render (scene : Scene) (flags : Flags) (source : SpriteSource σ) (scale : Nat) (state : σ) :
    Drawn σ (List Image) :=
  match scene.frameSize scale maxFrameSide with
  | .error e => ⟨.error (.user e), scene.tiles, state⟩
  | .ok _ =>
    let (width, height) := scene.bounds.canvasSize
    let blank := Raster.filled width height Rgba.transparent
    let drawn := drawLayers source scene.bounds.projection blank wobbles scene.tiles state
    let background := flags.background.floored
    { drawn with answer := drawn.answer.map (·.map (frameOf background scale)) }

end Scene

end IsoScene
