import IsoScene.Proofs.Effect.PixelPass
import IsoScene.Proofs.Failure
import IsoScene.Scene.Frame

/-! # Drawing scenes

Drawing changes the running variants of the tiles that it goes through, and hands the changed tiles
on to the next frame. What it draws does not depend on them: apart from the running variants a layer
is the answer of a request that goes through the tiles (`drawTiles_eq`), and so are all the frames
(`Scene.render_eq`).

* `drawTile_of_ok`, `drawTiles_cons_of_ok`, `drawLayers_cons_of_ok` — what a success consists of.
* `tileOnto`, `layerOf`, `Scene.frames` — drawing, without the running variants.
* `map_resetRunning_render` — drawing leaves the tiles as they were, apart from these.
* `agree_layerOf`, `Scene.agree_frames` — what steady sources draw.
-/

namespace IsoScene

variable {σ : Type}

/-! ## One tile -/

/-- Draws a tile onto a layer. What is left of its running variants is forgotten. -/
def tileOnto (source : SpriteSource σ) (projection : Projection Binary64) (wobble : Nat)
    (layer : Image) (tile : Tile) : Fetch σ Image := do
  match ← source.sprite tile.resetRunning wobble with
  | none => pure layer
  | some sprite =>
    let (image, _) ← resolvePixels source.toAssets tile.variants sprite
    pure (paint projection layer tile (finish tile image))

section
variable (source : SpriteSource σ) (projection : Projection Binary64) (wobble : Nat)

theorem drawTile_eq (layer : Image) (tile : Tile) (state : σ) :
    ((drawTile source projection wobble layer tile state).1,
      (drawTile source projection wobble layer tile state).2.2) =
      (tileOnto source projection wobble layer tile).answer state := by
  rw [drawTile, tileOnto, Fetch.answer_bind]
  rcases (source.sprite tile.resetRunning wobble).answer state with ⟨e | sprite, state⟩
  · rfl
  · cases sprite with
    | none => rfl
    | some sprite =>
      dsimp only
      rw [Fetch.answer_bind]
      have running : tile.resetRunning.running = tile.variants := rfl
      rw [running]
      rcases (resolvePixels source.toAssets tile.variants sprite).answer state with ⟨e | _, _⟩ <;>
        rfl

theorem resetRunning_drawTile (layer : Image) (tile : Tile) (state : σ) :
    (drawTile source projection wobble layer tile state).2.1.resetRunning = tile.resetRunning := by
  rw [drawTile]
  split
  · rfl
  · rfl
  · split <;> rfl

/-- What a tile that is drawn does to the layer, and what it keeps to run. -/
theorem drawTile_of_ok {wobble : Nat} {layer result : Image} {tile left : Tile} {state after : σ}
    (drawn : drawTile source projection wobble layer tile state = (.ok result, left, after)) :
    (source.sprite tile.resetRunning wobble).answer state = (.ok none, after) ∧
        result = layer ∧ left = tile.resetRunning ∨
      ∃ sprite between image others,
        (source.sprite tile.resetRunning wobble).answer state = (.ok (some sprite), between) ∧
          (resolvePixels source.toAssets tile.variants sprite).answer between =
            (.ok (image, others), after) ∧
          result = paint projection layer tile.resetRunning (finish tile.resetRunning image) ∧
          left = { tile with running := others } := by
  rw [drawTile] at drawn
  rcases found : (source.sprite tile.resetRunning wobble).answer state with
    ⟨e | _ | sprite, between⟩
  · simp [found] at drawn
  · rw [found] at drawn
    obtain ⟨⟨⟩, rfl, rfl⟩ := drawn
    exact .inl ⟨rfl, rfl, rfl⟩
  · rw [found] at drawn
    dsimp only at drawn
    -- The pass runs all the variants, whatever an earlier frame has left to run.
    have running : tile.resetRunning.running = tile.variants := rfl
    rw [running] at drawn
    rcases resolved : (resolvePixels source.toAssets tile.variants sprite).answer between with
      ⟨e | ⟨image, others⟩, last⟩
    · simp [resolved] at drawn
    · rw [resolved] at drawn
      obtain ⟨⟨⟩, rfl, rfl⟩ := drawn
      exact .inr ⟨sprite, between, image, others, rfl, resolved, rfl, rfl⟩

/-! ## Layers -/

/-- Draws all the tiles onto a layer. -/
def layerOf (layer : Image) (tiles : List Tile) (wobble : Nat) : Fetch σ Image :=
  tiles.foldlM (tileOnto source projection wobble) layer

theorem drawTiles_cons_of_ok {wobble : Nat} {layer result : Image} {tile : Tile}
    {rest : List Tile} {state : σ}
    (drawn : (drawTiles source projection wobble layer (tile :: rest) state).answer = .ok result) :
    ∃ next left after,
      drawTile source projection wobble layer tile state = (.ok next, left, after) ∧
        (drawTiles source projection wobble next rest after).answer = .ok result ∧
        (drawTiles source projection wobble layer (tile :: rest) state).tiles =
          left :: (drawTiles source projection wobble next rest after).tiles := by
  rw [drawTiles] at drawn ⊢
  rcases first : drawTile source projection wobble layer tile state with ⟨e | next, left, after⟩
  · simp [first] at drawn
  · rw [first] at drawn
    exact ⟨next, left, after, rfl, drawn, rfl⟩

theorem drawTiles_eq (layer : Image) (tiles : List Tile) (state : σ) :
    ((drawTiles source projection wobble layer tiles state).answer,
      (drawTiles source projection wobble layer tiles state).state) =
      (layerOf source projection layer tiles wobble).answer state := by
  induction tiles generalizing layer state with
  | nil => rfl
  | cons tile rest ih =>
    rw [drawTiles, layerOf, List.foldlM_cons, Fetch.answer_bind, ← drawTile_eq]
    rcases drawTile source projection wobble layer tile state with ⟨e | layer, tile, state⟩
    · rfl
    · exact ih layer state

theorem map_resetRunning_drawTiles (layer : Image) (tiles : List Tile) (state : σ) :
    (drawTiles source projection wobble layer tiles state).tiles.map Tile.resetRunning =
      tiles.map Tile.resetRunning := by
  induction tiles generalizing layer state with
  | nil => rfl
  | cons tile rest ih =>
    have kept := resetRunning_drawTile source projection wobble layer tile state
    rw [drawTiles]
    rcases drawn : drawTile source projection wobble layer tile state with
      ⟨e | layer, changed, state⟩ <;> rw [drawn] at kept
    · exact congrArg (· :: rest.map Tile.resetRunning) kept
    · exact congrArg₂ List.cons kept (ih layer state)

/-- A layer does not depend on running variants. -/
theorem layerOf_congr {tiles others : List Tile}
    (alike : tiles.map Tile.resetRunning = others.map Tile.resetRunning) (layer : Image) :
    layerOf source projection layer tiles = layerOf source projection layer others := by
  have reset : ∀ tiles : List Tile, layerOf source projection layer tiles =
      layerOf source projection layer (tiles.map Tile.resetRunning) := by
    intro tiles
    funext wobble
    rw [layerOf, layerOf, List.foldlM_map]
    rfl
  rw [reset tiles, reset others, alike]

theorem drawLayers_cons_of_ok {blank : Image} {wobble : Nat} {rest : List Nat}
    {layers : List Image} {tiles : List Tile} {state : σ}
    (drawn :
      (drawLayers source projection blank (wobble :: rest) tiles state).answer = .ok layers) :
    ∃ layer others,
      let first := drawTiles source projection wobble blank tiles state
      let later := drawLayers source projection blank rest first.tiles first.state
      first.answer = .ok layer ∧ later.answer = .ok others ∧ layers = layer :: others ∧
        (drawLayers source projection blank (wobble :: rest) tiles state).tiles = later.tiles := by
  rw [drawLayers] at drawn ⊢
  cases first : (drawTiles source projection wobble blank tiles state).answer with
  | error e => simp [first] at drawn
  | ok layer =>
    rw [first] at drawn
    obtain ⟨others, later, rfl⟩ := map_eq_ok_iff.mp drawn
    exact ⟨layer, others, first, later, rfl, rfl⟩

theorem getElem?_wobbles : ∀ wobble ∈ wobbles, wobbles[wobble]? = some wobble := by decide

theorem drawLayers_eq (blank : Image) (wobbles : List Nat) (tiles : List Tile) (state : σ) :
    ((drawLayers source projection blank wobbles tiles state).answer,
      (drawLayers source projection blank wobbles tiles state).state) =
      (wobbles.mapM (layerOf source projection blank tiles)).answer state := by
  induction wobbles generalizing tiles state with
  | nil => rfl
  | cons wobble rest ih =>
    rw [drawLayers, List.mapM_cons, Fetch.answer_bind, ← drawTiles_eq]
    have kept := map_resetRunning_drawTiles source projection wobble blank tiles state
    rcases drawn : drawTiles source projection wobble blank tiles state with
      ⟨e | layer, changed, state⟩
    · rfl
    · -- The next frame gets the changed tiles, which are as good as the old ones.
      rw [drawn] at kept
      dsimp only at kept ⊢
      rw [Fetch.answer_bind, ← layerOf_congr source projection kept, ← ih]
      rcases drawLayers source projection blank rest changed state with ⟨e | layers, _, _⟩ <;> rfl

theorem map_resetRunning_drawLayers (blank : Image) (wobbles : List Nat) (tiles : List Tile)
    (state : σ) :
    (drawLayers source projection blank wobbles tiles state).tiles.map Tile.resetRunning =
      tiles.map Tile.resetRunning := by
  induction wobbles generalizing tiles state with
  | nil => rfl
  | cons wobble rest ih =>
    have kept := map_resetRunning_drawTiles source projection wobble blank tiles state
    rw [drawLayers]
    rcases drawn : drawTiles source projection wobble blank tiles state with
      ⟨e | layer, changed, state⟩ <;> rw [drawn] at kept
    · exact kept
    · exact (ih changed state).trans kept

end

/-! ## Scenes -/

namespace Scene

def blank (scene : Scene) : Image :=
  Raster.filled scene.bounds.canvasSize.1 scene.bounds.canvasSize.2 Rgba.transparent

/-- The frames of a scene, as a request. -/
def frames (scene : Scene) (flags : Flags) (source : SpriteSource σ) (scale : Nat) :
    Fetch σ (List Image) := do
  let _ ← Fetch.ofUser (scene.frameSize scale maxFrameSide)
  let layers ← wobbles.mapM (layerOf source scene.bounds.projection scene.blank scene.tiles)
  pure (layers.map (frameOf flags.background.floored scale))

/-- The canvas of a scene in which nothing is placed away from the origin. -/
theorem canvasSize_none : Envelope.none.canvasSize = (48, 36) := by decide +kernel

theorem frameSize_none (tiles : List Tile) :
    Scene.frameSize ⟨Envelope.none, tiles⟩ defaultScale maxFrameSide = .ok (96, 72) := by
  rw [frameSize, canvasSize_none]
  rfl

/-- A scene that is not too large is drawn frame by frame. -/
theorem render_of_fits {scene : Scene} {scale : Nat} {size : Nat × Nat}
    (fits : scene.frameSize scale maxFrameSide = .ok size) (flags : Flags)
    (source : SpriteSource σ) (state : σ) :
    scene.render flags source scale state =
      let drawn := drawLayers source scene.bounds.projection scene.blank wobbles scene.tiles state
      let background := flags.background.floored
      { drawn with answer := drawn.answer.map (·.map (frameOf background scale)) } := by
  rw [render, fits]
  rfl

/-- If a scene is drawn, so are its layers. -/
theorem exists_layers_of_render {scene : Scene} {flags : Flags} {source : SpriteSource σ}
    {scale : Nat} {state : σ} {frames : List Image}
    (rendered : (scene.render flags source scale state).answer = .ok frames) :
    ∃ layers,
      let drawn := drawLayers source scene.bounds.projection scene.blank wobbles scene.tiles state
      drawn.answer = .ok layers ∧ drawn.tiles = (scene.render flags source scale state).tiles ∧
        layers.map (frameOf flags.background.floored scale) = frames := by
  cases fits : scene.frameSize scale maxFrameSide with
  | error e => simp [render, fits] at rendered
  | ok size =>
    rw [render_of_fits fits] at rendered ⊢
    obtain ⟨layers, drawn, isFrames⟩ := map_eq_ok_iff.mp rendered
    exact ⟨layers, drawn, rfl, isFrames⟩

theorem render_eq (scene : Scene) (flags : Flags) (source : SpriteSource σ) (scale : Nat)
    (state : σ) :
    ((scene.render flags source scale state).answer,
      (scene.render flags source scale state).state) =
      (scene.frames flags source scale).answer state := by
  cases fits : scene.frameSize scale maxFrameSide with
  | error e => rw [render, frames, fits]; rfl
  | ok size =>
    rw [render_of_fits fits, frames, fits, Fetch.ofUser, pure_bind, Fetch.answer_bind,
      ← drawLayers_eq]
    rcases drawLayers source scene.bounds.projection scene.blank wobbles scene.tiles state with
      ⟨e | layers, _, _⟩ <;> rfl

theorem map_resetRunning_render (scene : Scene) (flags : Flags) (source : SpriteSource σ)
    (scale : Nat) (state : σ) :
    (scene.render flags source scale state).tiles.map Tile.resetRunning =
      scene.tiles.map Tile.resetRunning := by
  cases fits : scene.frameSize scale maxFrameSide with
  | error e => rw [render, fits]
  | ok size =>
    rw [render_of_fits fits]
    exact map_resetRunning_drawLayers source _ scene.blank wobbles scene.tiles state

end Scene

/-! ## Steady sources -/

open Fetch (Agree)

section
variable {source : SpriteSource σ} {Inv : σ → Prop} (steady : source.toAssets.AreSteady Inv)
  (projection : Projection Binary64)
include steady

/-- Two wobble frames of a tile are drawn alike if its sprites are. -/
theorem agree_tileOnto {wobble other : Nat} {tile : Tile}
    (sprites : Agree Inv (source.sprite tile.resetRunning wobble)
      (source.sprite tile.resetRunning other)) (layer : Image) :
    Agree Inv (tileOnto source projection wobble layer tile)
      (tileOnto source projection other layer tile) := by
  refine sprites.bind fun sprite => ?_
  cases sprite with
  | none => exact .pure layer
  | some sprite => exact (agree_resolvePixels steady tile.variants sprite).bind fun _ => .pure _

theorem agree_layerOf {wobble other : Nat} {tiles : List Tile}
    (sprites : ∀ tile ∈ tiles, Agree Inv (source.sprite tile.resetRunning wobble)
      (source.sprite tile.resetRunning other)) (layer : Image) :
    Agree Inv (layerOf source projection layer tiles wobble)
      (layerOf source projection layer tiles other) :=
  .foldlM (fun tile member => agree_tileOnto steady projection (sprites tile member)) layer

theorem Scene.agree_frames {scene : Scene}
    (sprites : ∀ tile ∈ scene.tiles, ∀ wobble,
      Agree Inv (source.sprite tile.resetRunning wobble) (source.sprite tile.resetRunning wobble))
    (flags : Flags) (scale : Nat) :
    Agree Inv (scene.frames flags source scale) (scene.frames flags source scale) := by
  refine (Agree.ofUser _).bind fun _ => Agree.bind (.mapM fun wobble _ => ?_) fun layers => .pure _
  exact agree_layerOf steady _ (fun tile member => sprites tile member wobble) _

end

end IsoScene
