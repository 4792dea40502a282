import IsoScene.Proofs.Scene.Drawing

/-! # Drawing a scene again

Drawing uses up the running variants of the tiles, and a failure may end it anywhere. Neither can be
seen in what is drawn later: every frame starts from the full variants, and nothing else of a scene
is changed (`render_again`).

* `Bitmaps`, `SpriteSource.Gives` — a source whose answers follow from tile and wobble.
* `Scene.IsCopyOf` — scenes that differ in running variants at most.
* `Bitmaps.Leaves` — what a frame leaves of the running variants of a tile.
-/

namespace IsoScene

open Fetch (Agree Answers)

/-- Answers for every tile and wobble. -/
structure Bitmaps where
  palette : Except RenderError Image
  plate : Except RenderError Image
  sprite : Tile → Nat → Except RenderError (Option Image)

variable {σ : Type} {source : SpriteSource σ} {Inv : σ → Prop} {bitmaps : Bitmaps}

/-- In all the allowed states the source gives these bitmaps. They may depend on the wobble and on
every field of a tile other than its running variants. -/
structure SpriteSource.Gives (source : SpriteSource σ) (Inv : σ → Prop) (bitmaps : Bitmaps) :
    Prop where
  palette : Answers Inv source.palette bitmaps.palette
  plate : Answers Inv source.plate bitmaps.plate
  sprite : ∀ tile wobble,
    Answers Inv (source.sprite tile wobble) (bitmaps.sprite tile.resetRunning wobble)

theorem SpriteSource.Gives.areSteady (gives : source.Gives Inv bitmaps) :
    source.toAssets.AreSteady Inv :=
  ⟨gives.palette.agree, gives.plate.agree⟩

theorem SpriteSource.Gives.agree_sprite (gives : source.Gives Inv bitmaps) (tile : Tile)
    (wobble : Nat) : Agree Inv (source.sprite tile wobble) (source.sprite tile wobble) :=
  (gives.sprite tile wobble).agree

/-- The scenes differ in the running variants of their tiles at most. -/
def Scene.IsCopyOf (scene other : Scene) : Prop :=
  scene.bounds = other.bounds ∧
    scene.tiles.map Tile.resetRunning = other.tiles.map Tile.resetRunning

theorem Scene.frames_of_isCopyOf {scene other : Scene} (copy : scene.IsCopyOf other) (flags : Flags)
    (source : SpriteSource σ) (scale : Nat) :
    scene.frames flags source scale = other.frames flags source scale := by
  obtain ⟨bounds, tiles⟩ := copy
  rw [frames, frames, frameSize, frameSize, blank, blank, bounds,
    layerOf_congr source _ tiles]

/-! ## What is left -/

/-- After a frame a tile without a sprite has all its variants left to run, and a tile with one
those that name no pixel effect. -/
def Bitmaps.Leaves (bitmaps : Bitmaps) (wobble : Nat) (tile : Tile) : Prop :=
  ∃ sprite, bitmaps.sprite tile.resetRunning wobble = .ok sprite ∧
    tile.running =
      if sprite.isSome then tile.variants.filter Variant.isUnknown else tile.variants

section
variable (gives : source.Gives Inv bitmaps) (projection : Projection Binary64)
include gives

theorem leaves_drawTile {wobble : Nat} {layer result : Image} {tile left : Tile}
    {state after : σ} (allowed : Inv state)
    (drawn : drawTile source projection wobble layer tile state = (.ok result, left, after)) :
    bitmaps.Leaves wobble left := by
  have answered := (gives.sprite tile.resetRunning wobble state allowed).1
  obtain ⟨found, -, rfl⟩ | ⟨sprite, between, image, others, found, resolved, -, rfl⟩ :=
    drawTile_of_ok source projection drawn
  · rw [found] at answered
    exact ⟨none, answered.symm, rfl⟩
  · rw [found] at answered
    exact ⟨some sprite, answered.symm, left_of_resolvePixels resolved⟩

theorem leaves_drawTiles {wobble : Nat} {layer result : Image} {tiles : List Tile} {state : σ}
    (allowed : Inv state)
    (drawn : (drawTiles source projection wobble layer tiles state).answer = .ok result) :
    ∀ tile ∈ (drawTiles source projection wobble layer tiles state).tiles,
      bitmaps.Leaves wobble tile := by
  induction tiles generalizing layer state with
  | nil => nofun
  | cons tile rest ih =>
    have keeps := (agree_tileOnto gives.areSteady projection
      (gives.agree_sprite tile.resetRunning wobble) layer).allowed_after allowed
    rw [← drawTile_eq] at keeps
    -- The first tile leaves an allowed state, and the others are drawn from there.
    obtain ⟨next, left, after, first, later, tiles⟩ := drawTiles_cons_of_ok source projection drawn
    rw [first] at keeps
    rw [tiles]
    exact List.forall_mem_cons.mpr ⟨leaves_drawTile gives projection allowed first, ih keeps later⟩

/-- The last frame decides what is left. -/
theorem leaves_drawLayers {earlier : List Nat} {wobble : Nat} {blank : Image}
    {layers : List Image} {tiles : List Tile} {state : σ} (allowed : Inv state)
    (drawn : (drawLayers source projection blank (earlier ++ [wobble]) tiles state).answer =
      .ok layers) :
    ∀ tile ∈ (drawLayers source projection blank (earlier ++ [wobble]) tiles state).tiles,
      bitmaps.Leaves wobble tile := by
  induction earlier generalizing tiles state layers with
  | nil =>
    rw [List.nil_append] at drawn ⊢
    obtain ⟨layer, others, only, -, -, left⟩ := drawLayers_cons_of_ok source projection drawn
    rw [left]
    exact leaves_drawTiles gives projection allowed only
  | cons other earlier ih =>
    have agree : Agree Inv (layerOf source projection blank tiles other)
        (layerOf source projection blank tiles other) :=
      agree_layerOf gives.areSteady projection (fun tile _ => gives.agree_sprite _ other) blank
    have keeps := agree.allowed_after allowed
    rw [← drawTiles_eq] at keeps
    -- The later frames go through all the tiles again, so nothing of this one remains.
    rw [List.cons_append] at drawn ⊢
    obtain ⟨layer, others, -, later, -, left⟩ := drawLayers_cons_of_ok source projection drawn
    rw [left]
    exact ih keeps later

end

/-! ## Again -/

/-- Drawing a scene does not depend on the running variants that its tiles come in with, and
changes nothing else of the scene, whether it fails or not. So a scene that has been drawn is drawn
again in the same way. The running variants that a success leaves are those of the last frame. -/
theorem render_again (gives : source.Gives Inv bitmaps) (scene : Scene) (flags : Flags)
    (scale : Nat) {state : σ} (allowed : Inv state) :
    let drawn := scene.render flags source scale state
    let after : Scene := ⟨scene.bounds, drawn.tiles⟩
    (∀ other otherState, Scene.IsCopyOf other scene → Inv otherState →
        (other.render flags source scale otherState).answer = drawn.answer) ∧
      after.IsCopyOf scene ∧
      (after.render flags source scale drawn.state).answer = drawn.answer ∧
      ∀ frames, drawn.answer = .ok frames → ∀ tile ∈ drawn.tiles, bitmaps.Leaves 2 tile := by
  intro drawn after
  have agree : Agree Inv (scene.frames flags source scale) (scene.frames flags source scale) :=
    Scene.agree_frames gives.areSteady (fun _ _ wobble => gives.agree_sprite _ wobble) flags scale
  have copies : ∀ other otherState, Scene.IsCopyOf other scene → Inv otherState →
      (other.render flags source scale otherState).answer = drawn.answer := by
    intro other otherState copy allowedOther
    -- A copy makes the same request, and this has one answer in all the allowed states.
    have requests := Scene.frames_of_isCopyOf copy flags source scale
    calc (other.render flags source scale otherState).answer
        = ((other.frames flags source scale).answer otherState).1 :=
          congrArg Prod.fst (Scene.render_eq other flags source scale otherState)
      _ = ((scene.frames flags source scale).answer otherState).1 := by rw [requests]
      _ = ((scene.frames flags source scale).answer state).1 := agree.answer_eq allowedOther allowed
      _ = drawn.answer := congrArg Prod.fst (Scene.render_eq scene flags source scale state).symm
  have copy : after.IsCopyOf scene :=
    ⟨rfl, Scene.map_resetRunning_render scene flags source scale state⟩
  have allowedAfter : Inv drawn.state := by
    have keeps := agree.allowed_after allowed
    rwa [← Scene.render_eq] at keeps
  refine ⟨copies, copy, copies after drawn.state copy allowedAfter, ?_⟩
  intro frames succeeded
  -- Without a failure the third frame has gone through every tile.
  obtain ⟨layers, found, tiles, -⟩ := Scene.exists_layers_of_render succeeded
  have last : wobbles = [0, 1] ++ [2] := rfl
  rw [last] at found tiles
  exact tiles ▸ leaves_drawLayers gives _ allowed found

/-- A source that counts the requests, and a scene with leftovers of an earlier drawing. -/
theorem render_again_leftovers :
    let bitmaps : Bitmaps :=
      ⟨.error .undecodable, .error .undecodable, fun tile wobble =>
        .ok (if tile.name = "." then none else some (Raster.filled (wobble + 1) 1 ⟨9, 9, 9, 255⟩))⟩
    let counted {α : Type} (outcome : Except RenderError α) : Fetch Nat α :=
      Fetch.ofAnswer fun count => (outcome, count + 1)
    let source : SpriteSource Nat :=
      { palette := counted bitmaps.palette
        plate := counted bitmaps.plate
        sprite := fun tile wobble => counted (bitmaps.sprite tile wobble) }
    let sparkle : Variant := ⟨"sparkle", []⟩
    let baba := Tile.new "baba" default [⟨"gs", []⟩, sparkle] default
    let gap := Tile.new "." default [sparkle] default
    let scene : Scene := ⟨.none, [{ baba with running := [⟨"prop", []⟩] }, gap]⟩
    let drawn := scene.render default source defaultScale 7
    source.Gives (fun _ => True) bitmaps ∧
      (Scene.render ⟨.none, [baba, gap]⟩ default source defaultScale 0).answer = drawn.answer ∧
      Scene.IsCopyOf ⟨.none, drawn.tiles⟩ scene ∧
      (Scene.render ⟨.none, drawn.tiles⟩ default source defaultScale drawn.state).answer =
        drawn.answer ∧
      (∃ frames, drawn.answer = .ok frames) ∧ ∀ tile ∈ drawn.tiles, bitmaps.Leaves 2 tile := by
  intro bitmaps counted source sparkle baba gap scene drawn
  have gives : source.Gives (fun _ => True) bitmaps :=
    ⟨fun _ _ => ⟨rfl, trivial⟩, fun _ _ => ⟨rfl, trivial⟩, fun _ _ _ _ => ⟨rfl, trivial⟩⟩
  obtain ⟨copies, copy, again, leaves⟩ := render_again gives scene default defaultScale trivial
  have succeeds : ∃ frames, drawn.answer = .ok frames := by
    rw [show drawn = _ from Scene.render_of_fits (Scene.frameSize_none _) default source 7]
    exact ⟨_, rfl⟩
  obtain ⟨frames, succeeded⟩ := succeeds
  exact ⟨gives, copies ⟨.none, [baba, gap]⟩ 0 ⟨rfl, rfl⟩ trivial, copy, again,
    ⟨frames, succeeded⟩, leaves frames succeeded⟩

end IsoScene
