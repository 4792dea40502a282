import IsoScene.Engine
import IsoScene.Proofs.Scene.Drawing
import IsoScene.Proofs.Sprite.Store

/-! # Caches do not show

An engine answers every request as if it had been built for this request alone: what it remembers
from earlier ones, also from those that failed midway, never shows in an answer
(`respondAll_eq_map`). Each request keeps the cache sound and has one answer in all sound caches
(`agree_respond`); the empty cache is one of them.
-/

namespace IsoScene.Engine

open Fetch (Agree Answers)

variable {engine : Engine} {fs : FileSystem}

/-- The files of the engine, as its sprite store sees them. -/
def storeLayout (engine : Engine) : StoreLayout :=
  let paths := engine.config.assetPaths
  ⟨paths.sprites, paths.letters, paths.palette, paths.plate⟩

/-- A cache that holds what the engine would find now. -/
def IsSound (engine : Engine) (fs : FileSystem) : SpriteCache → Prop :=
  SpriteCache.IsSound engine.storeLayout fs engine.catalog.lookup

theorem isSound_empty : engine.IsSound fs .empty := SpriteStore.isSound_empty

/-- The catalog of the engine describes the tile. -/
def Describes (engine : Engine) (tile : Tile) : Prop :=
  TileLookup.Describes engine.catalog.lookup tile

/-! ## Drawing -/

theorem areSteady_source : (engine.source fs).toAssets.AreSteady (engine.IsSound fs) where
  palette := SpriteStore.palette_answers.agree
  plate := SpriteStore.plate_answers.agree

theorem sprite_answers {tile : Tile} (described : engine.Describes tile) (wobble : Nat) :
    Answers (engine.IsSound fs) ((engine.source fs).sprite tile wobble)
      (SpriteStore.spriteNow engine.storeLayout fs tile wobble) :=
  SpriteStore.sprite_answers described wobble

theorem resetRunning_answers {tile : Tile} (described : engine.Describes tile) (wobble : Nat) :
    Answers (engine.IsSound fs) ((engine.source fs).sprite tile.resetRunning wobble)
      (SpriteStore.spriteNow engine.storeLayout fs tile wobble) := by
  -- Resetting the running variants changes neither the name of the tile nor its metadata.
  have describedReset : engine.Describes tile.resetRunning := described
  exact sprite_answers describedReset wobble

theorem agree_frames {scene : Scene} (described : ∀ tile ∈ scene.tiles, engine.Describes tile)
    (flags : Flags) (scale : Nat) :
    Agree (engine.IsSound fs) (scene.frames flags (engine.source fs) scale)
      (scene.frames flags (engine.source fs) scale) := by
  refine Scene.agree_frames areSteady_source (fun tile member wobble => ?_) flags scale
  exact (resetRunning_answers (described tile member) wobble).agree

theorem renderScene_eq (scene : Scene) (flags : Flags) :
    engine.renderScene fs scene flags =
      let render := engine.config.render
      Fetch.ofUser (scene.frameSize render.scale render.maxFrameSize) >>= fun _ =>
        scene.frames flags (engine.source fs) render.scale := by
  rw [renderScene]
  congr 1
  funext _ cache
  exact Scene.render_eq scene flags (engine.source fs) _ cache

theorem describes_of_parse {text : List Char} {scene : Scene} {flags : Flags}
    (parsed : engine.parse text = .ok (scene, flags)) :
    ∀ tile ∈ scene.tiles, engine.Describes tile := by
  intro tile member
  rw [parse, Scene.parse] at parsed
  obtain ⟨⟨found, grid⟩, -, parsed⟩ := bind_eq_ok_iff.mp parsed
  obtain ⟨built, read, ⟨⟩⟩ := bind_eq_ok_iff.mp parsed
  exact TileLookup.describes_of_mem_ofText read member

theorem agree_render (text : List Char) :
    Agree (engine.IsSound fs) (engine.render fs text) (engine.render fs text) := by
  refine Agree.ofUser_bind fun result parsed => ?_
  obtain ⟨scene, flags⟩ := result
  dsimp only
  rw [renderScene_eq]
  exact (Agree.ofUser _).bind fun _ => agree_frames (describes_of_parse parsed) flags _

theorem agree_animate (text : List Char) :
    Agree (engine.IsSound fs) (engine.animate fs text) (engine.animate fs text) := by
  refine (agree_render text).bind fun frames => ?_
  cases Animation.ofFrames frames engine.config.render.frameDelay with
  | error e => exact .throw _
  | ok animation => exact .pure animation

/-! ## Requests -/

/-- A request for a sprite is for a tile that the catalog describes. -/
def Request.IsKnown (engine : Engine) : Request → Prop
  | .sprite tile _ => engine.Describes tile
  | _ => True

theorem agree_respond {request : Request} (known : request.IsKnown engine) :
    Agree (engine.IsSound fs) (engine.respond fs request) (engine.respond fs request) := by
  cases request with
  | frames text => exact (agree_render text).map _
  | animation text => exact (agree_animate text).map _
  | palette => exact areSteady_source.palette.map _
  | plate => exact areSteady_source.plate.map _
  | sprite tile wobble => exact (sprite_answers known wobble).agree.map _

/-- Requests are answered from any sound cache as from the empty one. -/
theorem respondAll_of_isSound {requests : List Request}
    (known : ∀ request ∈ requests, request.IsKnown engine) {cache : SpriteCache}
    (sound : engine.IsSound fs cache) :
    (engine.respondAll fs requests cache).1 =
      requests.map fun request => ((engine.respond fs request).answer .empty).1 := by
  induction requests generalizing cache with
  | nil => rfl
  | cons request rest ih =>
    obtain ⟨knownFirst, knownLater⟩ := List.forall_mem_cons.mp known
    have agree : Agree (engine.IsSound fs) (engine.respond fs request)
        (engine.respond fs request) := agree_respond knownFirst
    have first := agree.answer_eq sound isSound_empty
    have later := ih knownLater (agree.allowed_after sound)
    exact congrArg₂ List.cons first later

/-- However many requests an engine has answered, it answers the next one as a fresh engine does
that is asked nothing else. Requests may be made in any order, and any of them may fail. -/
theorem respondAll_eq_map (engine : Engine) (fs : FileSystem) (requests : List Request)
    (known : ∀ request ∈ requests, request.IsKnown engine) :
    (engine.respondAll fs requests .empty).1 =
      requests.map fun request => ((engine.respond fs request).answer .empty).1 :=
  respondAll_of_isSound known isSound_empty

/-- A palette that is missing, a scene with a sprite that is missing, and in between the sprite of a
tile that has been turned and has lost its outline. -/
theorem respondAll_eq_map_failures :
    let metadata : TileMetadata := ⟨true, 0, 3, true, "data"⟩
    let engine : Engine := ⟨Config.standard [], ⟨[("baba", metadata)]⟩⟩
    let fs : FileSystem :=
      ⟨[(["data"], .directory), (["data", "sprites"], .directory),
        (["data", "sprites", "baba_3_2.png"], .file (.picture (Raster.filled 1 1 default)))], []⟩
    let turned : Tile :=
      { Tile.new "baba" default [] { metadata with unit := false } with orientation := 3 }
    let text := Tile.new "text_you" default [] metadata
    let requests : List Request :=
      [.palette, .sprite turned 1, .frames "baba:l baba:color/red".toList, .sprite text 2,
        .sprite turned 1, .plate, .animation "text_you".toList]
    (∀ request ∈ requests, request.IsKnown engine) ∧
      (engine.respondAll fs requests .empty).1 =
        requests.map fun request => ((engine.respond fs request).answer .empty).1 := by
  intro metadata engine fs turned text requests
  have turnedIsKnown : engine.Describes turned := fun _ => by decide
  have textIsKnown : engine.Describes text := fun shown => absurd shown (by decide)
  have known : ∀ request ∈ requests, request.IsKnown engine := by
    simp [requests, Request.IsKnown, turnedIsKnown, textIsKnown]
  exact ⟨known, respondAll_eq_map engine fs requests known⟩

end IsoScene.Engine
