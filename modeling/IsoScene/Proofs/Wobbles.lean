import IsoScene.Proofs.Engine
import IsoScene.Proofs.Scene.Composition

/-! # Frames that are alike

The frames of a scene differ through the sprites of its tiles only: what a layer shows does not
depend on the layers before it, neither through the tiles nor through what the source remembers
(`Scene.layer_congr`). For an engine the sprites of two frames are equal where their keys are equal,
and for words in any case. So the keys decide which frames are equal (`Engine.frames_alike`).
-/

namespace IsoScene

open Fetch (Agree Answers)

/-! ## Layers -/

section
variable {σ : Type} {source : SpriteSource σ} {Inv : σ → Prop} {scene : Scene}
  (steady : source.toAssets.AreSteady Inv)
  (sprites : ∀ tile ∈ scene.tiles, ∀ wobble,
    Agree Inv (source.sprite tile.resetRunning wobble) (source.sprite tile.resetRunning wobble))
include steady sprites

/-- A layer is drawn as if it were the first, from some state that is allowed. -/
theorem Scene.layer_eq {state : σ} (allowed : Inv state) (wobble : Nat) :
    ∃ between, Inv between ∧
      scene.layer source state wobble =
        ((layerOf source scene.bounds.projection scene.blank scene.tiles wobble).answer
          between).1 := by
  have agree (other : Nat) := agree_layerOf steady scene.bounds.projection
    (fun tile member => sprites tile member other) scene.blank
  have earlier := Agree.mapM fun other (_ : other ∈ wobbles.take wobble) => agree other
  have keeps := earlier.allowed_after allowed
  -- The earlier layers leave an allowed state, and tiles that are as good as before.
  have kept := map_resetRunning_drawLayers source scene.bounds.projection scene.blank
    (wobbles.take wobble) scene.tiles state
  rw [← drawLayers_eq] at keeps
  refine ⟨_, keeps, ?_⟩
  rw [layer, layerAfter, ← layerOf_congr source scene.bounds.projection kept, ← drawTiles_eq]

theorem Scene.layer_congr {i j : Nat}
    (alike : ∀ tile ∈ scene.tiles,
      Agree Inv (source.sprite tile.resetRunning i) (source.sprite tile.resetRunning j))
    {state : σ} (allowed : Inv state) :
    scene.layer source state i = scene.layer source state j := by
  obtain ⟨first, allowedFirst, drawnFirst⟩ := layer_eq steady sprites allowed i
  obtain ⟨second, allowedSecond, drawnSecond⟩ := layer_eq steady sprites allowed j
  rw [drawnFirst, drawnSecond]
  exact (agree_layerOf steady _ alike scene.blank).answer_eq allowedFirst allowedSecond

end

/-! ## Sprites -/

theorem SpriteKey.ofTile_of_static {tile : Tile} (static : tile.metadata.frameCount ≤ 1)
    (i j : Nat) : ofTile tile i = ofTile tile j := by
  simp [ofTile, static]

theorem SpriteKey.ofTile_two {tile : Tile} (few : tile.metadata.frameCount ≤ 2) :
    ofTile tile 2 = ofTile tile 0 := by
  by_cases static : tile.metadata.frameCount ≤ 1
  · exact ofTile_of_static static 2 0
  · have two : tile.metadata.frameCount = 2 := by omega
    simp [ofTile, two]

/-- Words are drawn from letters, whatever the frame. -/
theorem SpriteStore.spriteNow_congr {layout : StoreLayout} {fs : FileSystem} {tile : Tile}
    {i j : Nat} (alike : tile.word? = none → SpriteKey.ofTile tile i = SpriteKey.ofTile tile j) :
    spriteNow layout fs tile i = spriteNow layout fs tile j := by
  cases shown : tile.word? with
  | none => rw [spriteNow, spriteNow, alike shown]
  | some word => rw [spriteNow, spriteNow, loaded, loaded, loadSprite, loadSprite, shown]

namespace Engine

variable {engine : Engine} {fs : FileSystem}

/-- The caches that an engine can have after any requests and any drawing, failures included, while
the files stay as they are. -/
inductive Reaches (engine : Engine) (fs : FileSystem) : SpriteCache → Prop
  | fresh : Reaches engine fs .empty
  | respond {cache : SpriteCache} {request : Request} (earlier : Reaches engine fs cache)
      (known : request.IsKnown engine) :
      Reaches engine fs ((engine.respond fs request).answer cache).2
  | render {cache : SpriteCache} {scene : Scene} (earlier : Reaches engine fs cache)
      (described : ∀ tile ∈ scene.tiles, engine.Describes tile) (flags : Flags) (scale : Nat) :
      Reaches engine fs (scene.render flags (engine.source fs) scale cache).state

theorem Reaches.isSound {cache : SpriteCache} (reached : Reaches engine fs cache) :
    engine.IsSound fs cache := by
  induction reached with
  | fresh => exact isSound_empty
  | respond earlier known sound => exact (agree_respond known).allowed_after sound
  | @render cache scene earlier described flags scale sound =>
    -- Drawing leaves the state that the frames leave when they are a request.
    have keeps := (agree_frames described flags scale).allowed_after sound
    rwa [← Scene.render_eq] at keeps

/-- Two layers are equal if no tile but the words needs another sprite for them. -/
theorem layer_congr {cache : SpriteCache} (sound : engine.IsSound fs cache) {scene : Scene}
    (described : ∀ tile ∈ scene.tiles, engine.Describes tile) {i j : Nat}
    (alike : ∀ tile ∈ scene.tiles, tile.word? = none →
      SpriteKey.ofTile tile i = SpriteKey.ofTile tile j) :
    scene.layer (engine.source fs) cache i = scene.layer (engine.source fs) cache j := by
  refine Scene.layer_congr areSteady_source ?_ ?_ sound
  · intro tile member wobble
    exact (resetRunning_answers (described tile member) wobble).agree
  · intro tile member
    refine ⟨_, resetRunning_answers (described tile member) i, ?_⟩
    rw [SpriteStore.spriteNow_congr (alike tile member)]
    exact resetRunning_answers (described tile member) j

/-- Two frames are equal pixel for pixel if no tile but the words needs another sprite for them. So
a scene that does not move has one frame only, and where no tile has more than two frames the last
frame is the first one again. -/
theorem frames_alike {cache : SpriteCache} (reached : engine.Reaches fs cache) {scene : Scene}
    (described : ∀ tile ∈ scene.tiles, engine.Describes tile) {flags : Flags} {scale : Nat}
    {frames : List Image}
    (rendered : (scene.render flags (engine.source fs) scale cache).answer = .ok frames) :
    (∀ i ∈ wobbles, ∀ j ∈ wobbles,
        (∀ tile ∈ scene.tiles, tile.word? = none →
          SpriteKey.ofTile tile i = SpriteKey.ofTile tile j) →
        ∃ frame, frames[i]? = some frame ∧ frames[j]? = some frame) ∧
      ((∀ tile ∈ scene.tiles, tile.word? = none → tile.metadata.frameCount ≤ 1) →
        ∃ frame, frames = [frame, frame, frame]) ∧
      ((∀ tile ∈ scene.tiles, tile.word? = none → tile.metadata.frameCount ≤ 2) →
        ∃ frame other, frames = [frame, other, frame]) := by
  have alike : ∀ i ∈ wobbles, ∀ j ∈ wobbles,
      (∀ tile ∈ scene.tiles, tile.word? = none →
        SpriteKey.ofTile tile i = SpriteKey.ofTile tile j) →
      ∃ frame, frames[i]? = some frame ∧ frames[j]? = some frame := by
    intro i memberI j memberJ keys
    obtain ⟨layer, drawn, isFrame⟩ := Scene.exists_layer_of_render rendered memberI
    obtain ⟨other, drawnOther, isOther⟩ := Scene.exists_layer_of_render rendered memberJ
    have same := layer_congr reached.isSound described keys
    rw [drawn, drawnOther] at same
    obtain rfl : layer = other := Except.ok.inj same
    exact ⟨_, isFrame, isOther⟩
  obtain ⟨first, second, third, rfl⟩ := List.length_eq_three.mp (Scene.length_of_render rendered)
  refine ⟨alike, ?_, ?_⟩
  · intro static
    -- No key depends on the wobble, so the second and the third frame are both the first one.
    have keys (i j : Nat) (tile : Tile) (member : tile ∈ scene.tiles) (shown : tile.word? = none) :=
      SpriteKey.ofTile_of_static (static tile member shown) i j
    obtain ⟨_, ⟨⟩, ⟨⟩⟩ := alike 0 (by decide) 1 (by decide) (keys 0 1)
    obtain ⟨_, ⟨⟩, ⟨⟩⟩ := alike 0 (by decide) 2 (by decide) (keys 0 2)
    exact ⟨_, rfl⟩
  · intro few
    obtain ⟨_, ⟨⟩, ⟨⟩⟩ := alike 2 (by decide) 0 (by decide)
      fun tile member shown => SpriteKey.ofTile_two (few tile member shown)
    exact ⟨_, _, rfl⟩

/-- A tile with two frames beside a static one, drawn by an engine that has answered before. -/
theorem frames_alike_two_frames :
    let moving : TileMetadata := ⟨true, 0, 2, true, "data"⟩
    let static : TileMetadata := ⟨false, 0, 1, false, "data"⟩
    let engine : Engine := ⟨Config.standard [], ⟨[("baba", moving), ("rock", static)]⟩⟩
    let sprite (color : Rgba) : FileNode := .file (.picture (Raster.filled 1 1 color))
    let fs : FileSystem :=
      ⟨[(["data"], .directory), (["data", "sprites"], .directory),
        (["data", "sprites", "baba_3_1.png"], sprite ⟨255, 255, 255, 255⟩),
        (["data", "sprites", "baba_3_2.png"], sprite ⟨200, 200, 200, 255⟩),
        (["data", "sprites", "rock_1.png"], sprite ⟨90, 60, 30, 255⟩)], []⟩
    let baba : Tile :=
      { Tile.new "baba" default [⟨"gs", []⟩] { moving with unit := false } with orientation := 3 }
    let rock := Tile.new "rock" default [] static
    let scene : Scene := ⟨.none, [rock, baba, rock]⟩
    let cache := ((engine.respond fs (.sprite baba 1)).answer .empty).2
    ∃ frames, (scene.render default (engine.source fs) defaultScale cache).answer = .ok frames ∧
      (∀ tile ∈ scene.tiles, engine.Describes tile) ∧
      ∃ frame other, frames = [frame, other, frame] := by
  intro moving static engine sprite fs baba rock scene cache
  have describesBaba : engine.Describes baba := fun _ => by decide
  have describesRock : engine.Describes rock := fun _ => by decide
  have described : ∀ tile ∈ scene.tiles, engine.Describes tile := by
    simp [scene, describesBaba, describesRock]
  have reached : engine.Reaches fs cache := .respond .fresh describesBaba
  have rendered : ∃ frames,
      (scene.render default (engine.source fs) defaultScale cache).answer = .ok frames := by
    have succeeds :
        (scene.render default (engine.source fs) defaultScale cache).answer.toBool = true := by
      decide +kernel
    cases answered : (scene.render default (engine.source fs) defaultScale cache).answer with
    | ok frames => exact ⟨frames, rfl⟩
    | error e => simp [answered, Except.toBool] at succeeds
  obtain ⟨frames, rendered⟩ := rendered
  obtain ⟨-, -, two⟩ := frames_alike reached described rendered
  refine ⟨frames, rendered, described, two ?_⟩
  simp [scene, baba, rock, moving, static, Tile.new]

end Engine

end IsoScene
