import IsoScene.Proofs.Raster.Drawing
import IsoScene.Proofs.Raster.Outlines
import IsoScene.Proofs.Scene.Drawing

/-! # The pixels of a frame

A frame is composed of the background, the outline of a layer, and the layer. Since the outline
stands only where the layer does not show, at most one of the two lies on the background
(`get?_frameOf`). The frames of a scene are composed in this way of the layers that are drawn one
after another, and each layer fills the canvas of the scene (`render_pixels`).
-/

namespace IsoScene

variable {σ : Type}

/-! ## Composing -/

namespace Raster

/-- The colour of an outline where the edge has some strength. -/
def outlineShade (strength : Nat) : Rgba :=
  let channel := UInt8.ofNat (8 * strength / 255)
  ⟨channel, channel, channel, UInt8.ofNat strength⟩

/-- What a frame shows where a layer has a cell. -/
def composite (layer : Image) (background : Rgba) (x y : Nat) (cell : Rgba) : Rgba :=
  if cell.alpha = 255 then cell
  else if cell.alpha ≠ 0 then cell.onto background
  else
    let strength := min 255 (layer.alphaAround x y)
    if strength = 0 then background else (outlineShade strength).onto background

section
variable {strength : Nat} (bound : strength ≤ 255)
include bound

theorem scale_outlineColor :
    outlineColor.scale (UInt8.ofNat strength) = outlineShade strength := by
  have alpha : UInt8.ofNat ((255 : UInt8).toNat * strength / 255) = UInt8.ofNat strength :=
    congrArg UInt8.ofNat (Nat.mul_div_cancel_left strength (by decide))
  rw [scale_ofNat outlineColor bound, Rgba.map, outlineColor, alpha]
  rfl

/-- Only an outline of some strength shows. -/
theorem under_outlineShade (dst : Rgba) :
    dst.under (some (outlineShade strength)) =
      if strength = 0 then dst else (outlineShade strength).onto dst := by
  have alpha : (outlineShade strength).alpha = 0 ↔ strength = 0 := by
    rw [← UInt8.toNat_inj]
    exact iff_of_eq (congrArg (· = 0) (toNat_ofNat_strength bound))
  by_cases weak : strength = 0
  · have hidden := alpha.mpr weak
    rw [if_pos weak]
    simp [Rgba.under, Rgba.isVisible, hidden]
  · simp [Rgba.under, Rgba.isVisible, weak, alpha]

end

theorem get?_frameOf (background : Rgba) (scale : Nat) (layer : Image) (x y : Nat) :
    (frameOf background scale layer).get? x y =
      (layer.get? (x / max scale 1) (y / max scale 1)).map
        (layer.composite background (x / max scale 1) (y / max scale 1)) := by
  rw [frameOf, get?_enlarge]
  generalize x / max scale 1 = x
  generalize y / max scale 1 = y
  simp only [get?_blit, Int.sub_zero, at?_ofNat]
  cases found : layer.get? x y with
  | none =>
    -- The frame has the cells of the layer and no others.
    have outside := isSome_get?_iff.not.mp (Option.not_isSome_iff_eq_none.mpr found)
    rw [get?_eq_none (r := filled layer.width layer.height background) (by
      simp only [width_filled, height_filled]
      omega)]
    rfl
  | some cell =>
    obtain ⟨hx, hy⟩ := isSome_get?_iff.mp (Option.isSome_of_eq_some found)
    rw [get?_filled _ _ background hx hy, get?_outlineLayer layer outlineColor found]
    simp only [Option.map_some]
    refine congrArg some ?_
    by_cases hidden : cell.alpha = 0
    · have opposite : cell.alpha ≠ 255 := by rw [hidden]; decide
      -- The layer adds nothing to the outline.
      have strong : min 255 (layer.alphaAround x y) ≤ 255 := Nat.min_le_left ..
      rw [if_pos hidden, scale_outlineColor strong, under_outlineShade strong, composite,
        if_neg opposite, if_neg (not_not_intro hidden)]
      simp [Rgba.under, Rgba.isVisible, hidden]
    · -- There is no outline here, so the layer lies on the background itself.
      rw [if_neg hidden]
      simp only [Rgba.under, Rgba.isVisible, composite]
      by_cases full : cell.alpha = 255
      · simp [full, Rgba.onto_of_opaque full, Rgba.transparent]
      · simp [full, hidden, Rgba.transparent]

end Raster

/-! ## Layers -/

section
variable (source : SpriteSource σ) (projection : Projection Binary64)

theorem size_of_drawTile {wobble : Nat} {layer result : Image} {tile left : Tile} {state after : σ}
    (drawn : drawTile source projection wobble layer tile state = (.ok result, left, after)) :
    result.width = layer.width ∧ result.height = layer.height := by
  obtain ⟨-, rfl, -⟩ | ⟨sprite, between, image, others, -, -, rfl, -⟩ :=
    drawTile_of_ok source projection drawn
  · exact ⟨rfl, rfl⟩
  · exact ⟨Raster.width_blit .., Raster.height_blit ..⟩

theorem size_of_drawTiles {wobble : Nat} {layer result : Image} {tiles : List Tile} {state : σ}
    (drawn : (drawTiles source projection wobble layer tiles state).answer = .ok result) :
    result.width = layer.width ∧ result.height = layer.height := by
  induction tiles generalizing layer state with
  | nil =>
    obtain rfl : layer = result := by simpa [drawTiles] using drawn
    exact ⟨rfl, rfl⟩
  | cons tile rest ih =>
    obtain ⟨next, left, after, first, later, -⟩ := drawTiles_cons_of_ok source projection drawn
    obtain ⟨width, height⟩ := size_of_drawTile source projection first
    rw [← width, ← height]
    exact ih later

/-- The layer of a wobble frame, drawn with what some earlier frames leave. -/
def layerAfter (blank : Image) (earlier : List Nat) (tiles : List Tile) (state : σ)
    (wobble : Nat) : Except RenderError Image :=
  let drawn := drawLayers source projection blank earlier tiles state
  (drawTiles source projection wobble blank drawn.tiles drawn.state).answer

theorem map_ok_layers {blank : Image} {wobbles : List Nat} {layers : List Image}
    {tiles : List Tile} {state : σ}
    (drawn : (drawLayers source projection blank wobbles tiles state).answer = .ok layers) :
    layers.map Except.ok = wobbles.mapIdx fun turn wobble =>
      layerAfter source projection blank (wobbles.take turn) tiles state wobble := by
  induction wobbles generalizing layers tiles state with
  | nil =>
    obtain rfl : [] = layers := by simpa [drawLayers] using drawn
    rfl
  | cons wobble rest ih =>
    obtain ⟨layer, others, first, later, rfl, -⟩ := drawLayers_cons_of_ok source projection drawn
    rw [List.map_cons, ih later, List.mapIdx_cons]
    -- A later frame finds what this one leaves, and what the frames in between leave of it.
    simp only [layerAfter, List.take_zero, List.take_succ_cons, drawLayers, first]

end

namespace Scene

/-- The layer of a wobble frame: the tiles in order on an empty canvas, after the earlier frames. -/
def layer (scene : Scene) (source : SpriteSource σ) (state : σ) (wobble : Nat) :
    Except RenderError Image :=
  layerAfter source scene.bounds.projection scene.blank (wobbles.take wobble) scene.tiles state
    wobble

section
variable {scene : Scene} {flags : Flags} {source : SpriteSource σ} {scale : Nat} {state : σ}
  {frames : List Image} (rendered : (scene.render flags source scale state).answer = .ok frames)
include rendered

theorem map_ok_of_render :
    frames.map Except.ok = wobbles.map fun wobble =>
      (scene.layer source state wobble).map (frameOf flags.background.floored scale) := by
  obtain ⟨layers, drawn, -, rfl⟩ := exists_layers_of_render rendered
  have each : layers.map Except.ok = wobbles.map (scene.layer source state) :=
    map_ok_layers source scene.bounds.projection drawn
  calc (layers.map (frameOf flags.background.floored scale)).map Except.ok
      = (layers.map Except.ok).map (Except.map (frameOf flags.background.floored scale)) := by
        rw [List.map_map, List.map_map]
        rfl
    _ = _ := by
        rw [each, List.map_map]
        rfl

theorem length_of_render : frames.length = 3 := by
  simpa [wobbles] using congrArg List.length (map_ok_of_render rendered)

theorem exists_layer_of_render {wobble : Nat} (member : wobble ∈ wobbles) :
    ∃ layer, scene.layer source state wobble = .ok layer ∧
      frames[wobble]? = some (frameOf flags.background.floored scale layer) := by
  have found := congrArg (·[wobble]?) (map_ok_of_render rendered)
  simp only [List.getElem?_map, getElem?_wobbles wobble member, Option.map_some,
    Option.map_eq_some_iff] at found
  obtain ⟨frame, isFrame, answered⟩ := found
  obtain ⟨layer, drawn, rfl⟩ := map_eq_ok_iff.mp answered.symm
  exact ⟨layer, drawn, isFrame⟩

end

/-- Each pixel of a frame is composed once, of the background and either the layer of the frame or
the outline of that layer. -/
theorem render_pixels {scene : Scene} {flags : Flags} {source : SpriteSource σ} {scale : Nat}
    {state : σ} {frames : List Image}
    (rendered : (scene.render flags source scale state).answer = .ok frames) :
    frames.length = 3 ∧
      ∀ wobble ∈ wobbles, ∃ frame layer,
        frames[wobble]? = some frame ∧ scene.layer source state wobble = .ok layer ∧
          (layer.width, layer.height) = scene.bounds.canvasSize ∧
          frame.width = layer.width * max scale 1 ∧ frame.height = layer.height * max scale 1 ∧
          ∀ x y, frame.get? x y = (layer.get? (x / max scale 1) (y / max scale 1)).map
            (layer.composite flags.background.floored (x / max scale 1) (y / max scale 1)) := by
  refine ⟨length_of_render rendered, ?_⟩
  intro wobble member
  obtain ⟨layer, drawn, isFrame⟩ := exists_layer_of_render rendered member
  have size := size_of_drawTiles source scene.bounds.projection drawn
  refine ⟨_, layer, isFrame, drawn, Prod.ext size.1 size.2, ?_, ?_, Raster.get?_frameOf _ _ layer⟩
  · simp [frameOf]
  · simp [frameOf]

/-- A translucent sprite with an outline of its own. -/
theorem render_pixels_translucent :
    let source : SpriteSource Unit :=
      { palette := throw .undecodable
        plate := throw .undecodable
        sprite := fun _ _ => pure (some (Raster.filled 2 2 ⟨200, 0, 0, 100⟩)) }
    let scene : Scene :=
      ⟨.none, [Tile.new "baba" default [⟨"gs", []⟩] { TileMetadata.text with unit := true }]⟩
    ∃ frames frame layer, (scene.render default source defaultScale ()).answer = .ok frames ∧
      frames.length = 3 ∧ frames[1]? = some frame ∧ scene.layer source () 1 = .ok layer ∧
      (layer.width, layer.height) = (48, 36) ∧ frame.width = 96 ∧
      frame.get? 49 30 = (layer.get? 24 15).map
        (layer.composite Flags.standardBackground.floored 24 15) := by
  intro source scene
  have rendered : ∃ frames, (scene.render default source defaultScale ()).answer = .ok frames := by
    rw [render_of_fits (frameSize_none _)]
    exact ⟨_, rfl⟩
  obtain ⟨frames, rendered⟩ := rendered
  obtain ⟨length, each⟩ := render_pixels rendered
  obtain ⟨frame, layer, isFrame, isLayer, size, width, -, pixels⟩ := each 1 (by decide)
  rw [show scene.bounds.canvasSize = _ from canvasSize_none] at size
  obtain ⟨layerWidth, -⟩ := Prod.mk.inj size
  refine ⟨frames, frame, layer, rendered, length, isFrame, isLayer, size, ?_, pixels 49 30⟩
  rw [width, layerWidth]
  rfl

end Scene

end IsoScene
