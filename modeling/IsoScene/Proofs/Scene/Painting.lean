import IsoScene.Proofs.Effect.Surround
import IsoScene.Proofs.Raster.Drawing
import IsoScene.Proofs.Scene.Drawing

/-! # Images one on the other

What a cell of the canvas becomes depends on what the images show there, in the order in which they
are drawn, and on nothing else (`get?_drawImages`). Where the images are opaque the last of them
hides the others, and images that do not meet may be drawn in either order (`painters_law`).

The tiles of a scene are drawn in this way, each at its place on the canvas
(`exists_images_of_drawTiles`).
-/

namespace IsoScene

namespace Raster

/-- An image with the place of its top left corner. -/
structure PlacedImage where
  image : Image
  x : Int
  y : Int

/-- What the image shows on a cell of the canvas. -/
def PlacedImage.shown? (placed : PlacedImage) (i j : Nat) : Option Rgba :=
  (placed.image.at? (i - placed.x) (j - placed.y)).filter Rgba.isVisible

/-- Draws images one after another. -/
def drawImages (canvas : Image) (images : List PlacedImage) : Image :=
  images.foldl (fun canvas placed => canvas.blit placed.image placed.x placed.y) canvas

section
variable (canvas : Image) (images : List PlacedImage)

@[simp] theorem width_drawImages : (canvas.drawImages images).width = canvas.width :=
  width_foldl (fun _ _ => width_blit ..) canvas

@[simp] theorem height_drawImages : (canvas.drawImages images).height = canvas.height :=
  height_foldl (fun _ _ => height_blit ..) canvas

theorem under_at?_eq (dst : Rgba) (placed : PlacedImage) (i j : Nat) :
    dst.under (placed.image.at? (i - placed.x) (j - placed.y)) =
      ((placed.shown? i j).map (·.onto dst)).getD dst := by
  rw [PlacedImage.shown?]
  cases placed.image.at? (i - placed.x) (j - placed.y) with
  | none => rfl
  | some src =>
    rw [Rgba.under, Option.filter_some]
    split <;> rfl

/-- A cell holds what the images show there, one on the other, on what the canvas has held. -/
theorem get?_drawImages (i j : Nat) :
    (canvas.drawImages images).get? i j = (canvas.get? i j).map
      ((images.filterMap (·.shown? i j)).foldl fun dst src => src.onto dst) := by
  have runs (dst : Rgba) :
      images.foldl (fun dst placed =>
        dst.under (placed.image.at? (i - placed.x) (j - placed.y))) dst =
      (images.filterMap (·.shown? i j)).foldl (fun dst src => src.onto dst) dst := by
    induction images generalizing dst with
    | nil => rfl
    | cons placed images ih =>
      rw [List.foldl_cons, ih, under_at?_eq, List.filterMap_cons]
      cases placed.shown? i j <;> rfl
  rw [drawImages,
    get?_foldl fun canvas placed => get?_blit canvas placed.image placed.x placed.y i j]
  exact congrArg (Option.map · (canvas.get? i j)) (funext runs)

end

/-! ## Opaque images -/

theorem alpha_of_shown? {placed : PlacedImage} (flat : placed.image.IsFlat) {i j : Nat} {src : Rgba}
    (shown : placed.shown? i j = some src) : src.alpha = 255 := by
  obtain ⟨lies, visible⟩ := Option.filter_eq_some_iff.mp shown
  rw [at?] at lies
  split at lies
  · rcases flat _ _ src lies with hidden | full
    · simp [Rgba.isVisible, hidden] at visible
    · exact full
  · cases lies

theorem foldl_onto_of_full {colors : List Rgba} (full : ∀ src ∈ colors, src.alpha = 255)
    (dst : Rgba) : colors.foldl (fun dst src => src.onto dst) dst = colors.getLast?.getD dst := by
  cases colors using List.reverseRecOn with
  | nil => rfl
  | append_singleton colors src =>
    rw [List.foldl_append, List.getLast?_concat]
    exact Rgba.onto_of_opaque (full src List.mem_concat_self) _

/-- Where opaque images show, a cell holds what the last of them shows there. -/
theorem get?_drawImages_of_flat {images : List PlacedImage}
    (flat : ∀ placed ∈ images, placed.image.IsFlat) (canvas : Image) (i j : Nat) :
    (canvas.drawImages images).get? i j = (canvas.get? i j).map
      ((images.filterMap (·.shown? i j)).getLast?.getD ·) := by
  have full : ∀ src ∈ images.filterMap (·.shown? i j), src.alpha = 255 := by
    intro src member
    obtain ⟨placed, member, shown⟩ := List.mem_filterMap.mp member
    exact alpha_of_shown? (flat placed member) shown
  rw [get?_drawImages, funext (foldl_onto_of_full full)]

/-! ## Images that do not meet -/

/-- Images are drawn alike in another order if every cell sees what they show in the same order. -/
theorem drawImages_congr {canvas : Image} {images others : List PlacedImage}
    (alike : ∀ i j, i < canvas.width → j < canvas.height →
      images.filterMap (·.shown? i j) = others.filterMap (·.shown? i j)) :
    canvas.drawImages images = canvas.drawImages others := by
  refine ext_get? (by simp) (by simp) fun i j => ?_
  rw [get?_drawImages, get?_drawImages]
  cases found : canvas.get? i j with
  | none => rfl
  | some dst =>
    obtain ⟨hi, hj⟩ := isSome_get?_iff.mp (Option.isSome_of_eq_some found)
    rw [alike i j hi hj]

theorem drawImages_swap {canvas : Image} {placed other : PlacedImage}
    (apart : ∀ i j, i < canvas.width → j < canvas.height →
      placed.shown? i j = none ∨ other.shown? i j = none)
    (before after : List PlacedImage) :
    canvas.drawImages (before ++ placed :: other :: after) =
      canvas.drawImages (before ++ other :: placed :: after) := by
  refine drawImages_congr fun i j hi hj => ?_
  simp only [List.filterMap_append, List.filterMap_cons]
  rcases apart i j hi hj with hidden | hidden
  · rw [hidden]
  · rw [hidden]

/-- Of opaque images the last one that shows on a cell decides what the cell holds, and the canvas
does where none shows. Two images next to each other in the order, translucent or not, may change
places if there is no cell of the canvas on which both of them show. -/
theorem painters_law (canvas : Image) (images : List PlacedImage) :
    ((∀ placed ∈ images, placed.image.IsFlat) →
      ∀ i j : Nat, (canvas.drawImages images).get? i j = (canvas.get? i j).map fun dst =>
        (images.filterMap (·.shown? i j)).getLast?.getD dst) ∧
      ∀ (before after : List PlacedImage) (placed other : PlacedImage),
        images = before ++ placed :: other :: after →
        (∀ i j : Nat, i < canvas.width → j < canvas.height →
          placed.shown? i j = none ∨ other.shown? i j = none) →
        canvas.drawImages (before ++ other :: placed :: after) = canvas.drawImages images := by
  refine ⟨fun flat => get?_drawImages_of_flat flat canvas, ?_⟩
  rintro before after placed other rfl apart
  exact (drawImages_swap apart before after).symm

theorem isFlat_filled (w h : Nat) {color : Rgba} (full : color.alpha = 255) :
    (filled w h color).IsFlat := by
  intro x y c found
  obtain ⟨hx, hy⟩ := isSome_get?_iff.mp (Option.isSome_of_eq_some found)
  rw [get?_filled w h color hx hy] at found
  exact .inr (Option.some.inj found ▸ full)

/-- Green hides the lower part of red. Blue, which is translucent, lies beside both of them. -/
theorem painters_law_three_images :
    let solid (color : Rgba) (height : Nat) : Image := filled 1 height color
    let red : PlacedImage := ⟨solid ⟨255, 0, 0, 255⟩ 2, 0, 0⟩
    let green : PlacedImage := ⟨solid ⟨0, 255, 0, 255⟩ 2, 0, 1⟩
    let blue : PlacedImage := ⟨solid ⟨0, 0, 255, 100⟩ 2, 1, 0⟩
    let canvas : Image := filled 2 2 Rgba.transparent
    (canvas.drawImages [red, green]).get? 0 0 = some ⟨255, 0, 0, 255⟩ ∧
      (canvas.drawImages [red, green]).get? 0 1 = some ⟨0, 255, 0, 255⟩ ∧
      (canvas.drawImages [red, green]).get? 1 1 = some Rgba.transparent ∧
      canvas.drawImages [red, blue, green] = canvas.drawImages [red, green, blue] := by
  intro solid red green blue canvas
  have flat : ∀ placed ∈ [red, green], placed.image.IsFlat := by
    simp only [List.forall_mem_cons, List.not_mem_nil, false_implies, implies_true, and_true]
    exact ⟨isFlat_filled 1 2 rfl, isFlat_filled 1 2 rfl⟩
  have apart : ∀ i < 2, ∀ j < 2, green.shown? i j = none ∨ blue.shown? i j = none := by
    decide +kernel
  obtain ⟨last, -⟩ := painters_law canvas [red, green]
  obtain ⟨-, exchange⟩ := painters_law canvas [red, green, blue]
  refine ⟨?_, ?_, ?_, ?_⟩
  · rw [last flat]
    decide +kernel
  · rw [last flat]
    decide +kernel
  · rw [last flat]
    decide +kernel
  · exact exchange [red] [] green blue rfl fun i j hi hj => apart i hi j hj

end Raster

/-! ## Tiles -/

section
variable {σ : Type} {source : SpriteSource σ} {projection : Projection Binary64} {wobble : Nat}

/-- If drawing a tile puts an image onto the canvas, it stands where the tile is projected to. -/
def StandsAs (projection : Projection Binary64) (tile : Tile)
    (drawn : Option Raster.PlacedImage) : Prop :=
  ∀ placed ∈ drawn, (placed.x, placed.y) =
    projection.place tile.position tile.metadata.groundHeight placed.image.width
      placed.image.height

/-- A layer is a drawing of images, one for each tile that has a sprite, in the order of the
tiles. -/
theorem exists_images_of_drawTiles {layer result : Image} {tiles : List Tile} {state : σ}
    (drawn : (drawTiles source projection wobble layer tiles state).answer = .ok result) :
    ∃ images : List (Option Raster.PlacedImage),
      List.Forall₂ (StandsAs projection) tiles images ∧
        result = layer.drawImages images.reduceOption := by
  induction tiles generalizing layer state with
  | nil => exact ⟨[], .nil, (Except.ok.inj drawn).symm⟩
  | cons tile rest ih =>
    obtain ⟨next, left, after, first, later, -⟩ := drawTiles_cons_of_ok source projection drawn
    obtain ⟨images, stand, rfl⟩ := ih later
    rcases drawTile_of_ok source projection first with
      ⟨-, rfl, -⟩ | ⟨sprite, between, image, others, -, -, rfl, -⟩
    · exact ⟨none :: images, .cons (fun _ none => by cases none) stand, rfl⟩
    · let bitmap := finish tile.resetRunning image
      let place := projection.place tile.position tile.metadata.groundHeight bitmap.width
        bitmap.height
      refine ⟨some ⟨bitmap, place.1, place.2⟩ :: images, .cons ?_ stand, rfl⟩
      rintro _ ⟨⟩
      rfl

end

end IsoScene
