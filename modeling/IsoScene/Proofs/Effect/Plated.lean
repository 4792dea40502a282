import IsoScene.Proofs.Effect.Recoloring
import IsoScene.Proofs.Raster.Drawing
import IsoScene.Proofs.Raster.Outlines

/-! # Text on a plate

The canvas is as wide as the wider of text and plate and as high as the higher of them, so there is
room for both, whichever is wider and whichever is higher (`isCentred_centred`). The plate is drawn
on an empty canvas and the text on the plate. So what a cell of the canvas holds follows from the
cells of the plate and of the text that lie on it (`get?_property`).
-/

namespace IsoScene.Raster

/-! ## The middle of a canvas -/

/-- A length begins half of what is left before the end of a greater one, rounded down, and ends
inside it. Words of 32 bits do not wrap around here. -/
structure IsCentred (whole part : Nat) (origin : Int) : Prop where
  middle : origin = ((whole : Int) - part) / 2
  begins : 0 ≤ origin
  ends : origin + part ≤ whole
  word : whole < 2 ^ 32 → origin = ((UInt32.ofNat whole - UInt32.ofNat part) / 2).toNat

theorem isCentred_centred {whole part : Nat} (fits : part ≤ whole) :
    IsCentred whole part (centred whole part) := by
  have half : centred whole part = ((whole : Int) - part) / 2 := by
    rw [centred]
    omega
  refine ⟨half, by omega, by omega, fun small => ?_⟩
  have wholeWord : (UInt32.ofNat whole).toNat = whole := UInt32.toNat_ofNat_of_lt' small
  have partWord : (UInt32.ofNat part).toNat = part :=
    UInt32.toNat_ofNat_of_lt' (Nat.lt_of_le_of_lt fits small)
  have smaller : UInt32.ofNat part ≤ UInt32.ofNat whole :=
    UInt32.le_iff_toNat_le.mpr (by rw [wholeWord, partWord]; exact fits)
  rw [UInt32.toNat_div, UInt32.toNat_sub_of_le _ _ smaller, wholeWord, partWord]
  rfl

/-! ## The cells of the canvas -/

/-- What an image shows at a place of an empty canvas. -/
def alone (image : Image) (x y : Int) : Rgba :=
  match image.at? x y with
  | none => Rgba.transparent
  | some c => if c.alpha = 0 then Rgba.transparent else c.onto Rgba.transparent

theorem under_transparent (image : Image) (x y : Int) :
    Rgba.transparent.under (image.at? x y) = image.alone x y := by
  unfold alone
  cases image.at? x y with
  | none => rfl
  | some c => by_cases hidden : c.alpha = 0 <;> simp [Rgba.under, Rgba.isVisible, hidden]

/-- The colour of text on a plate. -/
def inked (c : Rgba) : Rgba := { outlineColor with alpha := c.alpha }

section
variable {image plate : Image}

@[simp] theorem width_property : (image.property plate).width = max image.width plate.width := by
  rw [property, width_blit, width_blit, width_filled]

@[simp] theorem height_property :
    (image.property plate).height = max image.height plate.height := by
  rw [property, height_blit, height_blit, height_filled]

/-- The cell of the text is drawn on what is there of the plate. -/
theorem get?_property {x y : Nat} (hx : x < (image.property plate).width)
    (hy : y < (image.property plate).height) :
    let canvas := image.property plate
    canvas.get? x y = some (
      (plate.alone (x - centred canvas.width plate.width)
        (y - centred canvas.height plate.height)).under
      ((image.mapVisible inked).at? (x - centred canvas.width image.width)
        (y - centred canvas.height image.height))) := by
  intro canvas
  have width : canvas.width = max image.width plate.width := width_property
  have height : canvas.height = max image.height plate.height := height_property
  rw [width, height]
  rw [width_property] at hx
  rw [height_property] at hy
  simp only [canvas, property]
  rw [get?_blit, get?_blit, get?_filled _ _ _ hx hy, Option.map_some, Option.map_some,
    under_transparent]
  rfl

theorem at?_mapVisible (f : Rgba → Rgba) (image : Image) (x y : Int) :
    (image.mapVisible f).at? x y =
      (image.at? x y).map fun c => if c.isVisible then f c else c :=
  at?_map ..

/-- Text that shows is drawn in its own colour on what is behind it. -/
theorem under_inked {x y : Int} {c : Rgba} (lies : image.at? x y = some c) (shows : c.alpha ≠ 0)
    (behind : Rgba) :
    behind.under ((image.mapVisible inked).at? x y) = (inked c).onto behind := by
  have visible : c.isVisible = true := by simp [Rgba.isVisible, shows]
  have inkedVisible : (inked c).isVisible = true := visible
  rw [at?_mapVisible, lies, Option.map_some, if_pos visible, Rgba.under, if_pos inkedVisible]

theorem under_inked_of_hidden {x y : Int}
    (hidden : ∀ c, image.at? x y = some c → c.alpha = 0) (behind : Rgba) :
    behind.under ((image.mapVisible inked).at? x y) = behind := by
  rw [at?_mapVisible]
  cases lies : image.at? x y with
  | none => rfl
  | some c =>
    have invisible : c.isVisible = false := by simp [Rgba.isVisible, hidden c lies]
    simp [Rgba.under, invisible]

end

/-- Text and plate both lie on the canvas, each in the middle of it. Where the text does not show,
the plate shows as it does alone; where the text shows, it is drawn almost black and with its own
alpha on what the plate shows there, and opaque text hides the plate. -/
theorem property_loses_nothing (image plate : Image) :
    let canvas := image.property plate
    let textX := centred canvas.width image.width
    let textY := centred canvas.height image.height
    let plateX := centred canvas.width plate.width
    let plateY := centred canvas.height plate.height
    (canvas.width = max image.width plate.width ∧
        canvas.height = max image.height plate.height) ∧
      (IsCentred canvas.width image.width textX ∧ IsCentred canvas.height image.height textY) ∧
      (IsCentred canvas.width plate.width plateX ∧ IsCentred canvas.height plate.height plateY) ∧
      ∀ x y : Nat, x < canvas.width → y < canvas.height →
        let text := image.at? (x - textX) (y - textY)
        let behind := plate.alone (x - plateX) (y - plateY)
        ((∀ c, text = some c → c.alpha = 0) → canvas.get? x y = some behind) ∧
          (∀ c, text = some c → c.alpha ≠ 0 →
            canvas.get? x y = some (Rgba.onto ⟨8, 8, 8, c.alpha⟩ behind)) ∧
          ∀ c, text = some c → c.alpha = 255 → canvas.get? x y = some ⟨8, 8, 8, 255⟩ := by
  intro canvas textX textY plateX plateY
  have width : canvas.width = max image.width plate.width := width_property
  have height : canvas.height = max image.height plate.height := height_property
  refine ⟨⟨width, height⟩, ⟨?_, ?_⟩, ⟨?_, ?_⟩, ?_⟩
  · exact isCentred_centred (by rw [width]; exact Nat.le_max_left ..)
  · exact isCentred_centred (by rw [height]; exact Nat.le_max_left ..)
  · exact isCentred_centred (by rw [width]; exact Nat.le_max_right ..)
  · exact isCentred_centred (by rw [height]; exact Nat.le_max_right ..)
  intro x y hx hy text behind
  have cell : canvas.get? x y = _ := get?_property hx hy
  have shows : ∀ c, text = some c → c.alpha ≠ 0 →
      canvas.get? x y = some ((inked c).onto behind) :=
    fun c lies visible => cell.trans (congrArg some (under_inked lies visible behind))
  refine ⟨fun hidden => ?_, shows, fun c lies solid => ?_⟩
  · exact cell.trans (congrArg some (under_inked_of_hidden hidden behind))
  · have opaqueInk : (inked c).alpha = 255 := solid
    rw [shows c lies (by rw [solid]; decide), Rgba.onto_of_opaque opaqueInk, inked, solid]
    rfl

/-- Text that is wider than its plate, which is higher than the text. The last letter does not show,
and the one in the middle is translucent. -/
theorem property_loses_nothing_across :
    let board : Rgba := ⟨200, 100, 50, 255⟩
    let plate : Image := filled 2 4 board
    let image : Image :=
      ofFn 3 1 fun x _ => ⟨90, 80, 70, if x = 0 then 255 else if x = 1 then 128 else 0⟩
    let canvas := image.property plate
    (canvas.width = 3 ∧ canvas.height = 4) ∧
      IsCentred 4 1 1 ∧ IsCentred 3 2 0 ∧
      canvas.get? 0 1 = some ⟨8, 8, 8, 255⟩ ∧
      canvas.get? 1 1 = some (Rgba.onto ⟨8, 8, 8, 128⟩ (board.onto Rgba.transparent)) ∧
      canvas.get? 2 1 = some Rgba.transparent ∧ canvas.get? 1 3 = some board := by
  intro board plate image canvas
  have width : (image.property plate).width = 3 := width_property
  have height : (image.property plate).height = 4 := height_property
  have textMiddle : centred 3 image.width = 0 ∧ centred 4 image.height = 1 := by decide +kernel
  have plateMiddle : centred 3 plate.width = 0 ∧ centred 4 plate.height = 0 := by decide +kernel
  obtain ⟨-, ⟨-, textY⟩, ⟨plateX, -⟩, cells⟩ := property_loses_nothing image plate
  rw [height, textMiddle.2] at textY
  rw [width, plateMiddle.1] at plateX
  simp only [width, height, textMiddle, plateMiddle] at cells
  refine ⟨⟨width, height⟩, textY, plateX, ?_, ?_, ?_, ?_⟩
  · exact (cells 0 1 (by decide) (by decide)).2.2 ⟨90, 80, 70, 255⟩ rfl rfl
  · exact (cells 1 1 (by decide) (by decide)).2.1 ⟨90, 80, 70, 128⟩ rfl (by decide)
  · exact (cells 2 1 (by decide) (by decide)).1 fun c lies => by cases lies; rfl
  · exact (cells 1 3 (by decide) (by decide)).1 fun c lies => by cases lies

end IsoScene.Raster
