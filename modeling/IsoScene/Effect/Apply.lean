import IsoScene.Effect.Pixel
import IsoScene.Effect.Source
import IsoScene.Raster.Edge
import IsoScene.Raster.Outline

/-! # What the pixel effects do

* `Raster.histogram` — the visible colours of an image, most frequent first.
* `Raster.surround`, `clean`, `property`, `noun`, `grayscale`, `multiply` — the effects on images.
* `PixelEffect.apply` — one effect, with the shared assets at hand.
* `resolvePixels` — the pixel effects among some variants, in order.
-/

namespace IsoScene

namespace Raster

/-! ## Counting colours -/

/-- Counts one more occurrence; a colour seen for the first time goes to the end. -/
def countColor (c : Rgba) : List (Rgba × Nat) → List (Rgba × Nat)
  | [] => [(c, 1)]
  | (d, n) :: rest => if d = c then (d, n + 1) :: rest else (d, n) :: countColor c rest

def visible (image : Image) : List Rgba := image.toList.filter Rgba.isVisible

/-- The visible colours with their numbers of occurrences, most frequent first; equal counts
stand in the order of first occurrence. -/
def histogram (image : Image) : List (Rgba × Nat) :=
  (image.visible.foldl (fun counts c => countColor c counts) []).mergeSort
    fun a b => b.2 ≤ a.2

/-- The most frequent visible colour; transparent if nothing shows. -/
def dominant (image : Image) : Rgba :=
  match image.histogram with
  | [] => Rgba.transparent
  | (c, _) :: _ => c

/-! ## The effects -/

/-- Surrounds the image by `level` outlines in its dominant colour. Odd levels leave only the
outlines; even levels put the image back inside them. -/
def surround (image : Image) (level : Nat) : Image :=
  let color := image.dominant
  let padded := image.pad level
  let strengths := padded.alpha.edgesTimes level
  ofFn padded.width padded.height fun x y =>
    let pixel := (padded.get? x y).getD Rgba.transparent
    if pixel.isVisible then
      if level % 2 = 0 then pixel else Rgba.transparent
    else color.scale ((strengths.get? x y).getD 0)

def mapVisible (f : Rgba → Rgba) (image : Image) : Image :=
  image.map fun c => if c.isVisible then f c else c

/-- A channel stretched so that `most` becomes 255. -/
def stretchChannel (most value : UInt8) : UInt8 :=
  if most = 0 then value else UInt8.ofNat (value.toNat * 255 / most.toNat)

def brightest (image : Image) : Rgba :=
  image.visible.foldl (Rgba.zipWith max) Rgba.transparent

/-- Stretches each channel so that its greatest visible value becomes 255. -/
def clean (image : Image) : Image :=
  image.mapVisible (Rgba.zipWith stretchChannel image.brightest)

def multiply (image : Image) (color : Rgba) : Image := image.map (·.multiply color)

/-- The place on one axis that centres a length in a greater one. -/
def centred (whole part : Nat) : Int := ((whole - part) / 2 : Nat)

/-- Recolours the visible pixels almost black and centres them on the plate. -/
def property (image plate : Image) : Image :=
  let text := image.mapVisible fun c => { outlineColor with alpha := c.alpha }
  let width := max image.width plate.width
  let height := max image.height plate.height
  let canvas := filled width height Rgba.transparent
  let canvas := canvas.blit plate (centred width plate.width) (centred height plate.height)
  canvas.blit text (centred width text.width) (centred height text.height)

def brightness (c : Rgba) : Nat := c.red.toNat + c.green.toNat + c.blue.toNat

/-- The least bright of some colours, the first of them if there are several. -/
def darkestOf : List Rgba → Option Rgba
  | [] => none
  | c :: rest =>
    match darkestOf rest with
    | none => some c
    | some d => if brightness c ≤ brightness d then some c else some d

/-- The least bright visible colour; of several, the one that the histogram lists first. -/
def darkest (image : Image) : Option Rgba := darkestOf (image.histogram.map (·.1))

/-- Turns the darkest visible colour into black and the other visible ones into white. -/
def noun (image : Image) : Image :=
  match image.darkest with
  | none => image
  | some dark => image.mapVisible fun c => if c = dark then ⟨0, 0, 0, 255⟩ else ⟨255, 255, 255, 255⟩

def gray (c : Rgba) : Rgba :=
  let average := UInt8.ofNat (brightness c / 3)
  ⟨average, average, average, c.alpha⟩

def grayscale (image : Image) : Image := image.map gray

end Raster

/-! ## Running the effects -/

def inactiveColor : Rgba := ⟨200, 200, 200, 255⟩

variable {σ : Type}

/-- The colour that a tint stands for. -/
def ColorChoice.resolve (assets : Assets σ) : ColorChoice → Fetch σ Rgba
  | .literal color => pure color
  | .palette place => do
    let palette ← assets.palette
    match palette.get? place.column place.row with
    | some color => pure color
    | none => throw (.user (.argument (.outsidePalette place)))

def PixelEffect.apply (assets : Assets σ) (image : Image) : PixelEffect → Fetch σ Image
  | .outline level => pure (image.surround level)
  | .clean => pure image.clean
  | .tint choice => do
    let color ← choice.resolve assets
    pure (image.multiply color)
  | .inactive => pure (image.multiply inactiveColor)
  | .property => do
    let plate ← assets.plate
    pure (image.property plate)
  | .noun => pure image.noun
  | .grayscale => pure image.grayscale

/-- Applies the pixel effects among some variants and returns the other variants. The first
error ends the pass. -/
def resolvePixels (assets : Assets σ) : List Variant → Image → Fetch σ (Image × List Variant)
  | [], image => pure (image, [])
  | v :: rest, image => do
    match ← Fetch.ofUser (PixelEffect.parse v) with
    | some effect =>
      let image ← effect.apply assets image
      resolvePixels assets rest image
    | none =>
      let (image, left) ← resolvePixels assets rest image
      pure (image, v :: left)

end IsoScene
