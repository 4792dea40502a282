import IsoScene.Error
import IsoScene.Raster.Basic
import IsoScene.Scene.Projection

/-! # Animations

An animation repeats its frames for ever, each shown for the same time. It knows no partial
transparency: a pixel that shows at all is opaque.

* `Animation` — frames of one size with their delay.
* `Animation.ofFrames` — an animation from rendered frames, or what is wrong with their sizes.
-/

namespace IsoScene

/-- Frames that are shown in turn, for ever. -/
structure Animation where
  width : Nat
  height : Nat
  /-- How long each frame is shown, in hundredths of a second. -/
  delay : Nat
  frames : List Image
deriving DecidableEq

namespace Animation

/-- The colour of a pixel in an animation. -/
def flattenColor (c : Rgba) : Rgba :=
  if c.isVisible then { c with alpha := 255 } else Rgba.transparent

theorem flattenColor_of_visible {c : Rgba} (visible : c.alpha ≠ 0) :
    flattenColor c = ⟨c.red, c.green, c.blue, 255⟩ := by
  simp [flattenColor, Rgba.isVisible, visible]

theorem flattenColor_of_hidden {c : Rgba} (hidden : c.alpha = 0) :
    flattenColor c = ⟨0, 0, 0, 0⟩ := by
  simp [flattenColor, Rgba.isVisible, hidden, Rgba.transparent]

/-- The greatest delay, in hundredths of a second. -/
def maxDelay : Nat := 65535

/-- Hundredths of a second from milliseconds, between one and the greatest delay. -/
def delayOf (milliseconds : Nat) : Nat := max 1 (min (milliseconds / 10) maxDelay)

def checkSides (image : Image) : Except FileError Unit :=
  if maxFrameSide < image.width then .error .frameTooWide
  else if maxFrameSide < image.height then .error .frameTooTall
  else .ok ()

/-- Refuses a frame that is too large or differs in size from the first one. -/
def checkFrame (first image : Image) : Except FileError Unit := do
  checkSides image
  if image.width = first.width ∧ image.height = first.height then .ok ()
  else .error .mixedFrameSizes

/-- The animation of some frames; without frames there is none. -/
def ofFrames (frames : List Image) (milliseconds : Nat) : Except FileError (Option Animation) :=
  match frames with
  | [] => .ok none
  | first :: rest => do
    checkSides first
    rest.forM (checkFrame first)
    .ok (some {
      width := first.width
      height := first.height
      delay := delayOf milliseconds
      frames := frames.map (Raster.map flattenColor) })

end Animation

end IsoScene
