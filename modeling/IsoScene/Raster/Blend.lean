import IsoScene.Raster.Basic

/-! # Drawing one image onto another

* `Rgba.onto` — one colour over another, by their straight alphas in single precision.
* `Raster.blit` — draws an image at any place; what falls outside is clipped.
-/

namespace IsoScene

namespace Rgba

/-- A byte as a fraction of 255. -/
def unit (channel : UInt8) : Float32 := channel.toFloat32 / 255

/-- A number between zero and 255 rounded to a byte; a half goes up. -/
def roundByte (x : Float32) : UInt8 :=
  let whole := x.toUInt8
  if x - whole.toFloat32 ≥ 0.5 then whole + 1 else whole

def clampUnit (x : Float32) : Float32 :=
  if x < 0 then 0 else if 1 < x then 1 else x

/-- The colour `src` over the colour `dst`. An opaque colour hides what is under it. -/
def onto (src dst : Rgba) : Rgba :=
  if src.alpha = 255 then src
  else
    let srcAlpha := unit src.alpha
    let dstAlpha := unit dst.alpha
    let outAlpha := srcAlpha + dstAlpha * (1 - srcAlpha)
    if outAlpha == 0 then transparent
    else
      let composite (s d : UInt8) : UInt8 :=
        let mixed := (unit s * srcAlpha + unit d * dstAlpha * (1 - srcAlpha)) / outAlpha
        roundByte (clampUnit mixed * 255)
      ⟨composite src.red dst.red, composite src.green dst.green, composite src.blue dst.blue,
        roundByte (outAlpha * 255)⟩

theorem onto_of_opaque {src : Rgba} (h : src.alpha = 255) (dst : Rgba) : src.onto dst = src := by
  simp [onto, h]

end Rgba

namespace Raster

/-- The places on one axis that a drawing loop looks at: cell `i` of the sprite goes to place
`origin + i`, and the first place at or beyond the limit ends the loop. -/
def reached (origin : Int) (limit : Nat) : Nat → Nat → List (Nat × Int)
  | _, 0 => []
  | i, remaining + 1 =>
    let place := origin + i
    if place < limit then (i, place) :: reached origin limit (i + 1) remaining else [(i, place)]

/-- The cells of the sprite that meet the canvas on one axis, each with its place there. -/
def span (origin : Int) (limit count : Nat) : List (Nat × Nat) :=
  (reached origin limit 0 count).filterMap fun (i, place) =>
    if 0 ≤ place ∧ place < limit then some (i, place.toNat) else none

/-- Draws one cell of a sprite; a cell that does not show changes nothing. -/
def drawCell (canvas : Image) (x y : Nat) : Option Rgba → Image
  | none => canvas
  | some src => if src.isVisible then canvas.modify x y src.onto else canvas

/-- Draws the sprite with its top left corner at `(x, y)`, row by row. -/
def blit (canvas sprite : Image) (x y : Int) : Image :=
  let columns := span x canvas.width sprite.width
  let rows := span y canvas.height sprite.height
  rows.foldl
    (fun canvas row =>
      columns.foldl
        (fun canvas column =>
          canvas.drawCell column.2 row.2 (sprite.get? column.1 row.1))
        canvas)
    canvas

end Raster

end IsoScene
