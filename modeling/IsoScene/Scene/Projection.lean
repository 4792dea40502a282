import IsoScene.Scene.Basic
import IsoScene.Error

/-! # From places to pixels

The isometric projection is written once over any kind of coordinate, so that the same formulas
run on `Binary64` numbers and can be studied on rationals.

* `Coordinate` — the arithmetic that the projection needs.
* `Envelope.canvasSize` — the size of the canvas before enlarging.
* `Projection.place` — the corner at which a sprite is drawn.
* `Scene.frameSize` — the size of a finished frame, if it is within a limit.
-/

namespace IsoScene

/-- Arithmetic with whole numbers in and out. -/
class Coordinate (α : Type) extends Add α, Sub α, Mul α, Div α where
  ofInt : Int → α
  /-- The greatest whole number that is not above a coordinate. -/
  floor : α → Int
  /-- The least number of pixels, but at least one, that covers a length. -/
  side : α → Nat

instance : Coordinate Binary64 where
  ofInt := Binary64.ofInt
  floor := Binary64.floor64
  side := Binary64.side

instance : Coordinate Rat where
  ofInt n := n
  floor := Rat.floor
  side x := max 1 x.ceil.toNat

/-- Half the width of a tile's diamond, in canvas pixels. -/
def step : Int := 12

section
variable {α : Type} [Coordinate α]
open Coordinate

def Envelope.canvasSize (e : Envelope α) : Nat × Nat :=
  let depth := e.maxDepth - e.minDepth
  let width := (e.width + e.height + ofInt 4) * ofInt step
  let height := (e.height + e.width + ofInt 6 + ofInt 2 * depth) * ofInt step / ofInt 2
  (side width, side height)

/-- The values of a scene that the projection depends on. -/
structure Projection (α : Type) where
  sceneWidth : α
  maxDepth : α

def Envelope.projection (e : Envelope α) : Projection α := ⟨e.width, e.maxDepth⟩

/-- The top left corner, on the canvas, of a sprite of the given size. -/
def Projection.place (projection : Projection α) (position : Position α) (groundHeight : Int)
    (spriteWidth spriteHeight : Nat) : Int × Int :=
  let x := (position.x + position.y + ofInt 2) * ofInt step - ofInt spriteWidth / ofInt 2
  let y :=
    (position.y - position.x + projection.sceneWidth + ofInt 3 + ofInt 2 * projection.maxDepth) *
          ofInt step / ofInt 2
        - ofInt spriteHeight / ofInt 2
        + ofInt groundHeight * ofInt 3
      - position.z * ofInt step
  (floor x, floor y)

end

def maxFrameSide : Nat := 65535

/-- One side of a frame, if it is a 32-bit number within the limit. -/
def scaledSide (scale limit side : Nat) : Option Nat :=
  let scaled := side * max scale 1
  if scaled ≤ Text.maxNat32 ∧ scaled ≤ limit then some scaled else none

def Scene.frameSize (scene : Scene) (scale limit : Nat) : Except UserError (Nat × Nat) :=
  let (width, height) := scene.bounds.canvasSize
  match scaledSide scale limit width, scaledSide scale limit height with
  | some w, some h => .ok (w, h)
  | _, _ => .error (.range (.sceneTooLarge limit))

end IsoScene
