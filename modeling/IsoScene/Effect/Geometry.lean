import IsoScene.Binary64.Decimal
import IsoScene.Error
import IsoScene.Tile

/-! # Effects on a tile's place

Geometric effects are applied once, as soon as a tile is read. They move it, turn it, or toggle
its outline, and are removed from its variants; all other variants stay, in order.

* `GeometricEffect.parse` — the effect that a variant asks for.
* `Tile.apply` — one effect on a tile.
* `Tile.resolveGeometry` — all the geometric effects of a tile.
-/

namespace IsoScene

inductive GeometricEffect where
  | displace (dx dy dz : Binary64)
  | toggleUnit
  | face (orientation : Nat)
deriving DecidableEq, Repr

namespace GeometricEffect

/-- The orientation that a direction token stands for. -/
def orientation? : String → Option Nat
  | "d" => some 0
  | "r" => some 1
  | "u" => some 2
  | "l" => some 3
  | _ => none

def readOffset (s : String) : Except UserError Binary64 :=
  match Binary64.ofDecimal? (Text.trim s.toList) with
  | some x => .ok x
  | none => .error (.argument .displacementNotNumeric)

/-- Reads the three displacements; they must be finite. -/
def parseDisplace : List String → Except UserError GeometricEffect
  | [x, y, z] => do
    let dx ← readOffset x
    let dy ← readOffset y
    let dz ← readOffset z
    if dx.isFinite && dy.isFinite && dz.isFinite then .ok (displace dx dy dz)
    else .error (.argument .displacementNotFinite)
  | _ => .error (.argument .displacementArity)

/-- The geometric effect that a variant names, if it names one. -/
def parse (v : Variant) : Except UserError (Option GeometricEffect) :=
  if v.name = "displace" ∨ v.name = "disp" then (parseDisplace v.arguments).map some
  else if v.name = "unit" then .ok (some toggleUnit)
  else .ok ((orientation? v.name).map face)

end GeometricEffect

namespace Tile

def apply (tile : Tile) : GeometricEffect → Tile
  | .displace dx dy dz =>
    { tile with
      position :=
        { tile.position with
          x := tile.position.x + dx
          y := tile.position.y + dy
          z := tile.position.z + dz } }
  | .toggleUnit => { tile with metadata := { tile.metadata with unit := !tile.metadata.unit } }
  | .face orientation => { tile with orientation }

/-- Applies the geometric effects among some variants and returns the other variants. The first
malformed variant decides the error. -/
def applyVariants (tile : Tile) : List Variant → Except UserError (Tile × List Variant)
  | [] => .ok (tile, [])
  | v :: rest => do
    match ← GeometricEffect.parse v with
    | some effect => (tile.apply effect).applyVariants rest
    | none =>
      let (tile, left) ← tile.applyVariants rest
      .ok (tile, v :: left)

/-- Applies the geometric effects of a tile and keeps its other variants. -/
def resolveGeometry (tile : Tile) : Except UserError Tile := do
  let (moved, left) ← tile.applyVariants tile.variants
  .ok { moved with variants := left }

end Tile

end IsoScene
