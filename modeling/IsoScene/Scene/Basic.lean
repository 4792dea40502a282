import IsoScene.Tile
import IsoScene.Color.Basic

/-! # Scenes

A scene is a list of tiles in draw order with the envelope of their places. The options that
hold for the whole scene are its flags.

* `Envelope` — the greatest coordinates, and the least height.
* `Scene` — tiles and envelope.
* `Flags` — background and ground.
-/

namespace IsoScene

structure Envelope (α : Type) where
  width : α
  height : α
  minDepth : α
  maxDepth : α
  pixelDepth : α
deriving DecidableEq, Repr, Inhabited

namespace Envelope

def none : Envelope Binary64 :=
  let zero := Binary64.zero false
  ⟨zero, zero, zero, zero, zero⟩

def single (p : Position Binary64) : Envelope Binary64 := ⟨p.x, p.y, p.z, p.z, p.p⟩

def extend (e : Envelope Binary64) (p : Position Binary64) : Envelope Binary64 where
  width := e.width.maximum p.x
  height := e.height.maximum p.y
  minDepth := e.minDepth.minimum p.z
  maxDepth := e.maxDepth.maximum p.z
  pixelDepth := e.pixelDepth.maximum p.p

/-- The envelope of places in the order in which they were taken. -/
def ofPositions : List (Position Binary64) → Envelope Binary64
  | [] => none
  | p :: rest => rest.foldl extend (single p)

end Envelope

structure Scene where
  bounds : Envelope Binary64
  tiles : List Tile
deriving DecidableEq, Repr, Inhabited

structure Flags where
  background : Rgba
  /-- The terrain under stacks that name none. -/
  defaultGround : String
  /-- The scene asked for the default ground, so it must exist. -/
  groundIsExplicit : Bool
deriving DecidableEq, Repr

namespace Flags

def standardBackground : Rgba := ⟨0x40, 0x44, 0x64, 0xFF⟩

def standardGround : String := "terrain_0"

def standard : Flags := ⟨standardBackground, standardGround, false⟩

instance : Inhabited Flags := ⟨standard⟩

end Flags

end IsoScene
