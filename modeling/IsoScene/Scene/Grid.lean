import IsoScene.Effect.Geometry
import IsoScene.Scene.Flag
import IsoScene.Scene.Order

/-! # Scenes from text

The text of a scene is a grid. Rows are lines, and stacks are the words of a line. A stack reads

```text
terrain%layer|layer&layer|layer
```

where `&` starts the next step in height and `|` the next pixel layer of a step. The terrain
lies below, on pixel layers of its own; without the `%` it is the default ground.

The tiles of a scene are collected in a builder, which goes through all the stacks.

* `TileLookup` — a catalog, seen from here.
* `placeCell` — the tile of a cell.
* `SceneBuilder` — the tiles so far, with their envelope.
* `SceneBuilder.placeStack` — one stack more.
* `Scene.ofText` — the scene of a grid without flags.
* `Scene.parse` — flags and scene of a whole text.
-/

namespace IsoScene

abbrev TileLookup := String → Option TileMetadata

/-- Every name that starts with `text_` can be drawn, even if it is not in the catalog. -/
def TileLookup.metadata? (lookup : TileLookup) (name : String) : Option TileMetadata :=
  (lookup name).or
    (if "text_".toList.isPrefixOf name.toList then some TileMetadata.text else none)

/-- The tile of a cell at a place; an empty cell has none. -/
def placeCell (lookup : TileLookup) (position : Position Binary64) (text : List Char) :
    Except UserError (Option Tile) :=
  match Cell.parse? text with
  | none => .ok none
  | some cell =>
    match lookup.metadata? cell.name with
    | none => .error (.unresolvedTile cell.name)
    | some metadata =>
      ((Tile.new cell.name position cell.variants metadata).resolveGeometry).map some

/-- The place with whole coordinates on the ground and on the pixel layers. -/
def Position.ofColumn (x y : Nat) (z : Binary64) (p : Nat) : Position Binary64 :=
  ⟨Binary64.ofNat x, Binary64.ofNat y, z, Binary64.ofNat p⟩

def layerCells (x y : Nat) (z : Binary64) (text : List Char) :
    List (Position Binary64 × List Char) :=
  (Text.splitUnescaped '|' text).zipIdx.map fun (layer, p) => (Position.ofColumn x y z p, layer)

def stepCells (x y : Nat) (text : List Char) : List (Position Binary64 × List Char) :=
  (Text.splitUnescaped '&' text).zipIdx.flatMap fun (step, z) =>
    layerCells x y (Binary64.ofNat z) step

/-- The terrain of a stack, its steps, and whether the terrain has to exist. -/
structure Stack where
  terrain : List Char
  steps : List Char
  terrainIsRequired : Bool
deriving DecidableEq, Repr

/-- Reads a stack. Terrain is required if the stack or a flag asks for it. -/
def Stack.ofText (flags : Flags) (text : List Char) : Stack :=
  match Text.splitOnceUnescaped '%' text with
  | some (terrain, steps) => ⟨terrain, steps, true⟩
  | none => ⟨flags.defaultGround.toList, text, flags.groundIsExplicit⟩

def isKnown (lookup : TileLookup) (text : List Char) : Bool :=
  match Cell.parse? text with
  | none => true
  | some cell => (lookup.metadata? cell.name).isSome

/-- The height of the terrain below tiles that are lifted. -/
def terrainHeight (lift : Int) : Binary64 :=
  Binary64.ofInt (-1) - Binary64.ofInt lift / Binary64.ofInt 4

/-! ## The builder -/

/-- The tiles that have been placed, in this order, and their envelope if there are any. -/
structure SceneBuilder where
  tiles : Array Tile
  bounds : Option (Envelope Binary64)

namespace SceneBuilder

def empty : SceneBuilder := ⟨#[], none⟩

def push (builder : SceneBuilder) (tile : Tile) : SceneBuilder where
  tiles := builder.tiles.push tile
  bounds := some <|
    match builder.bounds with
    | none => .single tile.position
    | some bounds => bounds.extend tile.position

/-- Places a cell. Also answers how far the new tile lifts the stack. -/
def place (lookup : TileLookup) (builder : SceneBuilder) (position : Position Binary64)
    (text : List Char) : Except UserError (SceneBuilder × Option Int) := do
  match ← placeCell lookup position text with
  | none => .ok (builder, none)
  | some tile => .ok (builder.push tile, some tile.metadata.groundHeight)

/-- Places one cell of the steps of a stack, where `lift` is how far the stack has been lifted, in
quarter tiles. -/
def placeLayer (lookup : TileLookup) : SceneBuilder × Int → Position Binary64 × List Char →
    Except UserError (SceneBuilder × Int)
  | (builder, lift), (position, text) => do
    let (builder, height) ← builder.place lookup position text
    .ok (builder, max lift (height.getD lift))

/-- Places one cell of the terrain of a stack. An unknown tile is left out unless terrain is
required. -/
def placeFloor (lookup : TileLookup) (isRequired : Bool) (builder : SceneBuilder)
    (cell : Position Binary64 × List Char) : Except UserError SceneBuilder := do
  if isRequired || isKnown lookup cell.2 then
    let (builder, _) ← builder.place lookup cell.1 cell.2
    .ok builder
  else .ok builder

/-- Places a stack: steps and layers in order, then the terrain. -/
def placeStack (lookup : TileLookup) (flags : Flags) (builder : SceneBuilder) (x y : Nat)
    (text : List Char) : Except UserError SceneBuilder := do
  let stack := Stack.ofText flags text
  let (builder, lift) ← (stepCells x y stack.steps).foldlM (placeLayer lookup) (builder, 0)
  (layerCells x y (terrainHeight lift) stack.terrain).foldlM
    (placeFloor lookup stack.terrainIsRequired) builder

def scene (builder : SceneBuilder) : Scene :=
  ⟨builder.bounds.getD Envelope.none, Tile.sort builder.tiles.toList⟩

end SceneBuilder

/-! ## Scenes -/

/-- The stacks of a grid with their columns and rows, in reading order. -/
def stackTexts (text : List Char) : List (Nat × Nat × List Char) :=
  (Text.lines text).zipIdx.flatMap fun (row, y) =>
    (Text.words row).zipIdx.map fun (stack, x) => (x, y, stack)

namespace Scene

def ofText (lookup : TileLookup) (flags : Flags) (text : List Char) : Except UserError Scene := do
  let builder ← (stackTexts text).foldlM
    (fun builder (x, y, stack) => builder.placeStack lookup flags x y stack) SceneBuilder.empty
  .ok builder.scene

def parse (lookup : TileLookup) (defaults : Flags) (text : List Char) :
    Except UserError (Scene × Flags) := do
  let (flags, grid) ← defaults.extract text
  let scene ← ofText lookup flags grid
  .ok (scene, flags)

end Scene

end IsoScene
