import IsoScene.Proofs.Scene.Independence
import Mathlib.Data.List.ReduceOption

/-! # Where tiles stand

Each tile of a scene has been made of one cell of the grid (`exists_stands_of_mem_ofText`). Its
column and row are those of its stack, and its height is the number of its step, or that of the
terrain below a stack that some tile may have lifted. From there it may have been displaced, so
whatever displacements preserve can be said of all the places of a scene at once
(`forall_place_of_ofText`).
-/

namespace IsoScene

/-- A height in a stack with so many steps. The terrain gives way to the tile that lifts it most. -/
inductive HeightAmong (steps : Nat) (tiles : List Tile) : Binary64 → Prop where
  | step (number : Nat) (inside : number < steps) : HeightAmong steps tiles (.ofNat number)
  | terrain (lift : Int) (nonneg : 0 ≤ lift)
      (lifted : lift = 0 ∨ ∃ tile ∈ tiles, tile.metadata.groundHeight = lift) :
      HeightAmong steps tiles (terrainHeight lift)

theorem HeightAmong.mono {steps : Nat} {tiles others : List Tile} {z : Binary64}
    (height : HeightAmong steps tiles z) (more : tiles ⊆ others) : HeightAmong steps others z := by
  cases height with
  | step number inside => exact .step number inside
  | terrain lift nonneg lifted =>
    refine .terrain lift nonneg ?_
    rcases lifted with level | ⟨tile, member, lifts⟩
    · exact .inl level
    · exact .inr ⟨tile, more member, lifts⟩

/-- The number of steps of a stack. -/
def Stack.height (stack : Stack) : Nat := (Text.splitUnescaped '&' stack.steps).length

/-- The grid has this cell at this place, where the tiles decide how low the terrain is. -/
inductive Stands (flags : Flags) (text : List Char) (tiles : List Tile) :
    Position Binary64 → StackCell → Prop where
  | mk {x y : Nat} {stack : List Char} {cell : StackCell} {z : Binary64} (p : Nat)
      (inGrid : (x, y, stack) ∈ stackTexts text)
      (inStack : cell ∈ (Stack.ofText flags stack).cells)
      (height : HeightAmong (Stack.ofText flags stack).height tiles z) :
      Stands flags text tiles (.ofColumn x y z p) cell

variable {lookup : TileLookup} {flags : Flags}

/-- A tile has the name, the variants and the metadata of its cell, up to its geometry. -/
theorem exists_cell_of_placeCell {position : Position Binary64} {text : List Char} {tile : Tile}
    (placed : placeCell lookup position text = .ok (some tile)) :
    ∃ cell metadata, Cell.parse? text = some cell ∧ lookup.metadata? cell.name = some metadata ∧
      (Tile.new cell.name position cell.variants metadata).resolveGeometry = .ok tile := by
  rw [placeCell] at placed
  cases parsed : Cell.parse? text with
  | none => simp [parsed] at placed
  | some cell =>
    cases found : lookup.metadata? cell.name with
    | none => simp [parsed, found] at placed
    | some metadata =>
      simp only [parsed, found] at placed
      obtain ⟨moved, resolved, ⟨⟩⟩ := map_eq_ok_iff.mp placed
      exact ⟨cell, metadata, rfl, found, resolved⟩

theorem mem_layerCells {x y : Nat} {z : Binary64} {text : List Char}
    {cell : Position Binary64 × List Char} (member : cell ∈ layerCells x y z text) :
    ∃ p : Nat, cell.1 = .ofColumn x y z p := by
  obtain ⟨⟨layer, p⟩, -, rfl⟩ := List.mem_map.mp member
  exact ⟨p, rfl⟩

theorem mem_stepCells {x y : Nat} {text : List Char} {cell : Position Binary64 × List Char}
    (member : cell ∈ stepCells x y text) :
    ∃ z < (Text.splitUnescaped '&' text).length, ∃ p : Nat,
      cell.1 = .ofColumn x y (.ofNat z) p := by
  obtain ⟨⟨step, z⟩, isStep, inStep⟩ := List.mem_flatMap.mp member
  have inside := List.snd_lt_of_mem_zipIdx isStep
  exact ⟨z, by simpa using inside, mem_layerCells inStep⟩

theorem exists_stands_of_mem_stackTiles {x y : Nat} {text : List Char} {tiles : List Tile}
    (placed : stackTiles lookup flags x y text = .ok tiles) {tile : Tile} (member : tile ∈ tiles) :
    ∃ z p, ∃ cell ∈ (Stack.ofText flags text).cells,
      HeightAmong (Stack.ofText flags text).height tiles z ∧
      placeCell lookup (.ofColumn x y z p) cell.text = .ok (some tile) := by
  rw [stackTiles] at placed
  obtain ⟨raised, steps, placed⟩ := bind_eq_ok_iff.mp placed
  obtain ⟨ground, terrain, ⟨⟩⟩ := bind_eq_ok_iff.mp placed
  rcases List.mem_append.mp member with inSteps | inTerrain
  · -- The number of a step is its height.
    obtain ⟨cell, isCell, found⟩ :=
      exists_of_mem_mapM steps (List.reduceOption_mem_iff.mp inSteps)
    obtain ⟨z, inside, p, place⟩ := mem_stepCells isCell
    have inStack := List.mem_map_of_mem (f := fun cell => (⟨cell.2, true⟩ : StackCell)) isCell
    rw [map_stepCells] at inStack
    rw [place] at found
    exact ⟨_, p, _, List.mem_append_left _ inStack, .step z inside, found⟩
  · obtain ⟨cell, isCell, found⟩ :=
      exists_of_mem_mapM terrain (List.reduceOption_mem_iff.mp inTerrain)
    obtain ⟨p, place⟩ := mem_layerCells isCell
    -- The terrain lies one step below the ground, and lower still below a tile that is lifted.
    let required := (Stack.ofText flags text).terrainIsRequired
    have inStack := List.mem_map_of_mem (f := fun cell => (⟨cell.2, required⟩ : StackCell)) isCell
    rw [map_layerCells] at inStack
    have height : HeightAmong (Stack.ofText flags text).height
        (raised.reduceOption ++ ground.reduceOption)
        (terrainHeight (liftOver 0 raised.reduceOption)) := by
      refine .terrain _ (le_liftOver 0 _) ?_
      rcases (isGreatest_liftOver 0 raised.reduceOption).1 with level | ⟨other, among, lifts⟩
      · exact .inl level
      · exact .inr ⟨other, List.mem_append_left _ among, lifts⟩
    rw [floorTile] at found
    split at found
    · rw [place] at found
      exact ⟨_, p, _, List.mem_append_right _ inStack, height, found⟩
    · simp at found

/-- Whatever is in a scene has been made of a cell of its text. -/
theorem exists_stands_of_mem_ofText {text : List Char} {scene : Scene}
    (read : Scene.ofText lookup flags text = .ok scene) {tile : Tile}
    (member : tile ∈ scene.tiles) :
    ∃ position cell, Stands flags text scene.tiles position cell ∧
      placeCell lookup position cell.text = .ok (some tile) := by
  rw [Scene.ofText_eq, map_eq_ok_iff] at read
  obtain ⟨lists, placed, rfl⟩ := read
  obtain ⟨tiles, isList, inTiles⟩ := List.mem_flatten.mp (Scene.mem_ofTiles.mp member)
  obtain ⟨⟨x, y, stack⟩, inGrid, found⟩ := exists_of_mem_mapM placed isList
  obtain ⟨z, p, cell, inStack, height, made⟩ := exists_stands_of_mem_stackTiles found inTiles
  have inScene : tiles ⊆ (Scene.ofTiles lists.flatten).tiles := fun other among =>
    Scene.mem_ofTiles.mpr (List.mem_flatten.mpr ⟨tiles, isList, among⟩)
  exact ⟨_, cell, .mk p inGrid inStack (height.mono inScene), made⟩

/-! ## Displacements -/

/-- The text has a tile that is moved by this. -/
def Displaces (lookup : TileLookup) (flags : Flags) (text : List Char) (dx dy dz : Binary64) :
    Prop :=
  ∃ stack ∈ stackTexts text, ∃ cell ∈ (Stack.ofText flags stack.2.2).cells, ∃ tile,
    Cell.parse? cell.text = some tile ∧ lookup.Knows tile.name ∧
      ∃ v ∈ tile.variants, GeometricEffect.parse v = .ok (some (.displace dx dy dz))

/-- What holds of the places of all cells and is preserved by the displacements of the text holds of
the places of all tiles. -/
theorem forall_place_of_ofText {text : List Char} {scene : Scene}
    (read : Scene.ofText lookup flags text = .ok scene) (holds : Position Binary64 → Prop)
    (start : ∀ position cell, Stands flags text scene.tiles position cell → holds position)
    (preserves : ∀ dx dy dz, Displaces lookup flags text dx dy dz → ∀ place : Position Binary64,
      holds place → holds ⟨place.x + dx, place.y + dy, place.z + dz, place.p⟩) :
    ∀ tile ∈ scene.tiles, holds tile.position := by
  intro tile member
  obtain ⟨position, cell, stands, placed⟩ := exists_stands_of_mem_ofText read member
  obtain ⟨named, metadata, parsed, found, resolved⟩ := exists_cell_of_placeCell placed
  have known : lookup.Knows named.name := by
    by_contra unknown
    simp [TileLookup.metadata?_eq_none_iff.mpr unknown] at found
  rw [Tile.resolveGeometry] at resolved
  obtain ⟨⟨turned, left⟩, pass, ⟨⟩⟩ := bind_eq_ok_iff.mp resolved
  show holds turned.position
  refine Tile.applyVariants_preserves (holds ·.position) ?_ pass (start position cell stands)
  -- Whatever moves the tile is among the variants of its cell, so the text displaces by it.
  obtain ⟨p, inGrid, inStack, -⟩ := stands
  intro v asked effect isEffect other before
  cases effect with
  | displace dx dy dz =>
    have displaces : Displaces lookup flags text dx dy dz :=
      ⟨_, inGrid, _, inStack, named, parsed, known, v, asked, isEffect⟩
    exact preserves dx dy dz displaces other.position before
  | toggleUnit => exact before
  | face orientation => exact before

end IsoScene
