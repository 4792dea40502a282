import IsoScene.Proofs.Scene.DrawOrder
import IsoScene.Proofs.Scene.Placement

/-! # Stacks do not interact

What a stack of a grid adds to the scene, and how it fails, depends on its text, its column and
its row, and on nothing that was placed before.

* `Stack.cells`, `StackCell.Fails` — the cells of a stack in the order in which they are placed,
  and why one of them cannot be.
* `stackTiles_eq_error_iff` — a stack fails with its first failing cell.
* `ofText_stackwise` — a grid succeeds if every stack alone does, and then has their tiles in draw
  order; otherwise it fails with its first failing stack.
-/

namespace IsoScene

/-! ## Failing cells -/

/-- A cell of a stack, and whether its name has to be known. -/
structure StackCell where
  text : List Char
  isRequired : Bool

/-- The cells of a stack: steps and layers in order, then the layers of the terrain. -/
def Stack.cells (stack : Stack) : List StackCell :=
  ((Text.splitUnescaped '&' stack.steps).flatMap (Text.splitUnescaped '|')).map (⟨·, true⟩) ++
    (Text.splitUnescaped '|' stack.terrain).map (⟨·, stack.terrainIsRequired⟩)

/-- Why a cell cannot be placed. -/
inductive StackCell.Fails (lookup : TileLookup) (cell : StackCell) : UserError → Prop where
  | unresolved (tile : Cell) (parsed : Cell.parse? cell.text = some tile)
      (unknown : ¬ lookup.Knows tile.name) (required : cell.isRequired = true) :
      Fails lookup cell (.unresolvedTile tile.name)
  | malformed (tile : Cell) (e : UserError) (parsed : Cell.parse? cell.text = some tile)
      (known : lookup.Knows tile.name) (first : FirstFailure Variant.IsMalformed tile.variants e) :
      Fails lookup cell e

theorem StackCell.not_fails_of_empty {lookup : TileLookup} {cell : StackCell} {e : UserError}
    (empty : Cell.parse? cell.text = none) : ¬ cell.Fails lookup e := by
  rintro (⟨tile, parsed, _, _⟩ | ⟨tile, _, parsed, _, _⟩) <;> simp [empty] at parsed

theorem StackCell.fails_iff {lookup : TileLookup} {cell : StackCell} {tile : Cell} {e : UserError}
    (parsed : Cell.parse? cell.text = some tile) :
    cell.Fails lookup e ↔
      (¬ lookup.Knows tile.name ∧ cell.isRequired = true ∧ e = .unresolvedTile tile.name) ∨
        (lookup.Knows tile.name ∧ FirstFailure Variant.IsMalformed tile.variants e) := by
  constructor
  · rintro (⟨other, found, unknown, required⟩ | ⟨other, _, found, known, first⟩)
    · obtain rfl : tile = other := by simpa [parsed] using found
      exact .inl ⟨unknown, required, rfl⟩
    · obtain rfl : tile = other := by simpa [parsed] using found
      exact .inr ⟨known, first⟩
  · rintro (⟨unknown, required, rfl⟩ | ⟨known, first⟩)
    · exact .unresolved tile parsed unknown required
    · exact .malformed tile e parsed known first

/-- A cell fails by its text, wherever it stands. -/
theorem floorTile_eq_error_iff {lookup : TileLookup} {isRequired : Bool}
    {position : Position Binary64} {text : List Char} {e : UserError} :
    floorTile lookup isRequired position text = .error e ↔
      StackCell.Fails lookup ⟨text, isRequired⟩ e := by
  rw [floorTile, isKnown, placeCell]
  cases parsed : Cell.parse? text with
  | none => simpa using StackCell.not_fails_of_empty parsed
  | some tile =>
    rw [StackCell.fails_iff parsed]
    cases found : lookup.metadata? tile.name with
    | none =>
      have unknown := TileLookup.metadata?_eq_none_iff.mp found
      cases isRequired <;> simp [found, unknown, eq_comm]
    | some metadata =>
      -- The geometric pass is the only thing left that can fail.
      have known : lookup.Knows tile.name := by
        by_contra unknown
        simp [TileLookup.metadata?_eq_none_iff.mpr unknown] at found
      let placed := Tile.new tile.name position tile.variants metadata
      have pass : placed.resolveGeometry = .error e ↔
          FirstFailure Variant.IsMalformed tile.variants e := Tile.resolveGeometry_eq_error_iff
      simp only [found, Option.isSome_some, Bool.or_true, if_true, known, not_true_eq_false,
        false_and, false_or, true_and, ← pass]
      show placed.resolveGeometry.map some = .error e ↔ _
      cases placed.resolveGeometry <;> simp [Except.map]

theorem placeCell_eq_error_iff {lookup : TileLookup} {position : Position Binary64}
    {text : List Char} {e : UserError} :
    placeCell lookup position text = .error e ↔ StackCell.Fails lookup ⟨text, true⟩ e := by
  rw [← @floorTile_eq_error_iff lookup true position, floorTile]
  rfl

/-! ## Failing stacks -/

theorem map_layerCells (x y : Nat) (z : Binary64) (text : List Char) (isRequired : Bool) :
    (layerCells x y z text).map (fun cell => (⟨cell.2, isRequired⟩ : StackCell)) =
      (Text.splitUnescaped '|' text).map (⟨·, isRequired⟩) := by
  conv_rhs => rw [← List.zipIdx_map_fst 0 (Text.splitUnescaped '|' text)]
  simp only [layerCells, List.map_map, Function.comp_def]

theorem map_stepCells (x y : Nat) (text : List Char) :
    (stepCells x y text).map (fun cell => (⟨cell.2, true⟩ : StackCell)) =
      ((Text.splitUnescaped '&' text).flatMap (Text.splitUnescaped '|')).map (⟨·, true⟩) := by
  conv_rhs => rw [← List.zipIdx_map_fst 0 (Text.splitUnescaped '&' text)]
  simp only [stepCells, List.map_flatMap, map_layerCells, List.flatMap_map]

/-- A stack fails with the first of its cells that cannot be placed. -/
theorem stackTiles_eq_error_iff {lookup : TileLookup} {flags : Flags} {x y : Nat}
    {text : List Char} {e : UserError} :
    stackTiles lookup flags x y text = .error e ↔
      FirstFailure (StackCell.Fails lookup) (Stack.ofText flags text).cells e := by
  rw [stackTiles]
  generalize Stack.ofText flags text = stack
  -- The steps and the terrain fail by their texts, so the height of the terrain does not matter.
  have steps : ∀ e, FirstFailure (StackCell.Fails lookup)
      (((Text.splitUnescaped '&' stack.steps).flatMap (Text.splitUnescaped '|')).map (⟨·, true⟩)) e ↔
      ((stepCells x y stack.steps).mapM fun cell => placeCell lookup cell.1 cell.2) = .error e := by
    intro e
    rw [← map_stepCells x y, FirstFailure.map, mapM_eq_error_iff]
    simp only [placeCell_eq_error_iff]
  have terrain : ∀ z, FirstFailure (StackCell.Fails lookup)
      ((Text.splitUnescaped '|' stack.terrain).map (⟨·, stack.terrainIsRequired⟩)) e ↔
      ((layerCells x y z stack.terrain).mapM fun cell =>
        floorTile lookup stack.terrainIsRequired cell.1 cell.2) = .error e := by
    intro z
    rw [← map_layerCells x y z, FirstFailure.map, mapM_eq_error_iff]
    simp only [floorTile_eq_error_iff]
  rw [Stack.cells, FirstFailure.append, ← FirstFailure.forall_not_iff]
  simp only [steps]
  cases raised : (stepCells x y stack.steps).mapM fun cell => placeCell lookup cell.1 cell.2 with
  | error e' => simp
  | ok tiles =>
    simp only [ok_bind]
    rw [terrain (terrainHeight (liftOver 0 tiles.reduceOption))]
    cases (layerCells x y (terrainHeight (liftOver 0 tiles.reduceOption)) stack.terrain).mapM
        fun cell => floorTile lookup stack.terrainIsRequired cell.1 cell.2 <;> simp

/-! ## Grids -/

/-- The tiles of a stack that is placed alone, where nothing was placed before it. -/
def tilesAlone (lookup : TileLookup) (flags : Flags) (stack : Nat × Nat × List Char) :
    Except UserError (List Tile) :=
  (SceneBuilder.empty.placeStack lookup flags stack.1 stack.2.1 stack.2.2).map (·.tiles.toList)

theorem tilesAlone_eq (lookup : TileLookup) (flags : Flags) (stack : Nat × Nat × List Char) :
    tilesAlone lookup flags stack = stackTiles lookup flags stack.1 stack.2.1 stack.2.2 := by
  rw [tilesAlone, SceneBuilder.placeStack_eq]
  cases stackTiles lookup flags stack.1 stack.2.1 stack.2.2 with
  | error e => rfl
  | ok tiles => simp [Except.map, SceneBuilder.tiles_pushAll, SceneBuilder.empty]

/-- A grid is its stacks, one by one, and its tiles are sorted in the end. -/
theorem ofText_eq_tilesAlone (lookup : TileLookup) (flags : Flags) (text : List Char) :
    Scene.ofText lookup flags text =
      ((stackTexts text).mapM (tilesAlone lookup flags)).map
        fun (lists : List (List Tile)) => .ofTiles lists.flatten := by
  rw [Scene.ofText_eq, funext (tilesAlone_eq lookup flags)]

/-- A grid can be read exactly if each of its stacks, which are the words of its lines, can be
placed alone. Its tiles are then those of the stacks in reading order, after a stable sort by draw
order. Otherwise its failure is that of the first stack that fails alone, and a stack fails with the
first of its cells that cannot be placed. -/
theorem ofText_stackwise (lookup : TileLookup) (flags : Flags) (text : List Char) :
    let grid := numbered (Text.wordLines text)
    ((∃ scene, Scene.ofText lookup flags text = .ok scene) ↔
        ∀ stack ∈ grid, ∃ tiles, tilesAlone lookup flags stack = .ok tiles) ∧
      (∀ scene, Scene.ofText lookup flags text = .ok scene →
        ∃ lists : List (List Tile), grid.map (tilesAlone lookup flags) = lists.map .ok ∧
          IsStableSort Tile.drawOrder lists.flatten scene.tiles) ∧
      (∀ e, Scene.ofText lookup flags text = .error e ↔
        FirstFailure (fun stack e => tilesAlone lookup flags stack = .error e) grid e) ∧
      ∀ stack e, tilesAlone lookup flags stack = .error e ↔
        FirstFailure (StackCell.Fails lookup) (Stack.ofText flags stack.2.2).cells e := by
  intro grid
  have run : Scene.ofText lookup flags text = (grid.mapM (tilesAlone lookup flags)).map
      fun (lists : List (List Tile)) => .ofTiles lists.flatten := by
    rw [ofText_eq_tilesAlone, stackTexts_eq]
  refine ⟨?_, ?_, ?_, ?_⟩
  · rw [run, ← exists_mapM_eq_ok_iff]
    cases grid.mapM (tilesAlone lookup flags) <;> simp [Except.map]
  · intro scene read
    rw [run] at read
    obtain ⟨lists, placed, rfl⟩ := map_eq_ok_iff.mp read
    exact ⟨lists, mapM_eq_ok_iff.mp placed, Tile.isStableSort_sort lists.flatten⟩
  · intro e
    rw [run, ← mapM_eq_error_iff]
    cases grid.mapM (tilesAlone lookup flags) <;> simp [Except.map]
  · intro stack e
    rw [tilesAlone_eq, stackTiles_eq_error_iff]

end IsoScene
