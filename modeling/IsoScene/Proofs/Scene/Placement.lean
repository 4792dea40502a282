import IsoScene.Proofs.Scene.Geometry
import IsoScene.Proofs.Text.Words
import IsoScene.Scene.Grid
import Mathlib.Order.Bounds.Defs

/-! # Placing stacks

The builder goes through all the stacks of a grid and carries its tiles and their envelope along.
Nothing of this state decides what a stack adds to it: `placeStack_eq` says that a stack adds the
tiles that it has alone (`stackTiles`) and that it fails as it fails alone. Hence a grid is its
stacks one by one (`ofText_eq`).

Whether a cell can be placed depends on its text alone, not on its place
(`placeCell_eq_error_iff`), so the failure of a stack can be read off the list of its cells
(`stackTiles_eq_error_iff`).
-/

namespace IsoScene

/-! ## What a stack has alone -/

/-- The name can be drawn: it is in the catalog, or it is the name of a text. -/
def TileLookup.Knows (lookup : TileLookup) (name : String) : Prop :=
  lookup name ≠ none ∨ "text_".toList <+: name.toList

theorem TileLookup.metadata?_eq_none_iff {lookup : TileLookup} {name : String} :
    lookup.metadata? name = none ↔ ¬ lookup.Knows name := by
  simp [metadata?, Knows, Option.or_eq_none_iff]

/-- How far a stack is lifted after some more tiles. -/
def liftOver (lift : Int) (tiles : List Tile) : Int :=
  tiles.foldl (fun lift tile => max lift tile.metadata.groundHeight) lift

/-- The heights to which a stack is lifted at least: where it has been, and those of its tiles. -/
def liftsOf (lift : Int) (tiles : List Tile) : Set Int :=
  {height | height = lift ∨ ∃ tile ∈ tiles, tile.metadata.groundHeight = height}

theorem isGreatest_liftOver (lift : Int) (tiles : List Tile) :
    IsGreatest (liftsOf lift tiles) (liftOver lift tiles) := by
  induction tiles generalizing lift with
  | nil =>
    refine ⟨.inl rfl, ?_⟩
    rintro height (rfl | ⟨_, ⟨⟩, _⟩)
    exact Int.le_refl _
  | cons tile tiles ih =>
    -- The later tiles start from the lift or from the first tile, whichever is higher.
    obtain ⟨reached, bounds⟩ := ih (max lift tile.metadata.groundHeight)
    have first := bounds (.inl rfl)
    refine ⟨?_, ?_⟩
    · rcases reached with unlifted | ⟨other, member, lifts⟩
      · rcases Int.le_total tile.metadata.groundHeight lift with lower | higher
        · exact .inl (unlifted.trans (Int.max_eq_left lower))
        · exact .inr ⟨tile, List.mem_cons_self, (unlifted.trans (Int.max_eq_right higher)).symm⟩
      · exact .inr ⟨other, List.mem_cons_of_mem tile member, lifts⟩
    · rintro height (rfl | ⟨other, member, rfl⟩)
      · exact Int.le_trans (Int.le_max_left _ _) first
      · rcases List.mem_cons.mp member with rfl | later
        · exact Int.le_trans (Int.le_max_right _ _) first
        · exact bounds (.inr ⟨other, later, rfl⟩)

theorem le_liftOver (lift : Int) (tiles : List Tile) : lift ≤ liftOver lift tiles :=
  (isGreatest_liftOver lift tiles).2 (.inl rfl)

/-- The tile of a cell of the terrain. -/
def floorTile (lookup : TileLookup) (isRequired : Bool) (position : Position Binary64)
    (text : List Char) : Except UserError (Option Tile) :=
  if isRequired || isKnown lookup text then placeCell lookup position text else .ok none

/-- The tiles of a stack: those of its steps, then those of its terrain. -/
def stackTiles (lookup : TileLookup) (flags : Flags) (x y : Nat) (text : List Char) :
    Except UserError (List Tile) := do
  let stack := Stack.ofText flags text
  let raised ← (stepCells x y stack.steps).mapM fun cell => placeCell lookup cell.1 cell.2
  let floor := terrainHeight (liftOver 0 raised.reduceOption)
  let ground ← (layerCells x y floor stack.terrain).mapM fun cell =>
    floorTile lookup stack.terrainIsRequired cell.1 cell.2
  .ok (raised.reduceOption ++ ground.reduceOption)

/-- The scene of some tiles: sorted, in the envelope of their places. -/
def Scene.ofTiles (tiles : List Tile) : Scene :=
  ⟨Envelope.ofPositions (tiles.map (·.position)), Tile.sort tiles⟩

@[simp] theorem Scene.mem_ofTiles {tile : Tile} {tiles : List Tile} :
    tile ∈ (Scene.ofTiles tiles).tiles ↔ tile ∈ tiles := by
  simp [ofTiles, Tile.sort]

/-! ## The builder only adds -/

namespace SceneBuilder

/-- The tiles of some cells more, where a cell may have none. -/
def pushSome (builder : SceneBuilder) (tile : Option Tile) : SceneBuilder :=
  tile.elim builder builder.push

def pushAll (builder : SceneBuilder) (tiles : List Tile) : SceneBuilder := tiles.foldl push builder

@[simp] theorem pushAll_nil (builder : SceneBuilder) : builder.pushAll [] = builder := rfl

theorem pushAll_cons (builder : SceneBuilder) (tile : Tile) (tiles : List Tile) :
    builder.pushAll (tile :: tiles) = (builder.push tile).pushAll tiles := rfl

theorem pushAll_append (builder : SceneBuilder) (tiles others : List Tile) :
    builder.pushAll (tiles ++ others) = (builder.pushAll tiles).pushAll others :=
  List.foldl_append

theorem tiles_pushAll (builder : SceneBuilder) (tiles : List Tile) :
    (builder.pushAll tiles).tiles.toList = builder.tiles.toList ++ tiles := by
  induction tiles generalizing builder with
  | nil => simp
  | cons tile tiles ih => rw [pushAll_cons, ih]; simp [push]

theorem bounds_pushAll {builder : SceneBuilder} {bounds : Envelope Binary64}
    (known : builder.bounds = some bounds) (tiles : List Tile) :
    (builder.pushAll tiles).bounds =
      some ((tiles.map (·.position)).foldl Envelope.extend bounds) := by
  induction tiles generalizing builder bounds with
  | nil => exact known
  | cons tile tiles ih =>
    have extended : (builder.push tile).bounds = some (bounds.extend tile.position) := by
      rw [push, known]
    rw [pushAll_cons, ih extended]
    rfl

/-- A builder that started empty has the scene of its tiles. -/
theorem scene_pushAll_empty (tiles : List Tile) : (empty.pushAll tiles).scene = .ofTiles tiles := by
  have sameTiles : (empty.pushAll tiles).tiles.toList = tiles := by simp [tiles_pushAll, empty]
  have sameBounds : (empty.pushAll tiles).bounds.getD .none =
      Envelope.ofPositions (tiles.map (·.position)) := by
    cases tiles with
    | nil => rfl
    | cons tile tiles =>
      have single : (empty.push tile).bounds = some (.single tile.position) := rfl
      rw [pushAll_cons, bounds_pushAll single]
      rfl
  rw [scene, Scene.ofTiles, sameTiles, sameBounds]

theorem foldl_pushSome (builder : SceneBuilder) (found : List (Option Tile)) :
    found.foldl pushSome builder = builder.pushAll found.reduceOption := by
  induction found generalizing builder with
  | nil => rfl
  | cons tile found ih =>
    cases tile with
    | none => exact ih builder
    | some tile => exact ih (builder.push tile)

theorem foldl_pushLifting (builder : SceneBuilder) (lift : Int) (found : List (Option Tile)) :
    found.foldl
        (fun state tile => (state.1.pushSome tile, liftOver state.2 tile.toList)) (builder, lift) =
      (builder.pushAll found.reduceOption, liftOver lift found.reduceOption) := by
  induction found generalizing builder lift with
  | nil => rfl
  | cons tile found ih =>
    rw [List.foldl_cons, ih]
    cases tile <;> rfl

theorem place_eq (lookup : TileLookup) (builder : SceneBuilder) (position : Position Binary64)
    (text : List Char) :
    builder.place lookup position text =
      (placeCell lookup position text).map fun tile =>
        (builder.pushSome tile, tile.map (·.metadata.groundHeight)) := by
  rw [place]
  cases placeCell lookup position text with
  | error e => rfl
  | ok tile => cases tile <;> rfl

theorem placeLayer_eq (lookup : TileLookup) (state : SceneBuilder × Int)
    (cell : Position Binary64 × List Char) :
    placeLayer lookup state cell =
      (placeCell lookup cell.1 cell.2).map fun tile =>
        (state.1.pushSome tile, liftOver state.2 tile.toList) := by
  obtain ⟨builder, lift⟩ := state
  obtain ⟨position, text⟩ := cell
  rw [placeLayer, place_eq]
  cases placeCell lookup position text with
  | error e => rfl
  | ok tile => cases tile <;> simp [Except.map, liftOver]

theorem placeFloor_eq (lookup : TileLookup) (isRequired : Bool) (builder : SceneBuilder)
    (cell : Position Binary64 × List Char) :
    placeFloor lookup isRequired builder cell =
      (floorTile lookup isRequired cell.1 cell.2).map builder.pushSome := by
  rw [placeFloor, floorTile, place_eq]
  split
  · cases placeCell lookup cell.1 cell.2 <;> rfl
  · rfl

/-- A stack adds the tiles that it has alone, and fails as it fails alone. -/
theorem placeStack_eq (lookup : TileLookup) (flags : Flags) (builder : SceneBuilder) (x y : Nat)
    (text : List Char) :
    builder.placeStack lookup flags x y text =
      (stackTiles lookup flags x y text).map builder.pushAll := by
  let stack := Stack.ofText flags text
  have steps := foldlM_eq_mapM (placeLayer_eq lookup) (builder, 0) (stepCells x y stack.steps)
  rw [placeStack, stackTiles]
  simp only [stack] at steps
  rw [steps]
  -- After the steps the lift is that of their tiles, whatever the builder held before.
  cases (stepCells x y (Stack.ofText flags text).steps).mapM
      fun cell => placeCell lookup cell.1 cell.2 with
  | error e => rfl
  | ok raised =>
    simp only [Except.map, foldl_pushLifting, ok_bind]
    rw [foldlM_eq_mapM (placeFloor_eq lookup stack.terrainIsRequired)]
    simp only [stack, foldl_pushSome]
    cases (layerCells x y (terrainHeight (liftOver 0 raised.reduceOption))
        (Stack.ofText flags text).terrain).mapM
        fun cell => floorTile lookup (Stack.ofText flags text).terrainIsRequired cell.1 cell.2 with
    | error e => rfl
    | ok ground => simp [Except.map, pushAll_append]

end SceneBuilder

theorem foldl_pushAll (builder : SceneBuilder) (lists : List (List Tile)) :
    lists.foldl SceneBuilder.pushAll builder = builder.pushAll lists.flatten := by
  induction lists generalizing builder with
  | nil => rfl
  | cons tiles lists ih => rw [List.foldl_cons, ih, List.flatten_cons, SceneBuilder.pushAll_append]

/-- A grid has the tiles of its stacks. -/
theorem Scene.ofText_eq (lookup : TileLookup) (flags : Flags) (text : List Char) :
    Scene.ofText lookup flags text =
      ((stackTexts text).mapM fun (x, y, stack) => stackTiles lookup flags x y stack).map
        fun (lists : List (List Tile)) => .ofTiles lists.flatten := by
  rw [Scene.ofText, foldlM_eq_mapM fun builder (stack : Nat × Nat × List Char) =>
    builder.placeStack_eq lookup flags stack.1 stack.2.1 stack.2.2]
  cases (stackTexts text).mapM fun stack => stackTiles lookup flags stack.1 stack.2.1 stack.2.2 with
  | error e => rfl
  | ok lists => simp [Except.map, foldl_pushAll, SceneBuilder.scene_pushAll_empty]

/-! ## Reading order -/

/-- Items in rows with their columns and rows, row by row. -/
def numbered {α : Type} (rows : List (List α)) : List (Nat × Nat × α) :=
  rows.zipIdx.flatMap fun (row, y) => row.zipIdx.map fun (item, x) => (x, y, item)

theorem numbered_map {α β : Type} (f : α → β) (rows : List (List α)) :
    numbered (rows.map (List.map f)) = (numbered rows).map fun (x, y, item) => (x, y, f item) := by
  simp only [numbered, List.zipIdx_map, List.flatMap_map, List.map_flatMap, List.map_map,
    Prod.map_fst, Prod.map_snd]
  rfl

theorem exists_row_of_mem_numbered {α : Type} {rows : List (List α)} {x y : Nat} {item : α}
    (member : (x, y, item) ∈ numbered rows) :
    ∃ row ∈ rows, item ∈ row ∧ x < row.length ∧ y < rows.length := by
  obtain ⟨⟨row, _⟩, isRow, inRow⟩ := List.mem_flatMap.mp member
  obtain ⟨⟨_, _⟩, isItem, same⟩ := List.mem_map.mp inRow
  simp only [Prod.mk.injEq] at same
  obtain ⟨rfl, rfl, rfl⟩ := same
  have column := List.snd_lt_of_mem_zipIdx isItem
  have line := List.snd_lt_of_mem_zipIdx isRow
  exact ⟨row, List.fst_mem_of_mem_zipIdx isRow, List.fst_mem_of_mem_zipIdx isItem,
    by simpa using column, by simpa using line⟩

/-- The stacks of a grid are the words of its lines. -/
theorem stackTexts_eq (text : List Char) : stackTexts text = numbered (Text.wordLines text) := by
  simp [stackTexts, numbered, Text.wordLines, List.zipIdx_map, List.flatMap_map]

end IsoScene
