import IsoScene.Proofs.Scene.OneGround
import Mathlib.Data.List.ReduceOption

/-! # Probing a ground

Scenes show what a ground places. A lone stack without tiles shows whether it fails
(`error_iff_of_sameScenes`). To see its tiles in some column below tiles that lift it, a probe is put
there: a tile with a name that the ground does not use. The columns before the probe hold no tiles
of their own, so by induction their grounds are known, and what is left of the scene is the ground
below the probe (`sameGround_of_sameScenes`).
-/

namespace IsoScene

open Text

/-! ## A lone stack -/

theorem stackOn_point (lookup : TileLookup) (ground : List Char) (x y : Nat) :
    stackOn lookup ground x y ['.'] = groundTiles lookup x y 0 ground := by
  have empty : placeCell lookup (.ofColumn x y (Binary64.ofNat 0) 0) ['.'] = .ok none := rfl
  have cells : stepCells x y ['.'] = [(.ofColumn x y (Binary64.ofNat 0) 0, ['.'])] := rfl
  rw [stackOn, cells]
  simp only [List.mapM_cons, List.mapM_nil, empty]
  show (groundTiles lookup x y 0 ground >>= fun floor => .ok ([] ++ floor)) = _
  cases groundTiles lookup x y 0 ground <;> rfl

theorem stackTexts_point : stackTexts ['.'] = [(0, 0, ['.'])] := rfl

theorem namesNoGround_point : NamesNoGround ['.'] := by
  intro stack member
  rw [stackTexts_point] at member
  obtain rfl := List.mem_singleton.mp member
  rfl

theorem sceneOn_point (lookup : TileLookup) (ground : List Char) :
    sceneOn lookup ground ['.'] = (groundTiles lookup 0 0 0 ground).map Scene.ofTiles := by
  rw [sceneOn, stackTexts_point]
  simp only [List.mapM_cons, List.mapM_nil, stackOn_point]
  cases groundTiles lookup 0 0 0 ground <;> simp [Except.map, pure, Except.pure]

theorem groundTiles_error_iff {lookup : TileLookup} {ground : List Char} {e : UserError}
    (x y x' y' : Nat) (lift lift' : Int) :
    groundTiles lookup x y lift ground = .error e ↔
      groundTiles lookup x' y' lift' ground = .error e := by
  rw [groundTiles_eq_error_iff, groundTiles_eq_error_iff]

/-- Two grounds give the same scenes. -/
def SameScenes (ground other : List Char) : Prop :=
  ∀ lookup grid, NamesNoGround grid → sceneOn lookup ground grid = sceneOn lookup other grid

theorem error_iff_of_sameScenes {ground other : List Char} (same : SameScenes ground other)
    {lookup : TileLookup} {x y : Nat} {lift : Int} {e : UserError} :
    groundTiles lookup x y lift ground = .error e ↔
      groundTiles lookup x y lift other = .error e := by
  have fails : ∀ ground, sceneOn lookup ground ['.'] = .error e ↔
      groundTiles lookup x y lift ground = .error e := by
    intro ground
    rw [sceneOn_point, groundTiles_error_iff x y 0 0 lift 0]
    cases groundTiles lookup 0 0 0 ground <;> simp [Except.map]
  rw [← fails, ← fails, same lookup ['.'] namesNoGround_point]

/-! ## Probes -/

/-- A grid with one stack in some place and points in front of it. -/
def probeGrid (x y : Nat) (stack : List Char) : List Char :=
  joinWith '\n' (List.replicate y [] ++ [joinWith ' ' (List.replicate x ['.'] ++ [stack])])

theorem zipIdx_replicate {α : Type} (item : α) (count : Nat) :
    (List.replicate count item).zipIdx = (List.range count).map fun i => (item, i) := by
  apply List.ext_getElem <;> simp

theorem numbered_probeGrid (x y : Nat) (stack : List Char) :
    numbered (List.replicate y [] ++ [List.replicate x ['.'] ++ [stack]]) =
      (List.range x).map (fun i => (i, y, ['.'])) ++ [(x, y, stack)] := by
  simp [numbered, List.zipIdx_append, zipIdx_replicate, List.flatMap_map, Function.comp_def]

theorem stackTexts_probeGrid {stack : List Char} (isWord : IsWord stack) (x y : Nat) :
    stackTexts (probeGrid x y stack) =
      (List.range x).map (fun i => (i, y, ['.'])) ++ [(x, y, stack)] := by
  let rows := List.replicate y [] ++ [List.replicate x ['.'] ++ [stack]]
  have areWords : ∀ row ∈ rows, ∀ w ∈ row, IsWord w := by
    intro row isRow w member
    rcases List.mem_append.mp isRow with isEmpty | isLast
    · obtain rfl := List.eq_of_mem_replicate isEmpty
      simp at member
    · obtain rfl := List.mem_singleton.mp isLast
      rcases List.mem_append.mp member with isPoint | isStack
      · obtain rfl := List.eq_of_mem_replicate isPoint
        exact ⟨by simp, by simp; decide⟩
      · obtain rfl := List.mem_singleton.mp isStack
        exact isWord
  have grid : probeGrid x y stack = joinWith '\n' (rows.map (joinWith ' ')) := by
    simp [probeGrid, rows, joinWith]
  rw [stackTexts_eq, grid, wordLines_joinWith_words (by simp [rows]) areWords, numbered_probeGrid]

/-- A name that no cell of a list has. -/
theorem exists_fresh (names : List String) :
    ∃ count, String.ofList (List.replicate (count + 1) 'x') ∉ names := by
  have bounded : ∃ bound, ∀ name ∈ names, name.length ≤ bound := by
    induction names with
    | nil => exact ⟨0, by simp⟩
    | cons name names ih =>
      obtain ⟨bound, below⟩ := ih
      refine ⟨max name.length bound, List.forall_mem_cons.mpr ⟨Nat.le_max_left _ _, ?_⟩⟩
      intro other member
      exact Nat.le_trans (below other member) (Nat.le_max_right _ _)
  obtain ⟨bound, below⟩ := bounded
  refine ⟨bound, fun member => ?_⟩
  have := below _ member
  simp only [String.length_ofList, List.length_replicate] at this
  omega

section
variable (count : Nat)

def probe : List Char := List.replicate (count + 1) 'x'

theorem isWord_probe : IsWord (probe count) := by
  refine ⟨by simp [probe], fun c member => ?_⟩
  obtain rfl := List.eq_of_mem_replicate member
  decide

theorem hasBare_probe {sep : Char} (other : 'x' ≠ sep) : hasBare sep (probe count) = false := by
  have plain : 'x' ≠ '\\' := by decide
  have all : ∀ n, hasBare sep (List.replicate n 'x') = false := by
    intro n
    induction n with
    | zero => rfl
    | succ n ih =>
      rw [List.replicate_succ, hasBare_plain plain, ih]
      simpa using other
  exact all (count + 1)

theorem parse?_probe : Cell.parse? (probe count) = some ⟨String.ofList (probe count), []⟩ := by
  have plainFront : IsPlainFront (probe count) := by
    refine ⟨by simp [probe], fun c member => ?_⟩
    obtain rfl := List.eq_of_mem_replicate member
    decide
  have cut : splitUnescaped ':' [] = [[]] := rfl
  have parsed := parse?_append_front plainFront cut
  have noName : unescape [] = [] := rfl
  have noShorthand : expandName (probe count) = probe count := by
    apply expandName_of_no_shorthand
    simp [probe, List.replicate_succ]
  rw [noName, List.append_nil, noShorthand] at parsed
  exact parsed

/-- The catalog with the name of a probe in it. -/
def probeLookup (lookup : TileLookup) (lift : Int) : TileLookup := fun name =>
  if name = String.ofList (probe count) then some { TileMetadata.text with groundHeight := lift }
  else lookup name

theorem groundTiles_probeLookup {lookup : TileLookup} {ground : List Char} {lift : Int}
    (fresh : ∀ cell, some cell ∈ groundCells ground → cell.name ≠ String.ofList (probe count))
    (x y : Nat) (lift' : Int) :
    groundTiles (probeLookup count lookup lift) x y lift' ground =
      groundTiles lookup x y lift' ground := by
  apply groundTiles_congr
  intro cell member
  simp [TileLookup.metadata?, probeLookup, fresh cell member]

def probeTile (lift : Int) (x y : Nat) : Tile :=
  .new (String.ofList (probe count)) (.ofColumn x y (Binary64.ofNat 0) 0) []
    { TileMetadata.text with groundHeight := lift }

theorem stackOn_probe (lookup : TileLookup) (ground : List Char) {lift : Int} (above : 0 ≤ lift)
    (x y : Nat) :
    stackOn (probeLookup count lookup lift) ground x y (probe count) =
      (groundTiles (probeLookup count lookup lift) x y lift ground).map
        (probeTile count lift x y :: ·) := by
  let position : Position Binary64 := .ofColumn x y (Binary64.ofNat 0) 0
  let tile := probeTile count lift x y
  have cells : stepCells x y (probe count) = [(position, probe count)] := by
    have steps : splitUnescaped '&' (probe count) = [probe count] :=
      splitUnescaped_of_not_hasBare (hasBare_probe count (by decide))
    have layers : splitUnescaped '|' (probe count) = [probe count] :=
      splitUnescaped_of_not_hasBare (hasBare_probe count (by decide))
    simp [stepCells, layerCells, steps, layers, position]
  have placed : placeCell (probeLookup count lookup lift) position (probe count) =
      .ok (some tile) := by
    rw [placeCell_eq, parse?_probe, placeRead]
    simp [TileLookup.metadata?, probeLookup]
    rfl
  have lifted : liftOver 0 [tile] = lift := Int.max_eq_right above
  rw [stackOn, cells]
  simp only [List.mapM_cons, List.mapM_nil, placed]
  show (groundTiles (probeLookup count lookup lift) x y (liftOver 0 [tile]) ground >>=
    fun floor => .ok ([tile] ++ floor)) = _
  rw [lifted]
  cases groundTiles (probeLookup count lookup lift) x y lift ground <;> rfl

theorem namesNoGround_probeGrid (x y : Nat) : NamesNoGround (probeGrid x y (probe count)) := by
  intro stack member
  rw [stackTexts_probeGrid (isWord_probe count)] at member
  rcases List.mem_append.mp member with isPoint | isProbe
  · obtain ⟨i, -, rfl⟩ := List.mem_map.mp isPoint
    rfl
  · obtain rfl := List.mem_singleton.mp isProbe
    exact hasBare_probe count (by decide)

theorem sceneOn_probeGrid (lookup : TileLookup) (ground : List Char) {lift : Int}
    (above : 0 ≤ lift) (x y : Nat) :
    sceneOn (probeLookup count lookup lift) ground (probeGrid x y (probe count)) = (do
      let before ← (List.range x).mapM fun i =>
        groundTiles (probeLookup count lookup lift) i y 0 ground
      let below ← groundTiles (probeLookup count lookup lift) x y lift ground
      .ok (.ofTiles (before.flatten ++ probeTile count lift x y :: below))) := by
  have points : ((fun (stack : Nat × Nat × List Char) =>
        stackOn (probeLookup count lookup lift) ground stack.1 stack.2.1 stack.2.2) ∘
      fun i => (i, y, ['.'])) = fun i => groundTiles (probeLookup count lookup lift) i y 0 ground :=
    funext fun i => stackOn_point (probeLookup count lookup lift) ground i y
  rw [sceneOn, stackTexts_probeGrid (isWord_probe count), List.mapM_append, List.mapM_map]
  simp only [points, stackOn_probe count lookup ground above, List.mapM_cons, List.mapM_nil]
  cases (List.range x).mapM fun i =>
      groundTiles (probeLookup count lookup lift) i y 0 ground with
  | error e => rfl
  | ok before =>
    cases groundTiles (probeLookup count lookup lift) x y lift ground with
    | error e => rfl
    | ok below => simp [Except.map, pure, Except.pure]

end

/-! ## What the probes show -/

/-- If the grounds in the columns before a probe are the same, the grounds below the probe have the
same tiles. -/
theorem perm_of_sameScenes {ground other : List Char} (same : SameScenes ground other)
    {lookup : TileLookup} {count x y : Nat} {lift : Int} (above : 0 ≤ lift)
    (sameBefore : ∀ i < x, groundTiles (probeLookup count lookup lift) i y 0 ground =
      groundTiles (probeLookup count lookup lift) i y 0 other)
    {tiles others : List Tile}
    (placed : groundTiles (probeLookup count lookup lift) x y lift ground = .ok tiles)
    (placedToo : groundTiles (probeLookup count lookup lift) x y lift other = .ok others) :
    tiles.Perm others := by
  -- The ground fails nowhere, since it does not fail below the probe.
  obtain ⟨before, run⟩ : ∃ before, (List.range x).mapM (fun i =>
      groundTiles (probeLookup count lookup lift) i y 0 ground) = .ok before := by
    rw [exists_mapM_eq_ok_iff]
    intro i _
    rw [← not_error_iff]
    intro e failed
    rw [groundTiles_error_iff i y x y 0 lift, placed] at failed
    simp at failed
  have runToo : (List.range x).mapM (fun i =>
      groundTiles (probeLookup count lookup lift) i y 0 other) = .ok before := by
    rw [← run]
    exact mapM_congr fun i inside => (sameBefore i (List.mem_range.mp inside)).symm
  have scenes := same (probeLookup count lookup lift) (probeGrid x y (probe count))
    (namesNoGround_probeGrid count x y)
  rw [sceneOn_probeGrid count lookup ground above, sceneOn_probeGrid count lookup other above, run,
    runToo, placed, placedToo] at scenes
  have sorted : Tile.sort (before.flatten ++ probeTile count lift x y :: tiles) =
      Tile.sort (before.flatten ++ probeTile count lift x y :: others) :=
    congrArg Scene.tiles (Except.ok.inj scenes)
  have perm : (before.flatten ++ probeTile count lift x y :: tiles).Perm
      (before.flatten ++ probeTile count lift x y :: others) :=
    (List.mergeSort_perm _ _).symm.trans ((List.Perm.of_eq sorted).trans (List.mergeSort_perm _ _))
  exact ((List.perm_append_left_iff _).mp perm).cons_inv

/-- Grounds that give the same scenes are the same below every stack. -/
theorem sameGround_of_sameScenes {ground other : List Char}
    (short : (groundCells ground).length ≤ 2 ^ 53)
    (shortToo : (groundCells other).length ≤ 2 ^ 53) (same : SameScenes ground other) :
    SameGround ground other := by
  intro lookup x y lift above
  -- The catalog is generalized too, since the columns before the probe are seen with the probe in it.
  induction x using Nat.strongRecOn generalizing lookup lift with
  | ind x before =>
    cases placed : groundTiles lookup x y lift ground with
    | error e => exact ((error_iff_of_sameScenes same).mp placed).symm
    | ok tiles =>
      cases placedToo : groundTiles lookup x y lift other with
      | error e =>
        have failed := (error_iff_of_sameScenes same).mpr placedToo
        rw [placed] at failed
        simp at failed
      | ok others =>
        let names := ((groundCells ground ++ groundCells other).reduceOption).map Cell.name
        obtain ⟨count, fresh⟩ := exists_fresh names
        have freshFor : ∀ cell, some cell ∈ groundCells ground ++ groundCells other →
            cell.name ≠ String.ofList (probe count) := by
          rintro cell member isProbe
          apply fresh
          rw [← probe, ← isProbe]
          exact List.mem_map_of_mem (List.reduceOption_mem_iff.mpr member)
        have unused := @groundTiles_probeLookup count lookup ground lift
          (fun cell member => freshFor cell (List.mem_append_left _ member)) x y lift
        have unusedToo := @groundTiles_probeLookup count lookup other lift
          (fun cell member => freshFor cell (List.mem_append_right _ member)) x y lift
        rw [← unused] at placed
        rw [← unusedToo] at placedToo
        have perm := perm_of_sameScenes same above
          (fun i inside => before i inside (probeLookup count lookup lift) 0 (Int.le_refl 0))
          placed placedToo
        rw [eq_of_perm_groundTiles short shortToo placed placedToo perm]

end IsoScene
