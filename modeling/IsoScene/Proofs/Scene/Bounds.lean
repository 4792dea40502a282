import IsoScene.Proofs.Binary64.Grid
import IsoScene.Proofs.Scene.Places
import Mathlib.Order.Bounds.Defs

/-! # The envelope of a scene

The coordinates of tiles are numbers: they start as whole numbers or quarters, and displacements are
finite (`isNumeric_of_ofText`). The order of keys is then the order of numbers, and so a run that
keeps the greater or the lesser of two coordinates ends with the greatest or the least of all
(`foldl_choice`).
-/

namespace IsoScene

open Binary64

/-! ## The height of the terrain -/

theorem onGrid_terrainHeight {lift : Int} {limit : ℚ} (small : |(lift : ℚ)| ≤ limit)
    (room : (1 + limit / 2 ^ 2) * 2 ^ 2 < 2 ^ 53) :
    OnGrid 2 (1 + limit / 2 ^ 2) (terrainHeight lift) (-1 - lift / 4) := by
  -- A quarter has two binary places, and one step below the ground adds none: nothing is rounded.
  have short : limit < 2 ^ 53 := by linarith
  have below : OnGrid 0 1 (ofInt (-1)) ((-1 : Int) : ℚ) := .ofInt (by norm_num)
  have four : (ofInt 4).Denotes ((4 : Int) : ℚ) := ofInt_denotes (by decide)
  have quarters := (OnGrid.ofInt small short).div 2 (by norm_num at four ⊢; exact four)
    (by simpa using short)
  have height := below.sub quarters room
  have same : ((-1 : Int) : ℚ) - lift / 2 ^ 2 = -1 - lift / 4 := by norm_num
  exact same ▸ height

theorem isNaN_terrainHeight (lift : Int) : (terrainHeight lift).isNaN = false :=
  isNaN_sub (ofInt_denotes (by decide))
    (isNaN_div (isNaN_ofInt lift) (ofInt_denotes (by decide)) (by decide))

/-! ## Coordinates are numbers -/

/-- All the coordinates are numbers. -/
structure Position.IsNumeric (place : Position Binary64) : Prop where
  x : place.x.isNaN = false
  y : place.y.isNaN = false
  z : place.z.isNaN = false
  p : place.p.isNaN = false

theorem HeightAmong.isNaN {steps : Nat} {tiles : List Tile} {z : Binary64}
    (height : HeightAmong steps tiles z) : z.isNaN = false := by
  cases height with
  | step number inside => exact isNaN_ofInt number
  | terrain lift nonneg lifted => exact isNaN_terrainHeight lift

theorem Stands.isNumeric {flags : Flags} {text : List Char} {tiles : List Tile}
    {position : Position Binary64} {cell : StackCell}
    (stands : Stands flags text tiles position cell) : position.IsNumeric := by
  cases stands with
  | mk p inGrid inStack height => exact ⟨isNaN_ofInt _, isNaN_ofInt _, height.isNaN, isNaN_ofInt _⟩

namespace GeometricEffect

theorem isFinite_of_parseDisplace {arguments : List String} {dx dy dz : Binary64}
    (parsed : parseDisplace arguments = .ok (.displace dx dy dz)) :
    dx.isFinite = true ∧ dy.isFinite = true ∧ dz.isFinite = true := by
  rw [parseDisplace.eq_def] at parsed
  split at parsed
  · obtain ⟨x, -, parsed⟩ := bind_eq_ok_iff.mp parsed
    obtain ⟨y, -, parsed⟩ := bind_eq_ok_iff.mp parsed
    obtain ⟨z, -, parsed⟩ := bind_eq_ok_iff.mp parsed
    split at parsed
    · next finite =>
      obtain ⟨rfl, rfl, rfl⟩ := GeometricEffect.displace.inj (Except.ok.inj parsed)
      simpa [and_assoc] using finite
    · simp at parsed
  · simp at parsed

/-- Displacements that can be read are finite. -/
theorem isFinite_of_parse {v : Variant} {dx dy dz : Binary64}
    (parsed : parse v = .ok (some (.displace dx dy dz))) :
    dx.isFinite = true ∧ dy.isFinite = true ∧ dz.isFinite = true := by
  rw [parse] at parsed
  split at parsed
  · obtain ⟨effect, read, same⟩ := map_eq_ok_iff.mp parsed
    rw [Option.some.inj same] at read
    exact isFinite_of_parseDisplace read
  · split at parsed
    · simp at parsed
    · cases orientation? v.name <;> simp at parsed

end GeometricEffect

theorem Displaces.isFinite {lookup : TileLookup} {flags : Flags} {text : List Char}
    {dx dy dz : Binary64} (displaces : Displaces lookup flags text dx dy dz) :
    dx.isFinite = true ∧ dy.isFinite = true ∧ dz.isFinite = true := by
  obtain ⟨_, -, _, -, _, -, -, v, -, parsed⟩ := displaces
  exact GeometricEffect.isFinite_of_parse parsed

theorem isNumeric_of_ofText {lookup : TileLookup} {flags : Flags} {text : List Char} {scene : Scene}
    (read : Scene.ofText lookup flags text = .ok scene) :
    ∀ tile ∈ scene.tiles, tile.position.IsNumeric := by
  refine forall_place_of_ofText read (·.IsNumeric) (fun _ _ => Stands.isNumeric) ?_
  intro dx dy dz displaces place ⟨x, y, z, p⟩
  obtain ⟨finiteX, finiteY, finiteZ⟩ := displaces.isFinite
  exact ⟨isNaN_add x finiteX, isNaN_add y finiteY, isNaN_add z finiteZ, p⟩

/-! ## Greatest and least coordinates -/

/-- A run that keeps one of two items, the one that comes later in an order, ends with one that no
item comes after. -/
theorem foldl_choice {α : Type} (choose : α → α → α) (le : α → α → Prop) (refl : ∀ a, le a a)
    (trans : ∀ a b c, le a b → le b c → le a c) {x : α} {xs : List α}
    (chooses : ∀ a ∈ x :: xs, ∀ b ∈ x :: xs,
      choose a b = a ∧ le b a ∨ choose a b = b ∧ le a b) :
    xs.foldl choose x ∈ x :: xs ∧ ∀ a ∈ x :: xs, le a (xs.foldl choose x) := by
  induction xs generalizing x with
  | nil => simp [refl]
  | cons y ys ih =>
    rw [List.foldl_cons]
    have isX : x ∈ x :: y :: ys := List.mem_cons_self
    have isY : y ∈ x :: y :: ys := List.mem_cons_of_mem x List.mem_cons_self
    -- The run goes on with one of the first two items, and the other one is not above it.
    rcases chooses x isX y isY with ⟨chosen, below⟩ | ⟨chosen, below⟩
    all_goals rw [chosen]
    · have fewer : ∀ a ∈ x :: ys, a ∈ x :: y :: ys := by simp +contextual
      obtain ⟨reached, bounds⟩ := ih fun a ha b hb => chooses a (fewer a ha) b (fewer b hb)
      refine ⟨fewer _ reached, List.forall_mem_cons.mpr ⟨bounds x List.mem_cons_self, ?_⟩⟩
      refine List.forall_mem_cons.mpr ⟨trans _ _ _ below (bounds x List.mem_cons_self), ?_⟩
      exact fun a later => bounds a (List.mem_cons_of_mem x later)
    · have fewer : ∀ a ∈ y :: ys, a ∈ x :: y :: ys := fun a => List.mem_cons_of_mem x
      obtain ⟨reached, bounds⟩ := ih fun a ha b hb => chooses a (fewer a ha) b (fewer b hb)
      exact ⟨fewer _ reached, List.forall_mem_cons.mpr
        ⟨trans _ _ _ below (bounds y List.mem_cons_self), bounds⟩⟩

section
variable {x : Binary64} {xs : List Binary64} (numbers : ∀ a ∈ x :: xs, a.isNaN = false)
include numbers

theorem isGreatest_foldl_maximum : IsGreatest {a | a ∈ x :: xs} (xs.foldl maximum x) := by
  obtain ⟨reached, bounds⟩ := foldl_choice maximum (fun a b => a.key ≤ b.key)
    (fun _ => Int.le_refl _) (fun _ _ _ => Int.le_trans) fun a ha b hb => by
      rw [maximum, numbers a ha, numbers b hb]
      by_cases less : a.key < b.key <;> simp [less] <;> omega
  exact ⟨reached, fun a ha => le_of_key_le (numbers a ha) (numbers _ reached) (bounds a ha)⟩

theorem isLeast_foldl_minimum : IsLeast {a | a ∈ x :: xs} (xs.foldl minimum x) := by
  obtain ⟨reached, bounds⟩ := foldl_choice minimum (fun a b => b.key ≤ a.key)
    (fun _ => Int.le_refl _) (fun _ _ _ below above => Int.le_trans above below) fun a ha b hb => by
      rw [minimum, numbers a ha, numbers b hb]
      by_cases less : b.key < a.key <;> simp [less] <;> omega
  exact ⟨reached, fun a ha => le_of_key_le (numbers _ reached) (numbers a ha) (bounds a ha)⟩

end

namespace Envelope

/-- Each bound bounds its coordinate over all the places, and one of them reaches it. -/
structure IsTight (e : Envelope Binary64) (places : List (Position Binary64)) : Prop where
  width : IsGreatest {x | ∃ place ∈ places, place.x = x} e.width
  height : IsGreatest {y | ∃ place ∈ places, place.y = y} e.height
  minDepth : IsLeast {z | ∃ place ∈ places, place.z = z} e.minDepth
  maxDepth : IsGreatest {z | ∃ place ∈ places, place.z = z} e.maxDepth
  pixelDepth : IsGreatest {p | ∃ place ∈ places, place.p = p} e.pixelDepth

theorem foldl_extend (e : Envelope Binary64) (places : List (Position Binary64)) :
    places.foldl extend e =
      ⟨(places.map (·.x)).foldl maximum e.width, (places.map (·.y)).foldl maximum e.height,
        (places.map (·.z)).foldl minimum e.minDepth, (places.map (·.z)).foldl maximum e.maxDepth,
        (places.map (·.p)).foldl maximum e.pixelDepth⟩ := by
  induction places generalizing e with
  | nil => rfl
  | cons place places ih =>
    rw [List.foldl_cons, ih]
    rfl

theorem isTight_ofPositions {places : List (Position Binary64)} (nonempty : places ≠ [])
    (numeric : ∀ place ∈ places, place.IsNumeric) : (ofPositions places).IsTight places := by
  obtain ⟨first, rest, rfl⟩ := List.exists_cons_of_ne_nil nonempty
  rw [ofPositions, foldl_extend]
  -- The run starts with the bounds of the first place, so that is among the candidates.
  have among (view : Position Binary64 → Binary64) :
      {a | ∃ place ∈ first :: rest, view place = a} = {a | a ∈ view first :: rest.map view} := by
    ext a
    simp [eq_comm]
  have numbers {view : Position Binary64 → Binary64}
      (isNaN : ∀ place : Position Binary64, place.IsNumeric → (view place).isNaN = false) :
      ∀ a ∈ view first :: rest.map view, a.isNaN = false := by
    rw [← List.map_cons]
    exact List.forall_mem_map.mpr fun place member => isNaN place (numeric place member)
  constructor
  · exact among (·.x) ▸ isGreatest_foldl_maximum (numbers fun _ => (·.x))
  · exact among (·.y) ▸ isGreatest_foldl_maximum (numbers fun _ => (·.y))
  · exact among (·.z) ▸ isLeast_foldl_minimum (numbers fun _ => (·.z))
  · exact among (·.z) ▸ isGreatest_foldl_maximum (numbers fun _ => (·.z))
  · exact among (·.p) ▸ isGreatest_foldl_maximum (numbers fun _ => (·.p))

/-- The order of the places does not matter. -/
theorem IsTight.congr {e : Envelope Binary64} {places others : List (Position Binary64)}
    (tight : e.IsTight places) (same : ∀ place, place ∈ places ↔ place ∈ others) :
    e.IsTight others := by
  have among (view : Position Binary64 → Binary64) :
      {a | ∃ place ∈ places, view place = a} = {a | ∃ place ∈ others, view place = a} := by
    ext a
    simp [same]
  obtain ⟨width, height, minDepth, maxDepth, pixelDepth⟩ := tight
  rw [among (·.x)] at width
  rw [among (·.y)] at height
  rw [among (·.z)] at minDepth maxDepth
  rw [among (·.p)] at pixelDepth
  exact ⟨width, height, minDepth, maxDepth, pixelDepth⟩

end Envelope

theorem isTight_of_mem_ofText {lookup : TileLookup} {flags : Flags} {text : List Char}
    {scene : Scene} (read : Scene.ofText lookup flags text = .ok scene) {tile : Tile}
    (member : tile ∈ scene.tiles) : scene.bounds.IsTight (scene.tiles.map (·.position)) := by
  have numeric := isNumeric_of_ofText read
  rw [Scene.ofText_eq, map_eq_ok_iff] at read
  obtain ⟨lists, -, rfl⟩ := read
  have nonempty : lists.flatten.map (·.position) ≠ [] :=
    List.ne_nil_of_mem (List.mem_map_of_mem (Scene.mem_ofTiles.mp member))
  -- The envelope is that of the tiles as they were placed, and they are sorted afterwards.
  refine (Envelope.isTight_ofPositions nonempty ?_).congr fun place => ?_
  · exact List.forall_mem_map.mpr fun other among => numeric other (Scene.mem_ofTiles.mpr among)
  · simp only [List.mem_map, Scene.mem_ofTiles]

theorem bounds_of_no_tiles {lookup : TileLookup} {flags : Flags} {text : List Char} {scene : Scene}
    (read : Scene.ofText lookup flags text = .ok scene) (empty : scene.tiles = []) :
    scene.bounds = .none := by
  rw [Scene.ofText_eq, map_eq_ok_iff] at read
  obtain ⟨lists, -, rfl⟩ := read
  have nothing : lists.flatten = [] := by
    simpa only [List.eq_nil_iff_forall_not_mem, Scene.mem_ofTiles] using empty
  rw [nothing]
  rfl

/-- The bounds of a scene are the true envelope of its tiles, wherever they have been moved: no
coordinate is undefined, and each bound is the greatest or the least of a coordinate over all the
tiles. Without tiles all the bounds are zero. -/
theorem bounds_of_ofText {lookup : TileLookup} {flags : Flags} {text : List Char} {scene : Scene}
    (read : Scene.ofText lookup flags text = .ok scene) :
    (∀ tile ∈ scene.tiles, tile.position.IsNumeric) ∧
      (scene.tiles = [] → scene.bounds = .none) ∧
      (scene.tiles ≠ [] → scene.bounds.IsTight (scene.tiles.map (·.position))) := by
  refine ⟨isNumeric_of_ofText read, bounds_of_no_tiles read, fun nonempty => ?_⟩
  obtain ⟨tile, member⟩ := List.exists_mem_of_ne_nil _ nonempty
  exact isTight_of_mem_ofText read member

/-- A hill lowers the terrain below it, and a text has been moved to the left and to the front. -/
theorem bounds_of_ofText_displaced :
    let lookup : TileLookup := fun name =>
      if name = "hill" then some ⟨false, 2, 1, false, ""⟩
      else if name = "terrain_0" then some TileMetadata.text else none
    ∃ scene, Scene.ofText lookup .standard "hill .\n$a:disp/-3/0.5/0".toList = .ok scene ∧
      scene.bounds = ⟨ofNat 1, ofRatio false 3 2, ofRatio true 3 2, zero false, zero false⟩ ∧
      (∀ tile ∈ scene.tiles, tile.position.IsNumeric) ∧
      scene.bounds.IsTight (scene.tiles.map (·.position)) := by
  intro lookup
  have found : (Scene.ofText lookup .standard "hill .\n$a:disp/-3/0.5/0".toList).map (·.bounds) =
      .ok ⟨ofNat 1, ofRatio false 3 2, ofRatio true 3 2, zero false, zero false⟩ := by
    decide +kernel
  obtain ⟨scene, read, bounds⟩ := map_eq_ok_iff.mp found
  obtain ⟨numeric, empty, tight⟩ := bounds_of_ofText read
  refine ⟨scene, read, bounds, numeric, tight fun nothing => ?_⟩
  have width := congrArg Envelope.width ((empty nothing).symm.trans bounds)
  exact absurd width (by decide)

end IsoScene
