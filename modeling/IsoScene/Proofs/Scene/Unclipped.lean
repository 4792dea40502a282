import IsoScene.Proofs.Scene.Bounds
import IsoScene.Proofs.Scene.Canvas
import IsoScene.Proofs.Scene.Described
import IsoScene.Proofs.Text.Escapes

/-! # Nothing is clipped

The tiles of a scene are within its envelope as soon as no displacement is negative on the ground
(`holds_of_ofText`), because places start at whole columns and rows. Without displacements the
coordinates are whole numbers and quarters, which are moderate if the text is
(`moderate_of_ofText`), so that the sprites are on the canvas also in `Binary64`.
-/

namespace IsoScene

open Binary64

variable {lookup : TileLookup} {flags : Flags} {text : List Char} {scene : Scene}

/-! ## Tiles within the envelope -/

theorem nonneg_of_ofText (read : Scene.ofText lookup flags text = .ok scene)
    (forward : ∀ dx dy dz, Displaces lookup flags text dx dy dz →
      zero false ≤ dx ∧ zero false ≤ dy) :
    ∀ tile ∈ scene.tiles, zero false ≤ tile.position.x ∧ zero false ≤ tile.position.y := by
  refine forall_place_of_ofText read
    (fun place => zero false ≤ place.x ∧ zero false ≤ place.y) ?_ ?_
  · -- Columns and rows are counted from zero.
    rintro _ _ ⟨_, _, _, _⟩
    exact ⟨zero_le_ofNat _, zero_le_ofNat _⟩
  · intro dx dy dz displaces place ⟨x, y⟩
    obtain ⟨rightwards, forwards⟩ := forward dx dy dz displaces
    exact ⟨zero_le_add x rightwards, zero_le_add y forwards⟩

theorem holds_of_ofText (read : Scene.ofText lookup flags text = .ok scene)
    (forward : ∀ dx dy dz, Displaces lookup flags text dx dy dz →
      zero false ≤ dx ∧ zero false ≤ dy) :
    ∀ tile ∈ scene.tiles, scene.bounds.Holds tile.position := by
  intro tile member
  obtain ⟨x_nonneg, y_nonneg⟩ := nonneg_of_ofText read forward tile member
  obtain ⟨width, height, minDepth, maxDepth, -⟩ := isTight_of_mem_ofText read member
  have place := List.mem_map_of_mem (f := (·.position)) member
  exact ⟨x_nonneg, width.2 ⟨_, place, rfl⟩, y_nonneg, height.2 ⟨_, place, rfl⟩,
    minDepth.2 ⟨_, place, rfl⟩, maxDepth.2 ⟨_, place, rfl⟩⟩

/-! ## Moderate coordinates -/

theorem moderate_ofNat (n : Nat) (small : n ≤ 2 ^ 26) : (ofNat n).Moderate n := by
  have limited : |((n : Int) : ℚ)| ≤ 2 ^ 26 := by
    rw [Int.cast_natCast, Nat.abs_cast]
    exact_mod_cast small
  exact (OnGrid.ofInt limited).mono (by decide) le_rfl

theorem moderate_terrainHeight {lift : Int} (nonneg : 0 ≤ lift) (small : lift ≤ 2 ^ 26) :
    (terrainHeight lift).Moderate (-1 - lift / 4) := by
  have limited : |(lift : ℚ)| ≤ 2 ^ 26 := by
    rw [abs_of_nonneg (by exact_mod_cast nonneg)]
    exact_mod_cast small
  exact (onGrid_terrainHeight limited (by norm_num)).mono (by decide) (by norm_num)

/-- A text has fewer columns and lines than characters, up to one. -/
theorem short_of_mem_stackTexts {x y : Nat} {stack : List Char}
    (member : (x, y, stack) ∈ stackTexts text) :
    x ≤ text.length ∧ y ≤ text.length ∧ stack.length ≤ text.length := by
  rw [stackTexts_eq, Text.wordLines_eq] at member
  obtain ⟨row, isRow, inRow, column, line⟩ := exists_row_of_mem_numbered member
  obtain ⟨piece, isPiece, rfl⟩ := List.mem_map.mp isRow
  have lines := Text.length_pieces_le '\n' text
  have pieceShort := Text.length_le_of_mem_pieces isPiece
  have words := Text.length_words_le piece
  have wordShort := Text.length_le_of_mem_words inRow
  rw [List.length_map] at line
  omega

theorem Stack.height_ofText_le (flags : Flags) (text : List Char) :
    (Stack.ofText flags text).height ≤ text.length + 1 := by
  have steps : (Stack.ofText flags text).steps.length ≤ text.length := by
    rw [Stack.ofText]
    split
    · next cut => exact Text.length_le_of_splitOnceUnescaped cut
    · exact le_rfl
  have pieces := Text.length_splitUnescaped_le '&' (Stack.ofText flags text).steps
  rw [Stack.height]
  omega

theorem HeightAmong.exists_moderate {steps : Nat} {tiles : List Tile} {z : Binary64}
    (height : HeightAmong steps tiles z) (few : steps ≤ 2 ^ 26 + 1)
    (level : ∀ tile ∈ tiles, tile.metadata.groundHeight ≤ 2 ^ 26) : ∃ q, z.Moderate q := by
  cases height with
  | step number inside => exact ⟨_, moderate_ofNat number (by omega)⟩
  | terrain lift nonneg lifted =>
    refine ⟨_, moderate_terrainHeight nonneg ?_⟩
    rcases lifted with rfl | ⟨tile, member, rfl⟩
    · decide
    · exact level tile member

theorem moderate_of_ofText (read : Scene.ofText lookup flags text = .ok scene)
    (undisplaced : ∀ dx dy dz, ¬ Displaces lookup flags text dx dy dz)
    (short : text.length ≤ 2 ^ 26)
    (level : ∀ tile ∈ scene.tiles, tile.metadata.groundHeight ≤ 2 ^ 26) :
    ∀ tile ∈ scene.tiles, ∃ q, tile.position.Moderate q := by
  refine forall_place_of_ofText read (fun place => ∃ q, place.Moderate q) ?_
    fun dx dy dz displaces => absurd displaces (undisplaced dx dy dz)
  rintro _ _ @⟨x, y, stack, _, z, p, inGrid, -, height⟩
  obtain ⟨column, line, stackShort⟩ := short_of_mem_stackTexts inGrid
  -- The depth among pixels takes no part in the drawing, so it need not be moderate.
  have few := Stack.height_ofText_le flags stack
  obtain ⟨q, moderate⟩ := height.exists_moderate (by omega) level
  exact ⟨⟨x, y, q, p⟩, moderate_ofNat x (by omega), moderate_ofNat y (by omega), moderate⟩

/-- Each bound is a coordinate of some tile, or zero if there are no tiles. -/
theorem exists_moderate_bounds (read : Scene.ofText lookup flags text = .ok scene)
    (places : ∀ tile ∈ scene.tiles, ∃ q, tile.position.Moderate q) :
    ∃ r, scene.bounds.Moderate r := by
  rcases List.eq_nil_or_concat scene.tiles with empty | ⟨front, tile, split⟩
  · have zero : (zero false).Moderate (0 : Nat) := moderate_ofNat 0 (by decide)
    rw [bounds_of_no_tiles read empty]
    exact ⟨⟨(0 : Nat), (0 : Nat), (0 : Nat), (0 : Nat), 0⟩, zero, zero, zero, zero⟩
  · have member : tile ∈ scene.tiles := by simp [split]
    have moderate : ∀ place ∈ scene.tiles.map (·.position), ∃ q, place.Moderate q :=
      List.forall_mem_map.mpr places
    obtain ⟨width, height, minDepth, maxDepth, -⟩ := isTight_of_mem_ofText read member
    obtain ⟨_, isWidest, reachesWidth⟩ := width.1
    obtain ⟨_, isFrontmost, reachesHeight⟩ := height.1
    obtain ⟨_, isLowest, reachesMinDepth⟩ := minDepth.1
    obtain ⟨_, isHighest, reachesMaxDepth⟩ := maxDepth.1
    obtain ⟨widest, widestModerate⟩ := moderate _ isWidest
    obtain ⟨frontmost, frontmostModerate⟩ := moderate _ isFrontmost
    obtain ⟨lowest, lowestModerate⟩ := moderate _ isLowest
    obtain ⟨highest, highestModerate⟩ := moderate _ isHighest
    exact ⟨⟨widest.x, frontmost.y, lowest.z, highest.z, 0⟩, reachesWidth ▸ widestModerate.x,
      reachesHeight ▸ frontmostModerate.y, reachesMinDepth ▸ lowestModerate.z,
      reachesMaxDepth ▸ highestModerate.z⟩

/-- A sprite of at most 48 columns whose rows and whose lift leave room lies on the canvas if its
tile is within the envelope. This is so in rational numbers, with which `Binary64` agrees on
moderate quarters. The tiles of a text are within its envelope if none of them is displaced to the left or to
the back. If none is displaced at all, their coordinates are moderate quarters unless the text or a
lift is immense, and nothing of the scene is clipped. -/
theorem nothing_clipped :
    (∀ (e : Envelope ℚ) (place : Position ℚ) (groundHeight : Int) (width height : Nat),
      e.Holds place → width ≤ 48 → (height : ℚ) / 2 + 3 * |(groundHeight : ℚ)| ≤ 18 →
      OnCanvas e.canvasSize (e.projection.place place groundHeight width height) width height) ∧
    (∀ (e : Envelope Binary64) (r : Envelope ℚ), e.Moderate r →
      e.canvasSize = r.canvasSize ∧
      ∀ (place : Position Binary64) (q : Position ℚ), place.Moderate q →
        (e.Holds place ↔ r.Holds q) ∧
        ∀ (groundHeight : Int) (width height : Nat),
          |groundHeight| ≤ 2 ^ 31 → width < 2 ^ 32 → height < 2 ^ 32 →
          e.projection.place place groundHeight width height =
            r.projection.place q groundHeight width height) ∧
    ∀ (lookup : TileLookup) (flags : Flags) (text : List Char) (scene : Scene),
      Scene.ofText lookup flags text = .ok scene →
      ((∀ dx dy dz, Displaces lookup flags text dx dy dz → zero false ≤ dx ∧ zero false ≤ dy) →
        ∀ tile ∈ scene.tiles, scene.bounds.Holds tile.position) ∧
      ((∀ dx dy dz, ¬ Displaces lookup flags text dx dy dz) → text.length ≤ 2 ^ 26 →
        (∀ tile ∈ scene.tiles, tile.metadata.groundHeight ≤ 2 ^ 26) →
        (∃ r, scene.bounds.Moderate r) ∧
        ∀ tile ∈ scene.tiles, (∃ q, tile.position.Moderate q) ∧
          ∀ width height : Nat, width ≤ 48 →
            (height : ℚ) / 2 + 3 * |(tile.metadata.groundHeight : ℚ)| ≤ 18 →
            OnCanvas scene.bounds.canvasSize
              (scene.bounds.projection.place tile.position tile.metadata.groundHeight width height)
              width height) := by
  refine ⟨fun _ _ _ _ _ inside narrow low => onCanvas_of_holds inside narrow low, ?_, ?_⟩
  · intro e r moderate
    refine ⟨moderate.canvasSize_eq, fun place q moderatePlace => ?_⟩
    refine ⟨moderate.holds_iff moderatePlace, ?_⟩
    intro groundHeight width height level narrow low
    exact moderate.place_eq moderatePlace level narrow low
  · intro lookup flags text scene read
    refine ⟨holds_of_ofText read, fun undisplaced short level => ?_⟩
    have places := moderate_of_ofText read undisplaced short level
    obtain ⟨r, moderate⟩ := exists_moderate_bounds read places
    have inside := holds_of_ofText read fun dx dy dz displaces =>
      absurd displaces (undisplaced dx dy dz)
    refine ⟨⟨r, moderate⟩, fun tile member => ⟨places tile member, ?_⟩⟩
    intro width height narrow low
    obtain ⟨q, moderatePlace⟩ := places tile member
    exact moderate.onCanvas moderatePlace (inside tile member) narrow low

/-- The edges of some scenes in which every tile is a hill: the corner of an envelope, and texts
with and without a displacement. -/
theorem nothing_clipped_hills :
    let lookup : TileLookup := fun _ => some ⟨false, 2, 1, false, ""⟩
    let e : Envelope ℚ := ⟨2, 3, -3/2, 1, 0⟩
    OnCanvas e.canvasSize (e.projection.place ⟨2, 3, -3/2, 0⟩ 2 48 24) 48 24 ∧
      (⟨ofNat 2, ofNat 3, ofNat 0, ofNat 1, ofNat 0⟩ : Envelope Binary64).canvasSize =
        (⟨(2 : Nat), (3 : Nat), (0 : Nat), (1 : Nat), (0 : Nat)⟩ : Envelope ℚ).canvasSize ∧
      (∃ scene, Scene.ofText lookup .standard "hill&hill .".toList = .ok scene ∧
        scene.bounds.canvasSize = (60, 72) ∧
        ∀ tile ∈ scene.tiles,
          OnCanvas scene.bounds.canvasSize
            (scene.bounds.projection.place tile.position tile.metadata.groundHeight 48 24) 48 24) ∧
      ∃ scene, Scene.ofText lookup .standard "hill $a:disp/0.5/1/-2".toList = .ok scene ∧
        ∀ tile ∈ scene.tiles, scene.bounds.Holds tile.position := by
  intro lookup e
  obtain ⟨exact, realised, read⟩ := nothing_clipped
  have canvas : (Scene.ofText lookup .standard "hill&hill .".toList).map (·.bounds.canvasSize) =
      .ok (60, 72) := by decide +kernel
  obtain ⟨hills, readHills, size⟩ := map_eq_ok_iff.mp canvas
  obtain ⟨moved, readMoved⟩ :
      ∃ scene, Scene.ofText lookup .standard "hill $a:disp/0.5/1/-2".toList = .ok scene := ⟨_, rfl⟩
  refine ⟨?_, ?_, ⟨hills, readHills, size, ?_⟩, moved, readMoved, ?_⟩
  · refine exact e ⟨2, 3, -3/2, 0⟩ 2 48 24 ⟨?_, ?_, ?_, ?_, ?_, ?_⟩ (by decide) ?_ <;>
      norm_num [e, Coordinate.ofInt]
  · have moderate : (⟨ofNat 2, ofNat 3, ofNat 0, ofNat 1, ofNat 0⟩ : Envelope Binary64).Moderate
        ⟨(2 : Nat), (3 : Nat), (0 : Nat), (1 : Nat), (0 : Nat)⟩ :=
      ⟨moderate_ofNat 2 (by decide), moderate_ofNat 3 (by decide), moderate_ofNat 0 (by decide),
        moderate_ofNat 1 (by decide)⟩
    exact (realised _ _ moderate).1
  · have undisplaced : ∀ dx dy dz, ¬ Displaces lookup .standard "hill&hill .".toList dx dy dz := by
      have plain : ∀ stack ∈ stackTexts "hill&hill .".toList,
          ∀ cell ∈ (Stack.ofText .standard stack.2.2).cells, ∀ tile ∈ Cell.parse? cell.text,
            tile.variants = [] := by decide +kernel
      rintro dx dy dz ⟨stack, inGrid, cell, inStack, tile, parsed, -, v, asked, -⟩
      rw [plain stack inGrid cell inStack tile parsed] at asked
      simp at asked
    have height : ∀ tile ∈ hills.tiles, tile.metadata.groundHeight = 2 := by
      intro tile member
      obtain ⟨metadata, ⟨⟩, kept⟩ := TileLookup.exists_metadata_of_mem_ofText readHills member
      exact congrArg TileMetadata.groundHeight kept
    obtain ⟨-, inside⟩ := (read lookup .standard _ hills readHills).2 undisplaced (by decide)
      fun tile member => by simp [height tile member]
    intro tile member
    refine (inside tile member).2 48 24 (by decide) ?_
    norm_num [height tile member]
  · have only : ∀ stack ∈ stackTexts "hill $a:disp/0.5/1/-2".toList,
        ∀ cell ∈ (Stack.ofText .standard stack.2.2).cells, ∀ tile ∈ Cell.parse? cell.text,
          ∀ v ∈ tile.variants, GeometricEffect.parse v =
            .ok (some (.displace (ofRatio false 1 2) (ofNat 1) (ofInt (-2)))) := by decide +kernel
    refine (read lookup .standard _ moved readMoved).1 ?_
    rintro dx dy dz ⟨stack, inGrid, cell, inStack, tile, parsed, -, v, asked, displaces⟩
    have same := (only stack inGrid cell inStack tile parsed v asked).symm.trans displaces
    obtain ⟨rfl, rfl, rfl⟩ := GeometricEffect.displace.inj (Option.some.inj (Except.ok.inj same))
    exact ⟨zero_le_of_negative_eq_false (isNaN_ofRatio ..) (by decide), zero_le_ofNat 1⟩

end IsoScene
