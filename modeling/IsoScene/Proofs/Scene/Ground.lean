import IsoScene.Proofs.Binary64.Arithmetic
import IsoScene.Proofs.Scene.Independence
import IsoScene.Proofs.Scene.Cells

/-! # Ground texts

The ground of a stack is a text of its own: layers between bars, each a cell. What it places is
decided by the cells that its layers are read as (`sameGround_of_groundCells`), and it fails by them
alone (`groundTiles_eq_error_iff`).

* `SameGround` — two texts place the same tiles below every stack.
* `groundCells_expandName` — writing out a shorthand at the start changes no cell.
* `groundCells_unescape` — nor does unescaping the whole text, unless a backslash stands before
  another one or before a separator of cells.
* `eq_of_perm_groundTiles` — the order of the tiles of a ground can be read off them.
-/

namespace IsoScene

open Text

/-- The tiles that a ground places below tiles that lift it. -/
def groundTiles (lookup : TileLookup) (x y : Nat) (lift : Int) (ground : List Char) :
    Except UserError (List Tile) :=
  ((layerCells x y (terrainHeight lift) ground).mapM fun cell =>
    placeCell lookup cell.1 cell.2).map List.reduceOption

/-- Two grounds place the same tiles below every stack, or fail alike. -/
def SameGround (ground other : List Char) : Prop :=
  ∀ lookup x y lift, 0 ≤ lift →
    groundTiles lookup x y lift ground = groundTiles lookup x y lift other

def groundCells (ground : List Char) : List (Option Cell) :=
  (splitUnescaped '|' ground).map Cell.parse?

/-! ## Cells decide -/

/-- The tile of a cell that has been read. -/
def placeRead (lookup : TileLookup) (position : Position Binary64) :
    Option Cell → Except UserError (Option Tile)
  | none => .ok none
  | some cell =>
    match lookup.metadata? cell.name with
    | none => .error (.unresolvedTile cell.name)
    | some metadata =>
      ((Tile.new cell.name position cell.variants metadata).resolveGeometry).map some

theorem placeCell_eq (lookup : TileLookup) (position : Position Binary64) (text : List Char) :
    placeCell lookup position text = placeRead lookup position (Cell.parse? text) := by
  rw [placeCell]
  cases Cell.parse? text <;> rfl

theorem groundTiles_eq (lookup : TileLookup) (x y : Nat) (lift : Int) (ground : List Char) :
    groundTiles lookup x y lift ground =
      ((groundCells ground).zipIdx.mapM fun (cell, p) =>
        placeRead lookup (.ofColumn x y (terrainHeight lift) p) cell).map List.reduceOption := by
  simp only [groundTiles, layerCells, groundCells, List.zipIdx_map, List.mapM_map, placeCell_eq]
  rfl

theorem sameGround_of_groundCells {ground other : List Char}
    (same : groundCells ground = groundCells other) : SameGround ground other := by
  intro lookup x y lift _
  rw [groundTiles_eq, groundTiles_eq, same]

theorem groundTiles_eq_error_iff {lookup : TileLookup} {x y : Nat} {lift : Int}
    {ground : List Char} {e : UserError} :
    groundTiles lookup x y lift ground = .error e ↔
      FirstFailure (StackCell.Fails lookup) ((splitUnescaped '|' ground).map (⟨·, true⟩)) e := by
  have run : ((layerCells x y (terrainHeight lift) ground).mapM fun cell =>
      placeCell lookup cell.1 cell.2) = .error e ↔
      FirstFailure (StackCell.Fails lookup) ((splitUnescaped '|' ground).map (⟨·, true⟩)) e := by
    rw [← map_layerCells x y (terrainHeight lift), FirstFailure.map, mapM_eq_error_iff]
    simp only [placeCell_eq_error_iff]
  rw [← run, groundTiles]
  cases (layerCells x y (terrainHeight lift) ground).mapM fun cell =>
    placeCell lookup cell.1 cell.2 <;> simp [Except.map]

/-! ## Shorthands -/

/-- Plain characters in front of a ground belong to its first layer. -/
theorem groundCells_append_front {front : List Char} (plainFront : IsPlainFront front)
    {s layer : List Char} {others : List (List Char)}
    (cut : splitUnescaped '|' s = layer :: others) :
    groundCells (front ++ s) = Cell.parse? (front ++ layer) :: others.map Cell.parse? := by
  have plain : ∀ c ∈ front, c ≠ '\\' ∧ c ≠ '|' := by
    intro c member
    obtain ⟨notBackslash, -, notBar, -⟩ := plainFront.plain c member
    exact ⟨notBackslash, notBar⟩
  rw [groundCells, splitUnescaped_append_front plain cut, List.map_cons]

/-- Writing out a shorthand at the start of a ground changes no cell. -/
theorem groundCells_expandName (ground : List Char) :
    groundCells (expandName ground) = groundCells ground := by
  rcases expandName_cases ground with same | ⟨sign, long, rest, shorthand, rfl⟩
  · rw [same]
  · obtain ⟨layer, others, cut⟩ := List.exists_cons_of_ne_nil (splitUnescaped_ne_nil '|' rest)
    rw [shorthand.expandName_sign, groundCells_append_front shorthand.long_plain cut,
      groundCells_append_front shorthand.sign_plain cut, ← shorthand.expandName_sign,
      parse?_expandName]

/-! ## Escapes -/

/-- The characters that cut a ground into layers and a layer into a name and variants, and the
backslash. -/
def isGroundSeparator (c : Char) : Bool := c == '\\' || c == '|' || c == ':'

/-- Somewhere a backslash stands before one of these characters. -/
def escapesSeparator : List Char → Bool
  | [] => false
  | ['\\'] => false
  | '\\' :: c :: rest => isGroundSeparator c || escapesSeparator rest
  | _ :: rest => escapesSeparator rest

theorem escapesSeparator_plain {c : Char} (ne : c ≠ '\\') (rest : List Char) :
    escapesSeparator (c :: rest) = escapesSeparator rest := by
  cases rest <;> simp [escapesSeparator, ne]

/-- Where no separator is escaped, a text is cut alike before and after unescaping. -/
theorem splitUnescaped_unescape {sep : Char} (separates : sep = '|' ∨ sep = ':') {s : List Char}
    (noEscape : escapesSeparator s = false) :
    splitUnescaped sep (unescape s) = (splitUnescaped sep s).map unescape := by
  induction s using escapeInduction with
  | nil => rfl
  | lone => rfl
  | escaped c s ih =>
    rw [escapesSeparator, Bool.or_eq_false_iff] at noEscape
    obtain ⟨other, later⟩ := noEscape
    simp only [isGroundSeparator, Bool.or_eq_false_iff, beq_eq_false_iff_ne] at other
    -- Without its backslash `c` is still an ordinary character.
    have notSep : c ≠ sep := by
      rcases separates with rfl | rfl
      · exact other.1.2
      · exact other.2
    rw [unescape, splitUnescaped_plain other.1.1, if_neg notSep, ih later, splitUnescaped]
    obtain ⟨piece, others, cut⟩ := List.exists_cons_of_ne_nil (splitUnescaped_ne_nil sep s)
    simp [cut, unescape]
  | plain c s ne ih =>
    rw [escapesSeparator_plain ne] at noEscape
    rw [unescape_plain ne, splitUnescaped_plain ne, splitUnescaped_plain ne, ih noEscape]
    split
    · rfl
    · obtain ⟨piece, others, cut⟩ := List.exists_cons_of_ne_nil (splitUnescaped_ne_nil sep s)
      simp [cut, unescape_plain ne]

theorem unescape_unescape {s : List Char} (noEscape : escapesSeparator s = false) :
    unescape (unescape s) = unescape s := by
  induction s using escapeInduction with
  | nil => rfl
  | lone => rfl
  | escaped c s ih =>
    rw [escapesSeparator, Bool.or_eq_false_iff] at noEscape
    obtain ⟨other, later⟩ := noEscape
    simp only [isGroundSeparator, Bool.or_eq_false_iff, beq_eq_false_iff_ne] at other
    rw [unescape, unescape_plain other.1.1, ih later]
  | plain c s ne ih =>
    rw [escapesSeparator_plain ne] at noEscape
    rw [unescape_plain ne, unescape_plain ne, ih noEscape]

theorem escapesSeparator_of_mem_splitUnescaped {sep : Char} {s piece : List Char}
    (noEscape : escapesSeparator s = false) (member : piece ∈ splitUnescaped sep s) :
    escapesSeparator piece = false := by
  induction s using escapeInduction generalizing piece with
  | nil =>
    obtain rfl : piece = [] := by simpa [splitUnescaped] using member
    rfl
  | lone =>
    obtain rfl : piece = ['\\'] := by simpa [splitUnescaped] using member
    rfl
  | escaped c s ih =>
    rw [escapesSeparator, Bool.or_eq_false_iff] at noEscape
    obtain ⟨first, others, cut⟩ := List.exists_cons_of_ne_nil (splitUnescaped_ne_nil sep s)
    rw [splitUnescaped, cut, extendFirst_cons] at member
    rcases List.mem_cons.mp member with rfl | later
    · have inFirst := ih noEscape.2 (cut ▸ List.mem_cons_self)
      simp [escapesSeparator, noEscape.1, inFirst]
    · exact ih noEscape.2 (cut ▸ List.mem_cons_of_mem first later)
  | plain c s ne ih =>
    rw [escapesSeparator_plain ne] at noEscape
    rw [splitUnescaped_plain ne] at member
    split at member
    · rcases List.mem_cons.mp member with rfl | later
      · rfl
      · exact ih noEscape later
    · obtain ⟨first, others, cut⟩ := List.exists_cons_of_ne_nil (splitUnescaped_ne_nil sep s)
      rw [cut, extendFirst_cons] at member
      rcases List.mem_cons.mp member with rfl | later
      · have inFirst := ih noEscape (cut ▸ List.mem_cons_self)
        simpa [escapesSeparator_plain ne] using inFirst
      · exact ih noEscape (cut ▸ List.mem_cons_of_mem first later)

theorem parse?_unescape {s : List Char} (noEscape : escapesSeparator s = false) :
    Cell.parse? (unescape s) = Cell.parse? s := by
  have once : ((splitUnescaped ':' s).map unescape).map unescape =
      (splitUnescaped ':' s).map unescape := by
    rw [List.map_map]
    apply List.map_congr_left
    intro piece member
    exact unescape_unescape (escapesSeparator_of_mem_splitUnescaped noEscape member)
  rw [Cell.parse?, Cell.parse?, splitUnescaped_unescape (.inr rfl) noEscape, once]

/-- Where no separator is escaped, unescaping the whole ground changes no cell. -/
theorem groundCells_unescape {ground : List Char} (noEscape : escapesSeparator ground = false) :
    groundCells (unescape ground) = groundCells ground := by
  rw [groundCells, groundCells, splitUnescaped_unescape (.inl rfl) noEscape, List.map_map]
  apply List.map_congr_left
  intro layer member
  exact parse?_unescape (escapesSeparator_of_mem_splitUnescaped noEscape member)

/-! ## The order of layers -/

theorem position_p_of_applyVariants {tile moved : Tile} {variants left : List Variant}
    (resolved : tile.applyVariants variants = .ok (moved, left)) :
    moved.position.p = tile.position.p :=
  Tile.applyVariants_keeps (·.position.p) (fun _ effect => by cases effect <;> rfl) resolved

/-- The geometric pass leaves a tile on its pixel layer. -/
theorem position_p_of_placeRead {lookup : TileLookup} {position : Position Binary64}
    {cell : Option Cell} {tile : Tile} (placed : placeRead lookup position cell = .ok (some tile)) :
    tile.position.p = position.p := by
  cases cell with
  | none => simp [placeRead] at placed
  | some cell =>
    rw [placeRead] at placed
    cases found : lookup.metadata? cell.name with
    | none => simp [found] at placed
    | some metadata =>
      let start := Tile.new cell.name position cell.variants metadata
      have passed : start.resolveGeometry.map some = .ok (some tile) := by
        simpa [found] using placed
      rw [Tile.resolveGeometry] at passed
      cases resolved : start.applyVariants start.variants with
      | error e => simp [resolved, Except.map] at passed
      | ok result =>
        obtain ⟨moved, left⟩ := result
        obtain rfl : { moved with variants := left } = tile := by
          simpa [resolved, Except.map] using passed
        exact position_p_of_applyVariants resolved

theorem pairwise_zipIdx {α : Type} (xs : List α) :
    xs.zipIdx.Pairwise fun a b => a.2 < b.2 ∧ b.2 < xs.length := by
  rw [List.pairwise_iff_getElem]
  intro i j _ inside less
  rw [List.length_zipIdx] at inside
  simp [less, inside]

/-- The tiles of a ground stand on higher and higher layers. -/
theorem pairwise_groundTiles {lookup : TileLookup} {x y : Nat} {lift : Int} {ground : List Char}
    (short : (groundCells ground).length ≤ 2 ^ 53) {tiles : List Tile}
    (placed : groundTiles lookup x y lift ground = .ok tiles) :
    tiles.Pairwise fun a b => a.position.p.key < b.position.p.key := by
  let place := fun (cell : Option Cell × Nat) =>
    placeRead lookup (.ofColumn x y (terrainHeight lift) cell.2) cell.1
  have run : ((groundCells ground).zipIdx.mapM place).map List.reduceOption = .ok tiles := by
    rw [← placed, groundTiles_eq]
  cases found : (groundCells ground).zipIdx.mapM place with
  | error e => simp [found, Except.map] at run
  | ok options =>
    obtain rfl : options.reduceOption = tiles := by simpa [found, Except.map] using run
    have isPlace : options = (groundCells ground).zipIdx.map fun cell => (place cell).toOption.join := by
      have results := congrArg (List.map fun r => r.toOption.join) (mapM_eq_ok_iff.mp found)
      simpa [Function.comp_def, Except.toOption] using results.symm
    change (options.filterMap id).Pairwise _
    rw [isPlace, List.filterMap_map]
    refine (pairwise_zipIdx (groundCells ground)).filterMap _ ?_
    intro a b ordered s sPlaced t tPlaced
    have ofPlace : ∀ {cell tile}, (place cell).toOption.join = some tile →
        place cell = .ok (some tile) := by
      intro cell tile isTile
      cases result : place cell with
      | error e => simp [result, Except.toOption] at isTile
      | ok placed => simpa [result, Except.toOption] using isTile
    have sLayer := position_p_of_placeRead (ofPlace sPlaced)
    have tLayer := position_p_of_placeRead (ofPlace tPlaced)
    rw [sLayer, tLayer]
    exact Binary64.key_ofNat_lt ordered.1 (Nat.lt_of_lt_of_le ordered.2 short)

theorem eq_of_perm_groundTiles {lookup : TileLookup} {x y : Nat} {lift : Int}
    {ground other : List Char} (short : (groundCells ground).length ≤ 2 ^ 53)
    (shortToo : (groundCells other).length ≤ 2 ^ 53) {tiles others : List Tile}
    (placed : groundTiles lookup x y lift ground = .ok tiles)
    (placedToo : groundTiles lookup x y lift other = .ok others) (perm : tiles.Perm others) :
    tiles = others := by
  -- Both lists are sorted by the same strict order.
  refine perm.eq_of_pairwise ?_ (pairwise_groundTiles short placed)
    (pairwise_groundTiles shortToo placedToo)
  intro a b _ _ less greater
  omega

/-! ## Names decide -/

/-- What the catalog says about other names does not matter. -/
theorem groundTiles_congr {lookup lookup' : TileLookup} {ground : List Char}
    (same : ∀ cell, some cell ∈ groundCells ground →
      lookup.metadata? cell.name = lookup'.metadata? cell.name) (x y : Nat) (lift : Int) :
    groundTiles lookup x y lift ground = groundTiles lookup' x y lift ground := by
  rw [groundTiles_eq, groundTiles_eq]
  congr 1
  apply mapM_congr
  rintro ⟨cell, p⟩ member
  cases cell with
  | none => rfl
  | some cell =>
    have among : some cell ∈ groundCells ground := List.fst_mem_of_mem_zipIdx member
    simp only [placeRead, same cell among]

end IsoScene
