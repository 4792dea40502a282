import IsoScene.Proofs.Scene.Ground

/-! # Scenes on one ground

All the stacks of a scene can stand on the same ground for two reasons: a flag sets it, or each of
them names it. `sceneOn` is the scene that both ways of writing give (`ofText_eq_sceneOn`,
`ofText_prefixWords`). Grounds that are the same below every stack give the same scenes
(`sceneOn_congr`).
-/

namespace IsoScene

open Text

/-! ## A ground in front of every stack -/

/-- Puts characters in front of every word of a text; `atStart` says that no word is open. -/
def prefixWords (front : List Char) : (atStart : Bool) → List Char → List Char
  | _, [] => []
  | atStart, c :: rest =>
    if isBlank c then c :: prefixWords front true rest
    else if atStart then front ++ c :: prefixWords front false rest
    else c :: prefixWords front false rest

theorem prefixWords_of_atBreak {s : List Char} (atBreak : AtBreak s) (front : List Char)
    (atStart : Bool) : prefixWords front atStart s = prefixWords front true s := by
  cases s with
  | nil => simp [prefixWords]
  | cons c s => simp [prefixWords, atBreak c rfl]

theorem prefixWords_append {w : List Char} (visible : ∀ c ∈ w, isBlank c = false)
    (front rest : List Char) :
    prefixWords front false (w ++ rest) = w ++ prefixWords front false rest := by
  induction w with
  | nil => rfl
  | cons c w ih =>
    obtain ⟨first, later⟩ := List.forall_mem_cons.mp visible
    simp [prefixWords, first, ih later]

theorem prefixWords_word_append {w rest : List Char} (isWord : IsWord w) (atBreak : AtBreak rest)
    (front : List Char) :
    prefixWords front true (w ++ rest) = front ++ w ++ prefixWords front true rest := by
  obtain ⟨c, w, rfl⟩ := List.exists_cons_of_ne_nil isWord.ne_nil
  obtain ⟨first, later⟩ := List.forall_mem_cons.mp isWord.not_blank
  rw [List.cons_append, prefixWords]
  simp [first, prefixWords_append later, prefixWords_of_atBreak atBreak]

theorem atBreak_prefixWords {s : List Char} (atBreak : AtBreak s) (front : List Char) :
    AtBreak (prefixWords front true s) := by
  cases s with
  | nil => exact atBreak_nil
  | cons c s =>
    have blank : isBlank c = true := atBreak c rfl
    rw [prefixWords, if_pos blank]
    exact atBreak_cons _ blank

theorem wordLines_prefixWords {front : List Char} (visible : ∀ c ∈ front, isBlank c = false)
    (s : List Char) :
    wordLines (prefixWords front true s) = (wordLines s).map (List.map (front ++ ·)) := by
  induction s using wordInduction with
  | nil => rfl
  | blank c s blank ih =>
    rw [prefixWords, if_pos blank]
    -- A line feed is blank, but it also begins a new line.
    by_cases isNewline : c = '\n'
    · rw [isNewline, wordLines_newline, wordLines_newline, ih]
      rfl
    · rw [wordLines_blank blank isNewline, wordLines_blank blank isNewline, ih]
  | word w s isWord atBreak ih =>
    obtain ⟨line, others, cut⟩ := List.exists_cons_of_ne_nil (wordLines_ne_nil s)
    rw [cut] at ih
    rw [prefixWords_word_append isWord atBreak, wordLines_word_append isWord atBreak cut,
      wordLines_word_append (isWord.append visible) (atBreak_prefixWords atBreak front) ih]
    rfl

theorem stackTexts_prefixWords {front : List Char} (visible : ∀ c ∈ front, isBlank c = false)
    (grid : List Char) :
    stackTexts (prefixWords front true grid) =
      (stackTexts grid).map fun (x, y, stack) => (x, y, front ++ stack) := by
  rw [stackTexts_eq, stackTexts_eq, wordLines_prefixWords visible, numbered_map]

/-! ## Scenes on a ground -/

/-- The tiles of a stack on a ground that has to be known. -/
def stackOn (lookup : TileLookup) (ground : List Char) (x y : Nat) (steps : List Char) :
    Except UserError (List Tile) := do
  let raised ← (stepCells x y steps).mapM fun cell => placeCell lookup cell.1 cell.2
  let floor ← groundTiles lookup x y (liftOver 0 raised.reduceOption) ground
  .ok (raised.reduceOption ++ floor)

theorem stackTiles_eq_stackOn {flags : Flags} {text ground steps : List Char}
    (read : Stack.ofText flags text = ⟨ground, steps, true⟩) (lookup : TileLookup) (x y : Nat) :
    stackTiles lookup flags x y text = stackOn lookup ground x y steps := by
  rw [stackTiles, read, stackOn]
  cases (stepCells x y steps).mapM fun cell => placeCell lookup cell.1 cell.2 with
  | error e => rfl
  | ok raised =>
    simp only [ok_bind, groundTiles, floorTile, Bool.true_or, if_true]
    cases (layerCells x y (terrainHeight (liftOver 0 raised.reduceOption)) ground).mapM fun cell =>
      placeCell lookup cell.1 cell.2 <;> rfl

/-- No stack of the grid names a ground. -/
def NamesNoGround (grid : List Char) : Prop :=
  ∀ stack ∈ stackTexts grid, hasBare '%' stack.2.2 = false

/-- The scene of a grid whose stacks all stand on one ground. -/
def sceneOn (lookup : TileLookup) (ground grid : List Char) : Except UserError Scene :=
  ((stackTexts grid).mapM fun (x, y, stack) => stackOn lookup ground x y stack).map
    fun (lists : List (List Tile)) => .ofTiles lists.flatten

theorem ofText_eq_sceneOn {flags : Flags} (isExplicit : flags.groundIsExplicit = true)
    {grid : List Char} (noGround : NamesNoGround grid) (lookup : TileLookup) :
    Scene.ofText lookup flags grid = sceneOn lookup flags.defaultGround.toList grid := by
  rw [Scene.ofText_eq, sceneOn]
  congr 1
  apply mapM_congr
  rintro ⟨x, y, stack⟩ member
  apply stackTiles_eq_stackOn
  rw [Stack.ofText, splitOnceUnescaped_eq_none (noGround _ member), isExplicit]

/-- A ground without bare percent signs that no open backslash ends. -/
structure IsGround (ground : List Char) : Prop where
  visible : ∀ c ∈ ground, isBlank c = false
  noPercent : hasBare '%' ground = false
  closed : endsOpen ground = false

theorem ofText_prefixWords {ground : List Char} (isGround : IsGround ground) (lookup : TileLookup)
    (flags : Flags) (grid : List Char) :
    Scene.ofText lookup flags (prefixWords (ground ++ ['%']) true grid) =
      sceneOn lookup ground grid := by
  have visible := not_blank_concat isGround.visible (show isBlank '%' = false from rfl)
  rw [Scene.ofText_eq, stackTexts_prefixWords visible, sceneOn, List.mapM_map]
  congr 1
  apply mapM_congr
  rintro ⟨x, y, stack⟩ _
  apply stackTiles_eq_stackOn
  rw [Stack.ofText, List.append_assoc, List.singleton_append,
    splitOnceUnescaped_append (by decide) isGround.closed isGround.noPercent]

/-- On grounds that are the same everywhere the scenes are the same. -/
theorem sceneOn_congr {ground other : List Char} (same : SameGround ground other)
    (lookup : TileLookup) (grid : List Char) :
    sceneOn lookup ground grid = sceneOn lookup other grid := by
  rw [sceneOn, sceneOn]
  congr 1
  apply mapM_congr
  rintro ⟨x, y, stack⟩ _
  simp only [stackOn]
  congr 1
  funext raised
  rw [same lookup x y _ (le_liftOver 0 raised.reduceOption)]

end IsoScene
