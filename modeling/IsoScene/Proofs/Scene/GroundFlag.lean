import IsoScene.Proofs.Scene.FlagExtraction
import IsoScene.Proofs.Scene.GroundProbe

/-! # The ground flag

The ground of a scene can be set by a flag or be named by every stack. The flag keeps its value
unescaped, with the shorthand at its start written out, and stacks read what it keeps as a ground of
its own. So the value of a flag is unescaped twice, and a separator that was escaped once separates.

`groundFlag_iff_named` says when this makes a difference: when the ground unescaped once more is not
the same ground. It is the same where no backslash stands before another one or before a separator.
-/

namespace IsoScene

open Text

/-- A flag means what its ground in front of every stack means. -/
def MeansNamedGround (flags : Flags) (ground : List Char) : Prop :=
  ∀ lookup grid, NamesNoGround grid →
    Scene.ofText lookup flags grid =
      Scene.ofText lookup .standard (prefixWords (ground ++ ['%']) true grid)

/-- The flags of a scene whose ground flag has this value. -/
def groundFlags (ground : List Char) : Flags :=
  { Flags.standard with
    defaultGround := String.ofList (expandName (unescape ground))
    groundIsExplicit := true }

/-- The ground flag alone is a text of one flag word. -/
theorem extract_groundFlag {ground : List Char} (nonempty : ground ≠ [])
    (visible : ∀ c ∈ ground, isBlank c = false) :
    Flags.standard.extract ("--ground=".toList ++ ground) = .ok (groundFlags ground, []) := by
  let flag : FlagWord := ⟨"ground".toList, some ground⟩
  have proper : flag.IsProper := ⟨by simp [flag], by simp [flag], by simpa [flag] using nonempty⟩
  have isWord : IsWord ("--ground=".toList ++ ground) :=
    IsWord.append (by simp [isBlank]) ⟨nonempty, visible⟩
  have read : FlagWord.ofWord? ("--ground=".toList ++ ground) = some flag :=
    FlagWord.ofWord?_eq_some_iff.mpr (.twoDashes proper)
  -- From here on it only counts that the text is one word and that it writes the flag.
  generalize "--ground=".toList ++ ground = text at isWord read
  have isFlag : isFlagWord text = true := by simp [isFlagWord, read]
  have lines : wordLines text = [[text]] := by
    have nothing : wordLines [] = [[]] := rfl
    have cut := wordLines_word_append isWord atBreak_nil nothing
    rwa [List.append_nil] at cut
  have flags : flagWords text = [flag] := by
    rw [flagWords, lines, List.flatten_singleton, flagsAmong, List.filterMap_cons_some read,
      List.filterMap_nil]
  obtain ⟨kept, extracted, keptEq, -⟩ := extract_words text
  have noneKept : kept = [] := by
    rw [lines] at keptEq
    simpa [keptWords, isFlag] using keptEq
  rw [extracted, flags, noneKept]
  rfl

theorem sameGround_expandName_iff {ground other : List Char} :
    SameGround ground (expandName other) ↔ SameGround ground other := by
  simp only [SameGround, groundTiles_eq, groundCells_expandName]

theorem meansNamedGround_iff {ground : List Char} (isGround : IsGround ground) :
    MeansNamedGround (groundFlags ground) ground ↔
      SameScenes ground (expandName (unescape ground)) := by
  have byFlag : ∀ lookup grid, NamesNoGround grid →
      Scene.ofText lookup (groundFlags ground) grid =
        sceneOn lookup (expandName (unescape ground)) grid := by
    intro lookup grid noGround
    rw [ofText_eq_sceneOn rfl noGround]
    simp [groundFlags]
  constructor
  · intro means lookup grid noGround
    rw [← byFlag lookup grid noGround, means lookup grid noGround,
      ofText_prefixWords isGround lookup .standard grid]
  · intro same lookup grid noGround
    rw [byFlag lookup grid noGround, ofText_prefixWords isGround lookup .standard grid,
      same lookup grid noGround]

theorem length_groundCells_le {ground : List Char} (short : ground.length < 2 ^ 53) :
    (groundCells ground).length ≤ 2 ^ 53 := by
  have pieces := length_splitUnescaped_le '|' ground
  rw [groundCells, List.length_map]
  omega

/-- The ground flag means what its value in front of every stack means if the value is the same
ground after it has been unescaped once more, and, for values that fit into any memory, only if.
It is the same ground if its cells are the same, and so whenever no backslash stands before another
one or before a separator of cells. -/
theorem groundFlag_iff_named {ground : List Char} (nonempty : ground ≠ [])
    (isGround : IsGround ground) :
    ∃ flags, Flags.standard.extract ("--ground=".toList ++ ground) = .ok (flags, []) ∧
      (SameGround ground (unescape ground) → MeansNamedGround flags ground) ∧
      (ground.length < 2 ^ 53 → MeansNamedGround flags ground →
        SameGround ground (unescape ground)) ∧
      (groundCells ground = groundCells (unescape ground) →
        SameGround ground (unescape ground)) ∧
      (escapesSeparator ground = false → groundCells ground = groundCells (unescape ground)) := by
  refine ⟨groundFlags ground, extract_groundFlag nonempty isGround.visible, ?_, ?_,
    sameGround_of_groundCells, fun noEscape => (groundCells_unescape noEscape).symm⟩
  · intro same
    rw [meansNamedGround_iff isGround]
    intro lookup grid _
    exact sceneOn_congr (sameGround_expandName_iff.mpr same) lookup grid
  · intro short means
    have unescapedShort := Nat.lt_of_le_of_lt (length_unescape_le ground) short
    rw [← sameGround_expandName_iff]
    apply sameGround_of_sameScenes (length_groundCells_le short)
    · rw [groundCells_expandName]
      exact length_groundCells_le unescapedShort
    · exact (meansNamedGround_iff isGround).mp means

/-- Layers, variants, shorthands and escaped signs that separate stacks make no difference. -/
theorem groundFlag_of_layers : ∃ flags,
    Flags.standard.extract "--ground=#moor:dim|$a\\%b".toList = .ok (flags, []) ∧
      MeansNamedGround flags "#moor:dim|$a\\%b".toList := by
  have isGround : IsGround "#moor:dim|$a\\%b".toList :=
    ⟨by simp [isBlank], by decide, by decide⟩
  obtain ⟨flags, extracted, means, -, ofCells, ofEscapes⟩ := groundFlag_iff_named (by decide) isGround
  exact ⟨flags, extracted, means (ofCells (ofEscapes (by decide)))⟩

/-- An escaped colon does: the flag asks for a tile that the stacks do not name. -/
theorem groundFlag_unescapes_twice :
    let lookup : TileLookup := fun name => if name = "a:b" then some TileMetadata.text else none
    ∃ flags, Flags.standard.extract "--ground=a\\:b".toList = .ok (flags, []) ∧
      Scene.ofText lookup flags ['.'] = .error (.unresolvedTile "a") ∧
      (∃ scene, Scene.ofText lookup .standard "a\\:b%.".toList = .ok scene) ∧
      ¬ MeansNamedGround flags "a\\:b".toList := by
  intro lookup
  have extracted := @extract_groundFlag "a\\:b".toList (by decide) (by simp [isBlank])
  refine ⟨groundFlags "a\\:b".toList, extracted, rfl, ⟨_, rfl⟩, ?_⟩
  intro means
  have same := means lookup ['.'] namesNoGround_point
  have asFlag : Scene.ofText lookup (groundFlags "a\\:b".toList) ['.'] =
      .error (.unresolvedTile "a") := rfl
  have asName : ∃ scene, Scene.ofText lookup .standard
      (prefixWords ("a\\:b".toList ++ ['%']) true ['.']) = .ok scene := ⟨_, rfl⟩
  obtain ⟨scene, found⟩ := asName
  rw [asFlag, found] at same
  simp at same

end IsoScene
