import IsoScene.Proofs.Glyph.Setting
import IsoScene.Proofs.Sprite.Store

/-! # What the tile of a word depends on

A tile looks at nothing but the letters of its word, and at their bitmaps only in the widths that
they have. So alphabets that agree on those give the same tile or the same failure
(`Alphabet.tile_congr`), and a word whose layout can be found fails only if one of these bitmaps
does (`Alphabet.error_of_tile`).
-/

namespace IsoScene.Glyph

theorem answer_renderText_new (fs : FileSystem) (letters word : List Char) :
    ((renderText fs letters word).answer []).1 = (Alphabet.ofFiles fs letters).tile word :=
  (renderText_answers_ofFiles word [] isSound_nil).1

namespace Alphabet

variable {alphabet first second : Alphabet}

/-- A layout takes one of the widths of every letter. -/
theorem mem_widths_of_layout {mode target : Nat} {text : List Char} {layout : LineLayout}
    (best : LineLayout.best? (text.map (alphabet.widths · mode)) target = some layout)
    {letter : Char} {width : Nat} (pair : (letter, width) ∈ text.zip layout.widths) :
    width ∈ alphabet.widths letter mode := by
  have selected := (LineLayout.takesOf_of_best? best).2.1
  have taken := List.forall₂_map_right_iff.mp (LineLayout.forall₂_of_mem_selections selected)
  exact (List.forall₂_iff_zip.mp taken.flip).2 pair

/-! ## Equal tiles -/

/-- Alphabets that a text cannot tell apart: its letters have the same widths, and in those the same
bitmaps. -/
structure AgreeOn (first second : Alphabet) (mode : Nat) (text : List Char) : Prop where
  widths : ∀ letter ∈ text, first.widths letter mode = second.widths letter mode
  bitmaps : ∀ letter ∈ text, ∀ width ∈ first.widths letter mode,
    first.bitmap mode letter width = second.bitmap mode letter width

theorem AgreeOn.mono {mode : Nat} {text others : List Char} (agree : AgreeOn first second mode text)
    (inside : ∀ letter ∈ others, letter ∈ text) : AgreeOn first second mode others where
  widths letter member := agree.widths letter (inside letter member)
  bitmaps letter member := agree.bitmaps letter (inside letter member)

theorem line_congr {mode : LetterMode} {text : List Char}
    (agree : AgreeOn first second mode.letters text) (word : List Char) :
    first.line mode word text = second.line mode word text := by
  have sameChoices : text.mapM (first.choices mode.letters) =
      text.mapM (second.choices mode.letters) :=
    mapM_congr fun letter member => by rw [choices, choices, agree.widths letter member]
  unfold line
  rw [← sameChoices]
  cases writable : text.mapM (first.choices mode.letters) with
  | error e => rfl
  | ok found =>
    obtain rfl : found = text.map (first.widths · mode.letters) :=
      eq_map_of_mapM writable fun letter widths => widths_of_choices
    simp only [ok_bind]
    cases best : LineLayout.best? (text.map (first.widths · mode.letters)) mode.target with
    | none => rfl
    | some layout =>
      -- The layout asks for widths of the letters only, and there the bitmaps are the same.
      have sameBitmaps : ∀ pair ∈ text.zip layout.widths,
          first.bitmap mode.letters pair.1 pair.2 = second.bitmap mode.letters pair.1 pair.2 := by
        rintro ⟨letter, width⟩ pair
        exact agree.bitmaps letter (List.of_mem_zip pair).1 width (mem_widths_of_layout best pair)
      simp only [mapM_congr sameBitmaps]

theorem tile_congr {word : List Char} (agree : AgreeOn first second (wordMode word) word) :
    first.tile word = second.tile word := by
  have sameLines : ∀ text ∈ splitLines word,
      first.line (letterMode (splitLines word)) word text =
        second.line (letterMode (splitLines word)) word text := fun text member =>
    line_congr (agree.mono fun letter => mem_of_mem_splitLines member) word
  rw [tile, tile, mapM_congr sameLines]

/-! ## Failures -/

theorem error_of_line {mode : LetterMode} {word text : List Char} {e : RenderError}
    (failed : alphabet.line mode word text = .error e) :
    (∃ cause, e = .user (.layout cause)) ∨
      ∃ letter ∈ text, ∃ width ∈ alphabet.widths letter mode.letters,
        alphabet.bitmap mode.letters letter width = .error e := by
  rcases bind_eq_error_iff.mp failed with unwritable | ⟨found, writable, failed⟩
  · obtain ⟨letter, -, missing⟩ := exists_of_mapM_eq_error unwritable
    exact .inl ⟨_, error_of_choices missing⟩
  obtain rfl : found = text.map (alphabet.widths · mode.letters) :=
    eq_map_of_mapM writable fun letter widths => widths_of_choices
  -- From here on it is the layout that fails, or a bitmap that the layout asks for.
  cases best : LineLayout.best? (text.map (alphabet.widths · mode.letters)) mode.target with
  | none =>
    rw [best] at failed
    exact .inl ⟨_, (Except.error.inj failed).symm⟩
  | some layout =>
    rw [best] at failed
    rcases bind_eq_error_iff.mp failed with unloaded | ⟨images, -, set⟩
    · obtain ⟨⟨letter, width⟩, pair, broken⟩ := exists_of_mapM_eq_error unloaded
      exact .inr ⟨letter, (List.of_mem_zip pair).1, width, mem_widths_of_layout best pair, broken⟩
    · cases set

/-- A word cannot be laid out, or the bitmap of one of its letters fails in one of its widths. -/
theorem error_of_tile {word : List Char} {e : RenderError}
    (failed : alphabet.tile word = .error e) :
    (∃ cause, e = .user (.layout cause)) ∨
      ∃ letter ∈ word, ∃ width ∈ alphabet.widths letter (wordMode word),
        alphabet.bitmap (wordMode word) letter width = .error e := by
  unfold tile at failed
  split at failed
  · exact .inl ⟨_, (Except.error.inj failed).symm⟩
  rcases bind_eq_error_iff.mp failed with unset | ⟨lines, -, set⟩
  · obtain ⟨text, member, broken⟩ := exists_of_mapM_eq_error unset
    rcases error_of_line broken with layout | ⟨letter, inText, width, known, missing⟩
    · exact .inl layout
    · exact .inr ⟨letter, mem_of_mem_splitLines member inText, width, known, missing⟩
  · cases set

end Alphabet

end IsoScene.Glyph
