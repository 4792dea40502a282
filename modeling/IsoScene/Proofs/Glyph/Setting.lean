import IsoScene.Proofs.Failure
import IsoScene.Proofs.Glyph.Alphabet
import IsoScene.Proofs.Glyph.Search
import Mathlib.Data.List.Forall2

/-! # How the lines of a word are set

A line is set in the alphabet of the files. Its layout is then the best one for its letters, and
its bitmaps are those of its letters in the widths of the layout (`IsSet`). If a bitmap is as wide
as its name says, the layout has room for the letters and for the spacing between them
(`IsSet.layout_eq`). The letters of an overlong line are refused for their widths alone, long before
they are too many to count.
-/

namespace IsoScene.Glyph

variable {fs : FileSystem} {letters : List Char}

/-! ## What a layout is -/

namespace LineLayout

theorem mem_of_foldl_better {target : Nat} {layouts : List LineLayout} {best : Option LineLayout}
    {layout : LineLayout} (found : layouts.foldl (better target) best = some layout) :
    best = some layout ∨ layout ∈ layouts := by
  induction layouts generalizing best with
  | nil => exact .inl found
  | cons first rest ih =>
    rw [List.foldl_cons] at found
    rcases ih found with kept | later
    · have either : better target best first = some first ∨ better target best first = best := by
        cases best with
        | none => exact .inl rfl
        | some other =>
          simp only [better]
          split
          · exact .inl rfl
          · exact .inr rfl
      rcases either with replaced | same
      · obtain rfl : first = layout := by rwa [replaced, Option.some.injEq] at kept
        exact .inr List.mem_cons_self
      · exact .inl (same.symm.trans kept)
    · exact .inr (List.mem_cons_of_mem first later)

theorem forall₂_of_mem_selections {choices : List (List Nat)} {widths : List Nat}
    (member : widths ∈ selections choices) : List.Forall₂ (· ∈ ·) widths choices := by
  induction choices generalizing widths with
  | nil =>
    obtain rfl : widths = [] := by simpa [selections] using member
    exact .nil
  | cons first rest ih =>
    simp only [selections, List.mem_flatMap, List.mem_map] at member
    obtain ⟨width, taken, others, member, rfl⟩ := member
    exact .cons taken (ih member)

/-- The widths of a layout are chosen from those of the letters, and the letters alone fit the
tile. This holds of any number of letters. -/
def TakesOf (choices : List (List Nat)) (layout : LineLayout) : Prop :=
  layout.widths ∈ selections choices ∧ layout.widths.sum ≤ tileSize

theorem takesOf_of_search {target spacing used : Nat} {choices : List (List Nat)}
    {best : Option LineLayout} {layout : LineLayout} (letters : choices ≠ [])
    (found : search target spacing choices used [] best = some layout) :
    best = some layout ∨ layout.TakesOf choices := by
  rw [search_eq fun nothing => absurd nothing letters] at found
  refine (mem_of_foldl_better found).imp_right fun member => ?_
  obtain ⟨completed, fits⟩ := List.mem_filter.mp member
  obtain ⟨widths, selected, rfl⟩ := List.mem_map.mp completed
  have within : used + widths.sum ≤ tileSize := of_decide_eq_true fits
  exact ⟨selected, by simpa using (show widths.sum ≤ tileSize by omega)⟩

theorem takesOf_of_best? {target : Nat} {choices : List (List Nat)} {layout : LineLayout}
    (found : best? choices target = some layout) : choices ≠ [] ∧ layout.TakesOf choices := by
  have searched : searchAll choices target = .ok (some layout) := by
    unfold best? at found
    split at found
    · next ok => rw [ok, found]
    · cases found
  unfold searchAll at searched
  split at searched
  · cases searched
  · next writable =>
    have letters : choices ≠ [] := by
      rintro rfl
      exact writable rfl
    refine ⟨letters, ?_⟩
    obtain ⟨gaps, -, searched⟩ := bind_eq_ok_iff.mp searched
    split at searched
    · cases searched
    · -- One search for each of the two spacings.
      obtain ⟨wide, first, searched⟩ := bind_eq_ok_iff.mp searched
      obtain ⟨narrow, second, searched⟩ := bind_eq_ok_iff.mp searched
      obtain ⟨_, -, ⟨⟩⟩ := bind_eq_ok_iff.mp first
      obtain ⟨_, -, ⟨⟩⟩ := bind_eq_ok_iff.mp second
      rcases takesOf_of_search letters (Except.ok.inj searched) with kept | takes
      · rcases takesOf_of_search letters kept with ⟨⟨⟩⟩ | takes
        exact takes
      · exact takes

/-- With few letters, the total of a layout is the width of the letters with the spacing. -/
theorem total_of_best? {target : Nat} {choices : List (List Nat)} {layout : LineLayout}
    (few : choices.length ≤ Text.maxNat32) (found : best? choices target = some layout) :
    layout = spaced layout.spacing layout.widths ∧ layout.total ≤ tileSize := by
  rw [best?, searchAll_of_few (takesOf_of_best? found).1 few] at found
  obtain ⟨member, fits⟩ := List.mem_filter.mp (List.argmin_mem found)
  obtain ⟨spacing, -, made⟩ := List.mem_flatMap.mp member
  obtain ⟨widths, -, rfl⟩ := List.mem_map.mp made
  exact ⟨rfl, of_decide_eq_true fits⟩

end LineLayout

/-! ## Lines that are set -/

/-- Whatever bitmap a letter has in one of its widths, it has the property. -/
def EachBitmap (fs : FileSystem) (letters : List Char) (mode : Nat) (letter : Char)
    (property : Nat → Image → Prop) : Prop :=
  ∀ width ∈ findWidths fs letters letter mode, ∀ image,
    loadLetter fs letters mode letter width = .ok image → property width image

/-- The bitmaps of a word's letters are as wide as their names say and not higher than a line. They
have a column, which excludes no file: a PNG file has at least one column. -/
def FitsLines (fs : FileSystem) (letters word : List Char) : Prop :=
  ∀ letter ∈ word, EachBitmap fs letters (letterMode (splitLines word)).letters letter
    fun width image => 0 < image.width ∧ image.width = width ∧
      image.height ≤ if (splitLines word).length = 2 then linePitch else tileSize

/-- A line is set with the best layout for its letters, and with their bitmaps in its widths. -/
structure IsSet (fs : FileSystem) (letters : List Char) (mode : LetterMode) (text : List Char)
    (line : Line) : Prop where
  layout : LineLayout.best? (text.map (findWidths fs letters · mode.letters)) mode.target =
    some line.layout
  bitmaps : (text.zip line.layout.widths).map
      (fun (letter, width) => loadLetter fs letters mode.letters letter width) =
    line.letters.map .ok

theorem isSet_of_line {mode : LetterMode} {word text : List Char} {line : Line}
    (set : (Alphabet.ofFiles fs letters).line mode word text = .ok line) :
    IsSet fs letters mode text line := by
  obtain ⟨choices, writable, set⟩ := bind_eq_ok_iff.mp set
  have known : choices = text.map (findWidths fs letters · mode.letters) :=
    eq_map_of_mapM writable fun letter widths => Alphabet.widths_of_choices
  subst known
  split at set
  · cases set
  · next layout best =>
    obtain ⟨images, loaded, ⟨⟩⟩ := bind_eq_ok_iff.mp set
    exact ⟨best, mapM_eq_ok_iff.mp loaded⟩

namespace IsSet

variable {mode : LetterMode} {text : List Char} {line : Line}

/-- Every letter has the width that it is set in. -/
theorem taken (set : IsSet fs letters mode text line) :
    List.Forall₂ (fun width letter => width ∈ findWidths fs letters letter mode.letters)
      line.layout.widths text := by
  have chosen :=
    LineLayout.forall₂_of_mem_selections (LineLayout.takesOf_of_best? set.layout).2.1
  exact List.forall₂_map_right_iff.mp chosen

theorem length_letters (set : IsSet fs letters mode text line) :
    line.letters.length = text.length := by
  have same := congrArg List.length set.bitmaps
  simpa [set.taken.length_eq] using same.symm

/-- Each bitmap is as wide as the layout says and loaded from the file for its width. -/
theorem loaded (set : IsSet fs letters mode text line)
    (sized : ∀ letter ∈ text, EachBitmap fs letters mode.letters letter fun width image =>
      image.width = width) :
    line.letters.map Raster.width = line.layout.widths ∧
      ∀ letter image, (letter, image) ∈ text.zip line.letters →
        image.width ∈ findWidths fs letters letter mode.letters ∧
          loadLetter fs letters mode.letters letter image.width = .ok image := by
  have taken := set.taken
  obtain ⟨-, bitmaps⟩ := set
  generalize line.letters = images, line.layout.widths = widths at taken bitmaps ⊢
  -- Widths, letters and bitmaps are gone through side by side.
  induction taken generalizing images with
  | nil => cases images <;> simp at bitmaps ⊢
  | @cons width letter widths text known _ ih =>
    cases images with
    | nil => cases bitmaps
    | cons image images =>
      obtain ⟨sizedFirst, sizedLater⟩ := List.forall_mem_cons.mp sized
      obtain ⟨first, later⟩ := List.cons.inj bitmaps
      obtain rfl := sizedFirst width known image first
      obtain ⟨widths, files⟩ := ih sizedLater images later
      refine ⟨by rw [List.map_cons, widths], fun letter other member => ?_⟩
      rcases List.mem_cons.mp member with same | member
      · obtain ⟨rfl, rfl⟩ := Prod.mk.inj same
        exact ⟨known, first⟩
      · exact files letter other member

/-- The total of the layout is the width that the bitmaps take with the spacing between them, and
the tile has room for it. -/
theorem layout_eq (set : IsSet fs letters mode text line)
    (sized : ∀ letter ∈ text, EachBitmap fs letters mode.letters letter fun width image =>
      0 < image.width ∧ image.width = width) :
    line.layout = LineLayout.spaced line.layout.spacing (line.letters.map Raster.width) ∧
      line.layout.total ≤ tileSize := by
  obtain ⟨widths, files⟩ := set.loaded fun letter member width known image file =>
    (sized letter member width known image file).2
  -- Each letter takes a column at least, so there are no more letters than columns.
  have few : text.length ≤ tileSize := calc
    text.length = (line.letters.map Raster.width).length := by
      rw [List.length_map, set.length_letters]
    _ ≤ (line.letters.map Raster.width).sum := by
      refine List.length_le_sum_of_one_le _ fun width member => ?_
      have pairs : (text.zip line.letters).map Prod.snd = line.letters :=
        List.map_snd_zip set.length_letters.le
      obtain ⟨image, bitmap, rfl⟩ := List.mem_map.mp member
      rw [← pairs] at bitmap
      obtain ⟨⟨letter, image⟩, pair, rfl⟩ := List.mem_map.mp bitmap
      obtain ⟨known, file⟩ := files letter image pair
      exact (sized letter (List.of_mem_zip pair).1 image.width known image file).1
    _ ≤ tileSize := widths ▸ (LineLayout.takesOf_of_best? set.layout).2.2
  rw [widths]
  refine LineLayout.total_of_best? ?_ set.layout
  rw [List.length_map]
  exact few.trans (by decide)

end IsSet

end IsoScene.Glyph
