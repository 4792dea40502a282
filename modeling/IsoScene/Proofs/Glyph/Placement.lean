import IsoScene.Proofs.Glyph.Setting
import IsoScene.Proofs.Raster.Drawing
import IsoScene.Proofs.Sprite.Store
import Mathlib.Data.List.Chain

/-! # Where the letters stand

A word whose bitmaps fit its lines is drawn with every letter once, whole and apart from the others
(`exists_placement`). The letters of a line stand one behind the other, each as far from the one
before it as the layout says (`placeFrom`); together they take the total of the layout, for which
the tile has room, and the halved rest is the margin. Two lines are one pitch apart, and no letter
is higher than that.

So no cell lies on two letters. What a cell shows is then what the one letter on it shows, or
nothing (`get?_drawAll_of_covers`, `get?_drawAll_of_not_covers`).
-/

namespace IsoScene.Glyph

/-- A letter on a tile: its bitmap and the cell of the bitmap's top left corner. -/
structure Placed where
  letter : Char
  image : Image
  column : Nat
  row : Nat

namespace Placed

/-- The cell lies on the letter's bitmap. -/
def Covers (glyph : Placed) (x y : Nat) : Prop :=
  (glyph.column ≤ x ∧ x < glyph.column + glyph.image.width) ∧
    (glyph.row ≤ y ∧ y < glyph.row + glyph.image.height)

def Apart (glyph other : Placed) : Prop := ∀ x y, ¬ (glyph.Covers x y ∧ other.Covers x y)

def draw (tile : Image) (glyph : Placed) : Image :=
  tile.blit glyph.image glyph.column glyph.row

/-- The cell of the bitmap that comes to lie on a cell of the tile. -/
def cell? (glyph : Placed) (x y : Nat) : Option Rgba :=
  glyph.image.at? ((x : Int) - glyph.column) ((y : Int) - glyph.row)

theorem cell?_of_not_covers {glyph : Placed} {x y : Nat} (outside : ¬ glyph.Covers x y) :
    glyph.cell? x y = none := by
  rw [cell?, Raster.at?_eq]
  by_cases rows : 0 ≤ (y : Int) - glyph.row ∧ (y : Int) - glyph.row < glyph.image.height
  · rw [if_pos rows, if_neg]
    unfold Covers at outside
    omega
  · rw [if_neg rows]

theorem cell?_add (glyph : Placed) (x y : Nat) :
    glyph.cell? (glyph.column + x) (glyph.row + y) = glyph.image.get? x y := by
  have column : ((glyph.column + x : Nat) : Int) - glyph.column = x := by omega
  have row : ((glyph.row + y : Nat) : Int) - glyph.row = y := by omega
  rw [cell?, column, row, Raster.at?_ofNat]

end Placed

/-! ## Letters that are drawn one after another -/

def drawAll (glyphs : List Placed) : Image :=
  glyphs.foldl Placed.draw (Raster.filled tileSize tileSize Rgba.transparent)

section
variable {glyphs : List Placed} {x y : Nat}

@[simp] theorem width_drawAll : (drawAll glyphs).width = tileSize :=
  Raster.width_foldl (fun _ _ => Raster.width_blit ..) _

@[simp] theorem height_drawAll : (drawAll glyphs).height = tileSize :=
  Raster.height_foldl (fun _ _ => Raster.height_blit ..) _

theorem get?_drawAll (hx : x < tileSize) (hy : y < tileSize) :
    (drawAll glyphs).get? x y =
      some (glyphs.foldl (fun color glyph => color.under (glyph.cell? x y)) Rgba.transparent) := by
  rw [drawAll, Raster.get?_foldl fun tile glyph => Raster.get?_blit tile glyph.image _ _ x y,
    Raster.get?_filled _ _ _ hx hy]
  rfl

/-- Letters on which a cell does not lie do not change it. -/
theorem foldl_under_of_not_covers {color : Rgba}
    (outside : ∀ glyph ∈ glyphs, ¬ glyph.Covers x y) :
    glyphs.foldl (fun color glyph => color.under (glyph.cell? x y)) color = color := by
  induction glyphs generalizing color with
  | nil => rfl
  | cons glyph glyphs ih =>
    obtain ⟨first, later⟩ := List.forall_mem_cons.mp outside
    rw [List.foldl_cons, Placed.cell?_of_not_covers first]
    exact ih later

theorem get?_drawAll_of_not_covers (hx : x < tileSize) (hy : y < tileSize)
    (outside : ∀ glyph ∈ glyphs, ¬ glyph.Covers x y) :
    (drawAll glyphs).get? x y = some Rgba.transparent := by
  rw [get?_drawAll hx hy, foldl_under_of_not_covers outside]

theorem get?_drawAll_of_covers (hx : x < tileSize) (hy : y < tileSize)
    (apart : glyphs.Pairwise Placed.Apart) {glyph : Placed} (member : glyph ∈ glyphs)
    (inside : glyph.Covers x y) :
    (drawAll glyphs).get? x y = some (Rgba.transparent.under (glyph.cell? x y)) := by
  obtain ⟨before, after, rfl⟩ := List.append_of_mem member
  obtain ⟨-, later, across⟩ := List.pairwise_append.mp apart
  obtain ⟨behind, -⟩ := List.pairwise_cons.mp later
  rw [get?_drawAll hx hy, List.foldl_append, List.foldl_cons,
    foldl_under_of_not_covers fun other member covers =>
      across other member glyph List.mem_cons_self x y ⟨covers, inside⟩,
    foldl_under_of_not_covers fun other member covers =>
      behind other member x y ⟨inside, covers⟩]

end

/-! ## One line -/

/-- The letters of a line, placed from a column on. -/
def placeFrom (spacing row : Nat) : Nat → List (Char × Image) → List Placed
  | _, [] => []
  | column, (letter, image) :: rest =>
    ⟨letter, image, column, row⟩ :: placeFrom spacing row (column + image.width + spacing) rest

/-- The width that bitmaps take with the spacing between them. -/
def extent (spacing : Nat) (items : List (Char × Image)) : Nat :=
  (items.map (·.2.width)).sum + spacing * (items.length - 1)

section
variable {spacing row column : Nat} {items : List (Char × Image)}

theorem extent_cons_cons (first second : Char × Image) :
    extent spacing (first :: second :: items) =
      first.2.width + spacing + extent spacing (second :: items) := by
  simp only [extent, List.map_cons, List.sum_cons, List.length_cons, Nat.add_sub_cancel,
    Nat.mul_succ]
  omega

theorem map_letter_placeFrom :
    (placeFrom spacing row column items).map Placed.letter = items.map Prod.fst := by
  induction items generalizing column with
  | nil => rfl
  | cons item items ih => rw [placeFrom, List.map_cons, List.map_cons, ih]

theorem mem_of_mem_placeFrom {glyph : Placed}
    (member : glyph ∈ placeFrom spacing row column items) :
    (glyph.letter, glyph.image) ∈ items ∧ glyph.row = row := by
  induction items generalizing column with
  | nil => cases member
  | cons item items ih =>
    rcases List.mem_cons.mp member with rfl | member
    · exact ⟨List.mem_cons_self, rfl⟩
    · exact (ih member).imp_left (List.mem_cons_of_mem item)

theorem le_column_of_mem_placeFrom {glyph : Placed}
    (member : glyph ∈ placeFrom spacing row column items) : column ≤ glyph.column := by
  induction items generalizing column with
  | nil => cases member
  | cons item items ih =>
    rcases List.mem_cons.mp member with rfl | member
    · exact Nat.le_refl _
    · have later := ih member
      omega

theorem end_le_of_mem_placeFrom {glyph : Placed}
    (member : glyph ∈ placeFrom spacing row column items) :
    glyph.column + glyph.image.width ≤ column + extent spacing items := by
  induction items generalizing column with
  | nil => cases member
  | cons item items ih =>
    cases items with
    | nil =>
      obtain rfl := List.mem_singleton.mp member
      simp [extent]
    | cons next items =>
      rw [extent_cons_cons]
      rcases List.mem_cons.mp member with rfl | member
      · dsimp only
        omega
      · have later := ih member
        omega

theorem isChain_placeFrom : (placeFrom spacing row column items).IsChain fun glyph next =>
    next.column = glyph.column + glyph.image.width + spacing := by
  induction items generalizing column with
  | nil => exact .nil
  | cons item items ih =>
    cases items with
    | nil => exact .singleton _
    | cons next items => exact .cons_cons rfl ih

/-- A letter ends before the letters behind it begin. -/
theorem pairwise_placeFrom : (placeFrom spacing row column items).Pairwise fun glyph other =>
    glyph.column + glyph.image.width ≤ other.column := by
  induction items generalizing column with
  | nil => exact .nil
  | cons item items ih =>
    refine .cons (fun other member => ?_) ih
    have later := le_column_of_mem_placeFrom member
    dsimp only
    omega

theorem exists_last_placeFrom (letters : items ≠ []) :
    ∃ last, (placeFrom spacing row column items).getLast? = some last ∧
      last.column + last.image.width = column + extent spacing items := by
  induction items generalizing column with
  | nil => exact absurd rfl letters
  | cons item items ih =>
    cases items with
    | nil => exact ⟨⟨item.1, item.2, column, row⟩, rfl, by simp [extent]⟩
    | cons next items =>
      obtain ⟨last, found, ends⟩ := @ih (column + item.2.width + spacing) (by simp)
      refine ⟨last, ?_, ?_⟩
      · rw [placeFrom, placeFrom, List.getLast?_cons_cons]
        exact found
      · rw [ends, extent_cons_cons]
        omega

end

/-- A line on a tile: its layout, and its letters from left to right. -/
structure PlacedLine where
  layout : LineLayout
  glyphs : List Placed

/-- A line in its row, in the middle of the tile. -/
def placeLine (row : Nat) (text : List Char) (line : Line) : PlacedLine :=
  ⟨line.layout,
    placeFrom line.layout.spacing row ((tileSize - line.layout.total) / 2)
      (text.zip line.letters)⟩

/-- The line spells a text with the best layout for it, the spacing of the layout between the
letters, and margins on the left and on the right that are alike up to one cell. -/
structure PlacedLine.IsLineOf (fs : FileSystem) (letters : List Char) (mode : LetterMode)
    (text : List Char) (line : PlacedLine) : Prop where
  layout : LineLayout.best? (text.map (findWidths fs letters · mode.letters)) mode.target =
    some line.layout
  spelled : line.glyphs.map Placed.letter = text
  bitmaps : ∀ glyph ∈ line.glyphs,
    loadLetter fs letters mode.letters glyph.letter glyph.image.width = .ok glyph.image
  level : ∀ glyph ∈ line.glyphs, ∀ other ∈ line.glyphs, glyph.row = other.row
  spacing : line.glyphs.IsChain fun glyph next =>
    next.column = glyph.column + glyph.image.width + line.layout.spacing
  inside : ∀ glyph ∈ line.glyphs, glyph.column + glyph.image.width ≤ tileSize
  ordered : line.glyphs.Pairwise fun glyph other =>
    glyph.column + glyph.image.width ≤ other.column
  centred : ∃ first last, line.glyphs.head? = some first ∧ line.glyphs.getLast? = some last ∧
    ((first.column : Int) - (tileSize - (last.column + last.image.width))).natAbs ≤ 1

section
variable {fs : FileSystem} {letters : List Char} {mode : LetterMode} {text : List Char}
  {line : Line}

/-- The columns of the line are those of its letters. -/
theorem columnsFrom_eq (spacing row : Nat) (column : Nat) (items : List (Char × Image)) :
    columnsFrom spacing column (items.map fun item => (item.2, item.2.width)) =
      (placeFrom spacing row column items).map fun glyph => (glyph.column, glyph.image) := by
  induction items generalizing column with
  | nil => rfl
  | cons item items ih =>
    rw [List.map_cons, columnsFrom, placeFrom, List.map_cons, ih]

theorem lineColumns_eq (row : Nat) (same : line.letters.length = text.length)
    (widths : line.letters.map Raster.width = line.layout.widths) :
    lineColumns line =
      (placeLine row text line).glyphs.map fun glyph => (glyph.column, glyph.image) := by
  have pairs : line.letters.zip line.layout.widths =
      (text.zip line.letters).map fun item => (item.2, item.2.width) := by
    rw [← widths]
    calc line.letters.zip (line.letters.map Raster.width)
        = line.letters.map fun image => (image, image.width) :=
          List.map_prod_left_eq_zip.symm
      _ = ((text.zip line.letters).map Prod.snd).map fun image => (image, image.width) := by
          rw [List.map_snd_zip same.le]
      _ = _ := List.map_map
  rw [lineColumns, pairs]
  exact columnsFrom_eq ..

theorem isLineOf_placeLine (row : Nat) (set : IsSet fs letters mode text line)
    (sized : ∀ letter ∈ text, EachBitmap fs letters mode.letters letter fun width image =>
      0 < image.width ∧ image.width = width) :
    (placeLine row text line).IsLineOf fs letters mode text := by
  obtain ⟨-, files⟩ := set.loaded fun letter member width known image file =>
    (sized letter member width known image file).2
  obtain ⟨spaced, fits⟩ := set.layout_eq sized
  have same := set.length_letters
  have written : text.zip line.letters ≠ [] := by
    have some := (LineLayout.takesOf_of_best? set.layout).1
    cases text with
    | nil => exact absurd rfl some
    | cons letter text =>
      cases found : line.letters with
      | nil => simp [found] at same
      | cons image images => simp
  have total : extent line.layout.spacing (text.zip line.letters) = line.layout.total := by
    have widths : (text.zip line.letters).map (·.2.width) = line.letters.map Raster.width := calc
      (text.zip line.letters).map (·.2.width)
        = ((text.zip line.letters).map Prod.snd).map Raster.width := List.map_map.symm
      _ = line.letters.map Raster.width := by rw [List.map_snd_zip same.le]
    rw [spaced, LineLayout.spaced, extent, widths, List.length_zip, List.length_map, ← same,
      Nat.min_self]
  refine ⟨set.layout, ?_, ?_, ?_, isChain_placeFrom, ?_, pairwise_placeFrom, ?_⟩
  · exact map_letter_placeFrom.trans (List.map_fst_zip same.ge)
  · intro glyph member
    obtain ⟨pair, -⟩ := mem_of_mem_placeFrom member
    exact (files glyph.letter glyph.image pair).2
  · intro glyph member other otherMember
    rw [(mem_of_mem_placeFrom member).2, (mem_of_mem_placeFrom otherMember).2]
  · intro glyph member
    have bound := end_le_of_mem_placeFrom member
    rw [total] at bound
    omega
  · -- The margins are the two halves of what the total leaves, one of them rounded down.
    obtain ⟨last, found, ends⟩ := @exists_last_placeFrom line.layout.spacing row
      ((tileSize - line.layout.total) / 2) _ written
    obtain ⟨item, rest, split⟩ := List.exists_cons_of_ne_nil written
    refine ⟨⟨item.1, item.2, (tileSize - line.layout.total) / 2, row⟩, last, ?_, found, ?_⟩
    · simp only [placeLine, split, placeFrom, List.head?_cons]
    · rw [total] at ends
      dsimp only
      omega

end

/-! ## The whole word -/

/-- The lines show a word on a tile: every letter once, whole and apart from the others. -/
structure Shows (fs : FileSystem) (letters word : List Char) (lines : List PlacedLine)
    (tile : Image) : Prop where
  size : tile.width = tileSize ∧ tile.height = tileSize
  spelled : (lines.flatMap fun line => line.glyphs.map Placed.letter) = word.erase '/'
  set : List.Forall₂ (PlacedLine.IsLineOf fs letters (letterMode (splitLines word)))
    (splitLines word) lines
  below : lines.Pairwise fun line next =>
    ∀ glyph ∈ line.glyphs, ∀ other ∈ next.glyphs, other.row = glyph.row + linePitch
  apart : (lines.flatMap PlacedLine.glyphs).Pairwise Placed.Apart
  inside : ∀ glyph ∈ lines.flatMap PlacedLine.glyphs,
    glyph.column + glyph.image.width ≤ tileSize ∧ glyph.row + glyph.image.height ≤ tileSize
  whole : ∀ glyph ∈ lines.flatMap PlacedLine.glyphs, ∀ x y color,
    glyph.image.get? x y = some color → color.alpha = 255 →
      tile.get? (glyph.column + x) (glyph.row + y) = some color
  blank : ∀ x y, x < tileSize → y < tileSize →
    (∀ glyph ∈ lines.flatMap PlacedLine.glyphs, ¬ glyph.Covers x y) →
      tile.get? x y = some Rgba.transparent

section
variable {fs : FileSystem} {letters word : List Char}

theorem height_le_greatestHeight {images : List Image} {image : Image} (member : image ∈ images) :
    image.height ≤ greatestHeight images := by
  have grows : ∀ (heights : List Nat) (start : Nat),
      start ≤ heights.foldl max start ∧ ∀ height ∈ heights, height ≤ heights.foldl max start := by
    intro heights
    induction heights with
    | nil => simp
    | cons height heights ih =>
      intro start
      obtain ⟨first, later⟩ := ih (max start height)
      rw [List.foldl_cons]
      exact ⟨by omega, List.forall_mem_cons.mpr ⟨by omega, later⟩⟩
  exact (grows _ 0).2 _ (List.mem_map_of_mem member)

theorem texts_of_lines {mode : LetterMode} {texts : List (List Char)} {lines : List PlacedLine}
    (placed : List.Forall₂ (PlacedLine.IsLineOf fs letters mode) texts lines) :
    (lines.map fun line => line.glyphs.map Placed.letter) = texts ∧
      ∀ line ∈ lines, ∃ text, line.IsLineOf fs letters mode text := by
  induction placed with
  | nil => simp
  | @cons text line _ _ isLine _ ih =>
    exact ⟨by rw [List.map_cons, isLine.spelled, ih.1],
      List.forall_mem_cons.mpr ⟨⟨text, isLine⟩, ih.2⟩⟩

/-- Lines that are where they should be show the word if nothing is higher than its line. -/
theorem shows_of_lines {lines : List PlacedLine}
    (placed : List.Forall₂ (PlacedLine.IsLineOf fs letters (letterMode (splitLines word)))
      (splitLines word) lines)
    (below : lines.Pairwise fun line next => ∀ glyph ∈ line.glyphs,
      glyph.image.height ≤ linePitch ∧
        ∀ other ∈ next.glyphs, other.row = glyph.row + linePitch)
    (bottom : ∀ line ∈ lines, ∀ glyph ∈ line.glyphs,
      glyph.row + glyph.image.height ≤ tileSize) :
    Shows fs letters word lines (drawAll (lines.flatMap PlacedLine.glyphs)) := by
  obtain ⟨texts, lineOf⟩ := texts_of_lines placed
  have inside : ∀ glyph ∈ lines.flatMap PlacedLine.glyphs,
      glyph.column + glyph.image.width ≤ tileSize ∧
        glyph.row + glyph.image.height ≤ tileSize := by
    intro glyph member
    obtain ⟨line, lineMember, member⟩ := List.mem_flatMap.mp member
    obtain ⟨text, isLine⟩ := lineOf line lineMember
    exact ⟨isLine.inside glyph member, bottom line lineMember glyph member⟩
  have apart : (lines.flatMap PlacedLine.glyphs).Pairwise Placed.Apart := by
    -- In a line it is the columns that keep letters apart, between lines it is the rows.
    rw [List.pairwise_flatMap]
    constructor
    · intro line lineMember
      obtain ⟨text, isLine⟩ := lineOf line lineMember
      refine isLine.ordered.imp fun ends x y => ?_
      unfold Placed.Covers
      omega
    · refine below.imp fun rows glyph member other otherMember x y => ?_
      obtain ⟨height, later⟩ := rows glyph member
      have row := later other otherMember
      unfold Placed.Covers
      omega
  refine ⟨⟨width_drawAll, height_drawAll⟩, ?_, placed, ?_, apart, inside, ?_, ?_⟩
  · rw [← flatten_splitLines, ← texts, List.flatMap_def]
  · exact below.imp fun rows glyph member => (rows glyph member).2
  · intro glyph member x y color found solid
    obtain ⟨hx, hy⟩ := Raster.isSome_get?_iff.mp (Option.isSome_of_eq_some found)
    obtain ⟨right, low⟩ := inside glyph member
    rw [get?_drawAll_of_covers (by omega) (by omega) apart member ⟨by omega, by omega⟩,
      Placed.cell?_add, found, Rgba.under_of_opaque solid]
  · intro x y hx hy outside
    exact get?_drawAll_of_not_covers hx hy outside

/-- Drawing a line is drawing its letters. -/
theorem foldl_lineColumns {text : List Char} {line : Line} (row : Nat) (tile : Image)
    (same : line.letters.length = text.length)
    (widths : line.letters.map Raster.width = line.layout.widths) :
    (lineColumns line).foldl (fun tile (column, letter) => tile.blit letter column row) tile =
      (placeLine row text line).glyphs.foldl Placed.draw tile := by
  rw [lineColumns_eq row same widths, List.foldl_map]
  refine List.foldl_ext _ _ tile fun tile glyph member => ?_
  rw [Placed.draw, (mem_of_mem_placeFrom member).2]

/-- A line that is set, in any row. -/
theorem placeLine_of_line (bitmaps : FitsLines fs letters word) {text : List Char} {line : Line}
    (member : text ∈ splitLines word)
    (set : (Alphabet.ofFiles fs letters).line (letterMode (splitLines word)) word text = .ok line)
    (row : Nat) :
    (placeLine row text line).IsLineOf fs letters (letterMode (splitLines word)) text ∧
      (∀ glyph ∈ (placeLine row text line).glyphs, glyph.row = row ∧
        glyph.image.height ≤ greatestHeight line.letters ∧
        glyph.image.height ≤ if (splitLines word).length = 2 then linePitch else tileSize) ∧
      ∀ tile : Image,
        (lineColumns line).foldl (fun tile (column, letter) => tile.blit letter column row) tile =
          (placeLine row text line).glyphs.foldl Placed.draw tile := by
  have isSet := isSet_of_line set
  have inWord : ∀ letter ∈ text, letter ∈ word := fun _ => mem_of_mem_splitLines member
  obtain ⟨widths, files⟩ := isSet.loaded fun letter member width known image file =>
    (bitmaps letter (inWord letter member) width known image file).2.1
  refine ⟨isLineOf_placeLine row isSet fun letter member width known image file => ?_,
    fun glyph member => ?_, fun tile => foldl_lineColumns row tile isSet.length_letters widths⟩
  · obtain ⟨column, width, -⟩ := bitmaps letter (inWord letter member) width known image file
    exact ⟨column, width⟩
  · obtain ⟨pair, inRow⟩ := mem_of_mem_placeFrom member
    obtain ⟨inText, inLine⟩ := List.of_mem_zip pair
    obtain ⟨known, file⟩ := files glyph.letter glyph.image pair
    obtain ⟨-, -, low⟩ := bitmaps glyph.letter (inWord _ inText) _ known glyph.image file
    exact ⟨inRow, height_le_greatestHeight inLine, low⟩

/-- A word of one line, in the middle of the tile. -/
theorem shows_one_line (bitmaps : FitsLines fs letters word) {text : List Char} {line : Line}
    (texts : splitLines word = [text])
    (set : (Alphabet.ofFiles fs letters).line (letterMode (splitLines word)) word text = .ok line) :
    Shows fs letters word [placeLine (topRow [line]) text line] (composeLines [line]) := by
  obtain ⟨isLine, glyphs, drawn⟩ :=
    placeLine_of_line bitmaps (by simp [texts]) set (topRow [line])
  have tile : composeLines [line] =
      drawAll ([placeLine (topRow [line]) text line].flatMap PlacedLine.glyphs) := by
    rw [List.flatMap_singleton]
    exact drawn _
  rw [tile]
  refine shows_of_lines ?_ (List.pairwise_singleton ..) ?_
  · rw [texts] at isLine ⊢
    exact .cons isLine .nil
  · rw [List.forall_mem_singleton]
    intro glyph member
    obtain ⟨row, height, low⟩ := glyphs glyph member
    rw [texts, if_neg (by simp)] at low
    simp only [topRow, List.length_singleton, List.getLast?_singleton, Option.map_some,
      Option.getD_some, tileSize, linePitch] at row low ⊢
    omega

/-- A word of two lines. They are one pitch apart, and the second is as high as it is. -/
theorem shows_two_lines (bitmaps : FitsLines fs letters word) {text under : List Char}
    {line last : Line} (texts : splitLines word = [text, under])
    (set : (Alphabet.ofFiles fs letters).line (letterMode (splitLines word)) word text = .ok line)
    (lastSet :
      (Alphabet.ofFiles fs letters).line (letterMode (splitLines word)) word under = .ok last) :
    Shows fs letters word [placeLine (topRow [line, last]) text line,
      placeLine (topRow [line, last] + linePitch) under last] (composeLines [line, last]) := by
  obtain ⟨isLine, glyphs, drawn⟩ :=
    placeLine_of_line bitmaps (by simp [texts]) set (topRow [line, last])
  obtain ⟨isLast, lastGlyphs, lastDrawn⟩ :=
    placeLine_of_line bitmaps (by simp [texts]) lastSet (topRow [line, last] + linePitch)
  have tile : composeLines [line, last] = drawAll ([placeLine (topRow [line, last]) text line,
      placeLine (topRow [line, last] + linePitch) under last].flatMap PlacedLine.glyphs) := by
    rw [List.flatMap_cons, List.flatMap_singleton, drawAll, List.foldl_append, ← drawn,
      ← lastDrawn]
    rfl
  rw [tile]
  simp only [texts, List.length_cons, List.length_nil, reduceIte] at glyphs lastGlyphs
  refine shows_of_lines ?_ ?_ ?_
  · rw [texts] at isLine isLast ⊢
    exact .cons isLine (.cons isLast .nil)
  · rw [List.pairwise_pair]
    intro glyph member
    obtain ⟨row, -, low⟩ := glyphs glyph member
    refine ⟨low, fun other member => ?_⟩
    obtain ⟨lastRow, -⟩ := lastGlyphs other member
    rw [lastRow, row]
  · simp only [List.forall_mem_cons, List.not_mem_nil, false_implies, implies_true, and_true]
    have ends : [line, last].getLast? = some last := rfl
    constructor
    · intro glyph member
      obtain ⟨row, -, low⟩ := glyphs glyph member
      simp only [topRow, List.length_cons, List.length_nil, tileSize, linePitch] at row low ⊢
      omega
    · intro glyph member
      obtain ⟨row, height, low⟩ := lastGlyphs glyph member
      simp only [topRow, ends, List.length_cons, List.length_nil, Option.map_some,
        Option.getD_some, tileSize, linePitch] at row low ⊢
      omega

/-- If a word is drawn, every letter of it stands on the tile once, whole and apart from the other
letters. -/
theorem exists_placement {tile : Image} {after : WidthCache}
    (drawn : (renderText fs letters word).answer [] = (.ok tile, after))
    (bitmaps : FitsLines fs letters word) :
    ∃ lines, Shows fs letters word lines tile := by
  have found : (Alphabet.ofFiles fs letters).tile word = .ok tile := by
    rw [(renderText_answers_ofFiles word).eq_of_allowed isSound_nil, drawn]
  unfold Alphabet.tile at found
  split at found
  · cases found
  next written =>
  obtain ⟨lines, set, ⟨⟩⟩ := bind_eq_ok_iff.mp found
  rw [mapM_eq_ok_iff] at set
  -- There is one line or there are two, and either is placed in its own way.
  have few := length_splitLines_le word
  generalize finds : (Alphabet.ofFiles fs letters).line (letterMode (splitLines word)) word = find
    at set
  rcases texts : splitLines word with _ | ⟨text, _ | ⟨under, _ | ⟨third, rest⟩⟩⟩
  · simp [texts] at written
  · rw [texts] at set
    obtain ⟨line, rest, rfl, lineSet, none⟩ := List.map_eq_cons_iff.mp set.symm
    obtain rfl := List.map_eq_nil_iff.mp none
    rw [← finds] at lineSet
    exact ⟨_, shows_one_line bitmaps texts lineSet.symm⟩
  · rw [texts] at set
    obtain ⟨line, rest, rfl, lineSet, later⟩ := List.map_eq_cons_iff.mp set.symm
    obtain ⟨last, rest, rfl, lastSet, none⟩ := List.map_eq_cons_iff.mp later
    obtain rfl := List.map_eq_nil_iff.mp none
    rw [← finds] at lineSet lastSet
    exact ⟨_, shows_two_lines bitmaps texts lineSet.symm lastSet.symm⟩
  · simp [texts] at few

end

/-- Letters in two widths and of two heights, and one that is not used. -/
def someLetters : FileSystem where
  nodes :=
    [(["l"], .directory), (["l", "a"], .directory), (["l", "b"], .directory),
      (["l", "a", "4_5.png"], .file (.picture (Raster.filled 5 9 ⟨7, 8, 9, 255⟩))),
      (["l", "a", "4_10.png"], .file (.picture (Raster.filled 10 12 ⟨1, 2, 3, 255⟩))),
      (["l", "a", "2_10.png"], .file (.picture (Raster.filled 3 3 ⟨1, 2, 3, 255⟩))),
      (["l", "b", "4_9.png"], .file (.picture (Raster.filled 9 7 ⟨0, 5, 0, 255⟩)))]
  workingDirectory := []

theorem exists_placement_two_lines :
    ∃ tile after lines,
      (renderText someLetters "l".toList "a/ba".toList).answer [] = (.ok tile, after) ∧
        FitsLines someLetters "l".toList "a/ba".toList ∧
        Shows someLetters "l".toList "a/ba".toList lines tile := by
  have bitmaps : FitsLines someLetters "l".toList "a/ba".toList := by
    have files : "a/ba".toList.all fun letter =>
        (findWidths someLetters "l".toList letter 4).all fun width =>
          (loadLetter someLetters "l".toList 4 letter width).toOption.all fun image =>
            0 < image.width ∧ image.width = width ∧ image.height ≤ 12 := by
      decide +kernel
    intro letter member width known image file
    have fits := List.all_eq_true.mp (List.all_eq_true.mp files letter member) width known
    rw [show loadLetter someLetters "l".toList 4 letter width = .ok image from file] at fits
    simp only [Except.toOption, Option.all_some, decide_eq_true_eq] at fits
    exact fits
  have drawn : ((renderText someLetters "l".toList "a/ba".toList).answer []).1.toOption.isSome := by
    decide +kernel
  rcases run : (renderText someLetters "l".toList "a/ba".toList).answer [] with ⟨e | tile, after⟩
  · rw [run] at drawn
    cases drawn
  · obtain ⟨lines, shows⟩ := exists_placement run bitmaps
    exact ⟨tile, after, lines, rfl, bitmaps, shows⟩

end IsoScene.Glyph
