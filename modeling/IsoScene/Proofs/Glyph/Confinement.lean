import IsoScene.Proofs.Glyph.Discovery
import Mathlib.Data.List.Sort

/-! # Words are drawn from their own directory

Every letter of a word becomes a part of a path. A single character cannot lead upwards, but a slash
would make a path of its own that starts at the root; it is no letter, and so no bitmap of it is
looked for. All other paths go down from the directory of the letters. File systems that have the
same at and below this directory therefore offer the same letters (`agreeOn_ofFiles`), and a new
engine draws every word alike from them (`drawn_alike_of_sameBelow`), whatever else they hold and
wherever in them the directory is.
-/

namespace IsoScene.Glyph

open FileSystem (SameBelow)

variable {first second : FileSystem} {letters : List Char}

theorem sameBelow_letterDirectory (same : SameBelow first second letters) {letter : Char}
    (notSlash : letter ≠ '/') :
    SameBelow first second (letterDirectory letters letter) :=
  same.join (by simpa using Ne.symm notSlash) (by simp)

theorem findWidths_congr (same : SameBelow first second letters) (letter : Char) (mode : Nat) :
    findWidths first letters letter mode = findWidths second letters letter mode := by
  -- Both lists are in ascending order, so it only counts which widths are in them.
  refine (pairwise_findWidths letter mode).eq_of_mem_iff (pairwise_findWidths letter mode) ?_
  intro width
  rw [mem_findWidths_iff, mem_findWidths_iff]
  refine and_congr_right fun notSlash => ?_
  have inDirectory := sameBelow_letterDirectory same notSlash
  have directory : first.isDirectory (letterDirectory letters letter) =
      second.isDirectory (letterDirectory letters letter) := by
    rw [FileSystem.isDirectory, inDirectory.lookup_eq, FileSystem.isDirectory]
  rw [directory]
  simp only [inDirectory.mem_names_iff]

theorem loadLetter_congr (same : SameBelow first second letters) {letter : Char}
    (notSlash : letter ≠ '/') (mode width : Nat) :
    loadLetter first letters mode letter width = loadLetter second letters mode letter width := by
  have name := isName_widthName mode width
  have file : SameBelow first second (letterFile letters letter mode width) :=
    (sameBelow_letterDirectory same notSlash).join name.no_slash name.ne_up
  have present : first.isFile (letterFile letters letter mode width) =
      second.isFile (letterFile letters letter mode width) := by
    rw [FileSystem.isFile, file.lookup_eq, FileSystem.isFile]
  have content : first.readImage (letterFile letters letter mode width) =
      second.readImage (letterFile letters letter mode width) := by
    rw [FileSystem.readImage, file.lookup_eq, FileSystem.readImage]
  rw [loadLetter, present, content, loadLetter]

theorem agreeOn_ofFiles (same : SameBelow first second letters) (mode : Nat) (text : List Char) :
    Alphabet.AgreeOn (.ofFiles first letters) (.ofFiles second letters) mode text where
  widths letter _ := findWidths_congr same letter mode
  bitmaps _ _ _ known :=
    -- A slash has no widths, so nothing is looked for at the root.
    loadLetter_congr same (mem_findWidths_iff.mp known).1 mode _

/-- A new engine draws a word alike, or fails alike, from file systems that have the same at and
below the directory of the letters. -/
theorem drawn_alike_of_sameBelow (same : SameBelow first second letters) (word : List Char) :
    ((renderText first letters word).answer []).1 =
      ((renderText second letters word).answer []).1 := by
  rw [answer_renderText_new, answer_renderText_new]
  exact Alphabet.tile_congr (agreeOn_ofFiles same _ word)

/-- The second slash of a word is no letter, also if there is a bitmap for it at the root. -/
theorem drawn_alike_with_slashes :
    let glyph : FileNode := .file (.picture (Raster.filled 5 8 ⟨255, 0, 0, 255⟩))
    let first : FileSystem :=
      ⟨[(["4_5.png"], glyph), (["letters"], .directory), (["letters", "a"], .directory),
        (["letters", "a", "4_5.png"], glyph)], []⟩
    let second : FileSystem :=
      ⟨[(["home"], .directory), (["home", "letters"], .directory),
        (["home", "letters", "a"], .directory), (["home", "letters", "a", "4_5.png"], glyph)],
        ["home"]⟩
    let letters := "letters".toList
    let word := "a//".toList
    SameBelow first second letters ∧
      ((renderText first letters word).answer []).1 =
        ((renderText second letters word).answer []).1 ∧
      ((renderText first letters word).answer []).1 =
        .error (.user (.layout (.unknownLetter '/'))) := by
  intro glyph first second letters word
  have same : SameBelow first second letters := by
    have inRoot : first.walk letters = some ["letters"] := by decide +kernel
    have inHome : second.walk letters = some ["home", "letters"] := by decide +kernel
    intro below
    rw [FileSystem.nodeBelow, inRoot, FileSystem.nodeBelow, inHome]
    simp [FileSystem.node?, first, second, List.lookup_cons]
  exact ⟨same, drawn_alike_of_sameBelow same word, by decide +kernel⟩

end IsoScene.Glyph
