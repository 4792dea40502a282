import IsoScene.Proofs.FileSystem.Below
import IsoScene.Proofs.Glyph.Dependence
import IsoScene.Proofs.Text.Numerals

/-! # Widths that are found

The widths of a letter are read from the names in its directory, and the file of a width is looked
for under the plain name of the width. Names are read leniently: zeros and a plus sign may stand in
front of the digits (`widthOfName_eq_some_iff`), and it does not matter what the name belongs to. So
a width may be found whose file is not there.

`isFile_of_width_iff` says when this does not happen: when beside every name that is read as a width
there is a file with the plain name of this width. A word then fails for its layout or for a damaged
file alone; otherwise it may also miss a file (`failures_of_word`).
-/

namespace IsoScene.Glyph

variable {fs : FileSystem} {letters : List Char}

/-! ## Names of widths -/

theorem dropStart?_eq_some_iff {start s rest : List Char} :
    dropStart? start s = some rest ↔ s = start ++ rest := by
  unfold dropStart?
  constructor
  · intro dropped
    split at dropped
    · next starts =>
      obtain ⟨others, rfl⟩ := List.isPrefixOf_iff_prefix.mp starts
      rw [List.drop_left] at dropped
      rw [Option.some.inj dropped]
    · cases dropped
  · rintro rfl
    rw [if_pos (List.isPrefixOf_iff_prefix.mpr (List.prefix_append start rest)), List.drop_left]

theorem dropEnd?_eq_some_iff {tail s front : List Char} :
    dropEnd? tail s = some front ↔ s = front ++ tail := by
  simp only [dropEnd?, Option.map_eq_some_iff, dropStart?_eq_some_iff]
  constructor
  · rintro ⟨reversed, split, rfl⟩
    simpa using congrArg List.reverse split
  · rintro rfl
    exact ⟨front.reverse, by simp, by simp⟩

/-- The plain name of a width: the file of the width is looked for under this name. -/
def widthName (mode width : Nat) : List Char :=
  digits mode ++ '_' :: digits width ++ ".png".toList

/-- The name is that of a width, but for a plus sign and zeros in front of the width. -/
def Spells (mode : Nat) (name : String) (width : Nat) : Prop :=
  width ≤ Text.maxNat32 ∧ ∃ sign zeros, (sign = [] ∨ sign = ['+']) ∧
    name.toList = digits mode ++ '_' :: (sign ++ (List.replicate zeros '0' ++ digits width)) ++
      ".png".toList

theorem widthOfName_eq_some_iff {mode width : Nat} {name : String} :
    widthOfName mode name = some width ↔ Spells mode name width := by
  have plain : digits width = Nat.toDigits 10 width := Nat.toList_repr
  simp only [widthOfName, Option.bind_eq_bind, Option.bind_eq_some_iff, dropEnd?_eq_some_iff,
    dropStart?_eq_some_iff, Text.readNat_eq_some_iff, Spells, plain]
  constructor
  · rintro ⟨stem, named, text, rfl, small, sign, zeros, isSign, rfl⟩
    exact ⟨small, sign, zeros, isSign, by simp [named]⟩
  · rintro ⟨small, sign, zeros, isSign, named⟩
    exact ⟨_, named, _, by simp, small, sign, zeros, isSign, rfl⟩

/-! ## Lists of widths -/

theorem mem_insertWidth {width other : Nat} {widths : List Nat} :
    other ∈ insertWidth width widths ↔ other = width ∨ other ∈ widths := by
  induction widths with
  | nil => simp [insertWidth]
  | cons first rest ih =>
    unfold insertWidth
    split
    · simp
    · split
      · next same => simp [same]
      · simp only [List.mem_cons, ih]
        exact or_left_comm

theorem pairwise_insertWidth {width : Nat} {widths : List Nat}
    (ascending : widths.Pairwise (· < ·)) : (insertWidth width widths).Pairwise (· < ·) := by
  induction widths with
  | nil => simp [insertWidth]
  | cons first rest ih =>
    obtain ⟨least, later⟩ := List.pairwise_cons.mp ascending
    unfold insertWidth
    split
    · next less =>
      refine List.pairwise_cons.mpr ⟨?_, ascending⟩
      intro other member
      rcases List.mem_cons.mp member with rfl | member
      · exact less
      · exact less.trans (least other member)
    · split
      · exact ascending
      · refine List.pairwise_cons.mpr ⟨?_, ih later⟩
        intro other member
        rcases mem_insertWidth.mp member with rfl | member
        · omega
        · exact least other member

theorem mem_findWidths_iff {letter : Char} {mode width : Nat} :
    width ∈ findWidths fs letters letter mode ↔
      letter ≠ '/' ∧ fs.isDirectory (letterDirectory letters letter) = true ∧
        ∃ name ∈ fs.names (letterDirectory letters letter), Spells mode name width := by
  have sorted : ∀ widths : List Nat, width ∈ widths.foldr insertWidth [] ↔ width ∈ widths := by
    intro widths
    induction widths with
    | nil => rfl
    | cons first rest ih => rw [List.foldr_cons, mem_insertWidth, ih, List.mem_cons]
  unfold findWidths
  dsimp only
  split
  · next listed =>
    simp only [Bool.and_eq_true, decide_eq_true_eq] at listed
    simp only [sorted, List.mem_filterMap, widthOfName_eq_some_iff, listed, ne_eq,
      not_false_eq_true, true_and]
  · next unlisted =>
    simp only [Bool.and_eq_true, decide_eq_true_eq, not_and] at unlisted
    simp only [List.not_mem_nil, false_iff, not_and]
    exact fun notSlash directory => absurd directory (unlisted notSlash)

theorem pairwise_findWidths (letter : Char) (mode : Nat) :
    (findWidths fs letters letter mode).Pairwise (· < ·) := by
  unfold findWidths
  dsimp only
  split
  · generalize List.filterMap _ _ = widths
    induction widths with
    | nil => exact .nil
    | cons first rest ih => exact pairwise_insertWidth ih
  · exact .nil

/-! ## Files of widths -/

theorem mem_digits {n : Nat} {c : Char} (member : c ∈ digits n) : c.isDigit = true := by
  have plain : digits n = Nat.toDigits 10 n := Nat.toList_repr
  exact Nat.isDigit_of_mem_toDigits (by decide) (by decide) (plain ▸ member)

theorem not_mem_widthName {c : Char} (noDigit : c.isDigit = false) (other : c ∉ "_.png".toList)
    (mode width : Nat) : c ∉ widthName mode width := by
  intro member
  simp only [widthName, List.mem_append, List.mem_cons] at member
  rcases member with (inMode | rfl | inWidth) | inSuffix
  · simp [mem_digits inMode] at noDigit
  · exact other (by decide)
  · simp [mem_digits inWidth] at noDigit
  · exact other (List.mem_cons_of_mem _ inSuffix)

theorem isName_widthName (mode width : Nat) : Path.IsName (widthName mode width) := by
  have long : 5 ≤ (widthName mode width).length := by
    have suffix : ".png".toList.length = 4 := rfl
    simp only [widthName, List.length_append, List.length_cons]
    omega
  refine ⟨?_, ?_, ?_, not_mem_widthName rfl (by decide) mode width⟩
  · intro same
    simp [same] at long
  · intro same
    simp [same] at long
  · intro same
    simp [same] at long

theorem utf8ByteSize_ofList_le (s : List Char) : (String.ofList s).utf8ByteSize ≤ 4 * s.length := by
  induction s with
  | nil => exact Nat.le_refl 0
  | cons c s ih =>
    have size := Char.utf8Size_le_four c
    rw [String.ofList_cons, String.utf8ByteSize_append, String.utf8ByteSize_singleton,
      List.length_cons]
    omega

theorem widthName_short {mode width : Nat} (byte : mode < 256) (small : width ≤ Text.maxNat32) :
    (String.ofList (widthName mode width)).utf8ByteSize ≤ FileSystem.maxNameBytes := by
  have modeDigits : (digits mode).length ≤ 3 := by
    rw [digits, Nat.toString_eq_repr, Nat.toList_repr, Nat.length_toDigits_le_iff] <;> omega
  have widthDigits : (digits width).length ≤ 10 := by
    rw [digits, Nat.toString_eq_repr, Nat.toList_repr, Nat.length_toDigits_le_iff]
    · exact Nat.lt_of_le_of_lt small (by decide)
    · omega
    · omega
  have suffix : ".png".toList.length = 4 := rfl
  have size := utf8ByteSize_ofList_le (widthName mode width)
  simp only [widthName, List.length_append, List.length_cons] at size
  have limit : FileSystem.maxNameBytes = 255 := rfl
  simp only [widthName]
  omega

/-- Beside every name in the directory of a letter that is read as a width, there is a file with the
plain name of this width, and the path to it is not too long. -/
def HasPlainNames (fs : FileSystem) (letters : List Char) (letter : Char) (mode : Nat) : Prop :=
  letter ≠ '/' → fs.isDirectory (letterDirectory letters letter) = true →
    ∀ name ∈ fs.names (letterDirectory letters letter), ∀ width, Spells mode name width →
      (String.ofList (letterFile letters letter mode width)).utf8ByteSize ≤
          FileSystem.maxPathBytes ∧
        ∃ content, fs.nodeBelow (letterDirectory letters letter)
          [String.ofList (widthName mode width)] = some (.file content)

/-- The widths that are found for a letter all have their files exactly if its directory has the
plain names of all the widths that are read from it. -/
theorem isFile_of_width_iff {letter : Char} {mode : Nat} (byte : mode < 256) :
    (∀ width ∈ findWidths fs letters letter mode,
        fs.isFile (letterFile letters letter mode width) = true) ↔
      HasPlainNames fs letters letter mode := by
  have onFile : ∀ width, fs.isDirectory (letterDirectory letters letter) = true →
      width ≤ Text.maxNat32 → (fs.isFile (letterFile letters letter mode width) = true ↔ _) :=
    fun width directory small =>
      FileSystem.isFile_join_iff directory (isName_widthName mode width)
        (not_mem_widthName rfl (by decide) mode width) (widthName_short byte small)
  constructor
  · intro found notSlash directory name listed width spelled
    have known := mem_findWidths_iff.mpr ⟨notSlash, directory, name, listed, spelled⟩
    exact (onFile width directory spelled.1).mp (found width known)
  · intro plain width known
    obtain ⟨notSlash, directory, name, listed, spelled⟩ := mem_findWidths_iff.mp known
    exact (onFile width directory spelled.1).mpr
      (plain notSlash directory name listed width spelled)

/-! ## What a word may miss -/

theorem wordMode_lt (word : List Char) : wordMode word < 256 := by
  unfold wordMode letterMode
  split
  · split <;> decide
  · decide

/-- The two ways in which the file of a width can fail. -/
theorem error_of_loadLetter {mode width : Nat} {letter : Char} {e : RenderError}
    (failed : loadLetter fs letters mode letter width = .error e) :
    fs.isFile (letterFile letters letter mode width) = true ∧ e = .undecodable ∨
      fs.isFile (letterFile letters letter mode width) = false ∧
        e = .user (.assetMissing ("letter " ++ letter.toString)
          (String.ofList (letterFile letters letter mode width))) := by
  unfold loadLetter at failed
  cases present : fs.isFile (letterFile letters letter mode width) with
  | false =>
    simp only [present, Bool.false_eq_true, if_false] at failed
    exact .inr ⟨rfl, (Except.error.inj failed).symm⟩
  | true =>
    simp only [present, if_true, FileSystem.readImage] at failed
    refine .inl ⟨rfl, ?_⟩
    split at failed
    · split at failed
      · cases failed
      · exact (Except.error.inj failed).symm
    · exact (Except.error.inj failed).symm

/-- A new engine finds the widths of a letter all on file exactly if the directory of the letter has
their plain names. A word fails for its layout, or for the file of a width that has been found for
one of its letters: the file is damaged, or, and this only where a plain name is wanting, it is not
there. -/
theorem failures_of_word (fs : FileSystem) (letters : List Char) :
    (∀ letter mode, mode < 256 →
      ((availableWidths fs letters letter mode).answer []).1 =
          .ok (findWidths fs letters letter mode) ∧
        ((∀ width ∈ findWidths fs letters letter mode,
            fs.isFile (letterFile letters letter mode width) = true) ↔
          HasPlainNames fs letters letter mode)) ∧
      ∀ word e, ((renderText fs letters word).answer []).1 = .error e →
        (∃ cause, e = .user (.layout cause)) ∨
          ∃ letter ∈ word, ∃ width ∈ findWidths fs letters letter (wordMode word),
            let path := letterFile letters letter (wordMode word) width
            fs.isFile path = true ∧ e = .undecodable ∨
              fs.isFile path = false ∧ ¬ HasPlainNames fs letters letter (wordMode word) ∧
                e = .user (.assetMissing ("letter " ++ letter.toString) (String.ofList path)) := by
  refine ⟨fun letter mode byte => ⟨?_, isFile_of_width_iff byte⟩, fun word e failed => ?_⟩
  · exact (availableWidths_answers letter mode [] isSound_nil).1
  · rw [answer_renderText_new] at failed
    rcases Alphabet.error_of_tile failed with layout | ⟨letter, member, width, known, broken⟩
    · exact .inl layout
    · refine .inr ⟨letter, member, width, known, ?_⟩
      rcases error_of_loadLetter broken with damaged | ⟨absent, missing⟩
      · exact .inl damaged
      · refine .inr ⟨absent, fun plain => ?_, missing⟩
        have present := (isFile_of_width_iff (wordMode_lt word)).mpr plain width known
        rw [absent] at present
        cases present

/-- The widths of the letter `a` are read from a plain and from a padded name, and those of `b` from
the name of a damaged file. So no file is missed, but one cannot be read. -/
theorem failures_of_word_damaged :
    let fs : FileSystem :=
      ⟨[(["letters"], .directory), (["letters", "a"], .directory),
        (["letters", "a", "2_+05.png"], .directory),
        (["letters", "a", "2_5.png"], .file (.picture (Raster.filled 5 8 ⟨255, 0, 0, 255⟩))),
        (["letters", "b"], .directory),
        (["letters", "b", "2_5.png"], .file (.bytes .empty))], []⟩
    let word := "ab".toList
    (∀ letter ∈ word, HasPlainNames fs "letters".toList letter (wordMode word)) ∧
      ∃ e, ((renderText fs "letters".toList word).answer []).1 = .error e ∧
        ∃ letter ∈ word, ∃ width ∈ findWidths fs "letters".toList letter (wordMode word),
          fs.isFile (letterFile "letters".toList letter (wordMode word) width) = true ∧
            e = .undecodable := by
  intro fs word
  obtain ⟨widths, failures⟩ := failures_of_word fs "letters".toList
  have files : word.all fun letter =>
      (findWidths fs "letters".toList letter (wordMode word)).all fun width =>
        fs.isFile (letterFile "letters".toList letter (wordMode word) width) := by
    decide +kernel
  have plain : ∀ letter ∈ word, HasPlainNames fs "letters".toList letter (wordMode word) := by
    intro letter member
    refine (widths letter (wordMode word) (wordMode_lt word)).2.mp ?_
    exact List.all_eq_true.mp (List.all_eq_true.mp files letter member)
  have failed : ((renderText fs "letters".toList word).answer []).1 = .error .undecodable := by
    decide +kernel
  obtain ⟨letter, member, width, known, damaged | ⟨-, wanting, -⟩⟩ :=
    (failures word _ failed).resolve_left (by simp)
  · exact ⟨plain, _, failed, letter, member, width, known, damaged⟩
  · exact absurd (plain letter member) wanting

/-- A padded name alone: the width is found, and its file is not there. -/
theorem padded_name_misses_file :
    let fs : FileSystem :=
      ⟨[(["letters"], .directory), (["letters", "a"], .directory),
        (["letters", "a", "2_010.png"], .file (.picture (Raster.filled 10 8 ⟨255, 0, 0, 255⟩))),
        (["letters", "a", "2_5.png"], .file (.picture (Raster.filled 5 8 ⟨255, 0, 0, 255⟩)))], []⟩
    findWidths fs "letters".toList 'a' 2 = [5, 10] ∧
      fs.isFile (letterFile "letters".toList 'a' 2 10) = false ∧
      ((renderText fs "letters".toList "a".toList).answer []).1 =
        .error (.user (.assetMissing "letter a" "letters/a/2_10.png")) := by
  decide +kernel

end IsoScene.Glyph
