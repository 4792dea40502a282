import IsoScene.FileSystem.Output
import IsoScene.Proofs.Text.Words
import Mathlib.Data.List.TakeWhile

/-! # The last part of a path

A path ends in a part without slashes (`exists_last`). If that is a name, and not a step to where
one stands or upwards, it is the file name of the path (`fileName?_eq`), and cutting it at its last
point gives the stem and the suffix. A name has one stem (`isStem_iff`).

The frames of an output file are named after its stem, with a number and a suffix of their own. None
of them is named like the output file itself (`frameName_ne`).
-/

namespace IsoScene

namespace Path

/-- A part of a path that leads down to something with this name. -/
structure IsName (part : List Char) : Prop where
  ne_nil : part ≠ []
  ne_here : part ≠ ['.']
  ne_up : part ≠ ['.', '.']
  no_slash : '/' ∉ part

theorem isAbsolute_of_no_slash {part : List Char} (no_slash : '/' ∉ part) :
    isAbsolute part = false := by
  cases part with
  | nil => rfl
  | cons c rest => simpa [isAbsolute] using fun same : c = '/' => no_slash (by simp [same])

/-- The path is this part, or it has this part behind its last slash. -/
def EndsIn (path part : List Char) : Prop := path = part ∨ ∃ front, path = front ++ '/' :: part

/-- What stands behind the last slash of the path is a name. -/
structure LeadsTo (path name : List Char) : Prop where
  isName : IsName name
  endsIn : EndsIn path name

theorem exists_last (path : List Char) :
    ∃ front last, Text.pieces '/' path = front ++ [last] ∧ EndsIn path last ∧ '/' ∉ last := by
  obtain ⟨front, last, cut⟩ := (List.eq_nil_or_concat (Text.pieces '/' path)).resolve_left
    (Text.pieces_ne_nil '/' path)
  rw [List.concat_eq_append] at cut
  have member : last ∈ Text.pieces '/' path := by simp [cut]
  refine ⟨front, last, cut, ?_, Text.not_mem_of_mem_pieces member⟩
  rw [← Text.joinWith_pieces '/' path, cut]
  cases front with
  | nil => exact .inl rfl
  | cons first rest => exact .inr ⟨_, Text.joinWith_concat '/' (by simp) last⟩

theorem dropIdle_append {part rest : List Char} (ne_nil : part ≠ []) (ne_here : part ≠ ['.'])
    (no_slash : '/' ∉ part) : dropIdle (part ++ rest) = part ++ rest := by
  obtain ⟨c, part, rfl⟩ := List.exists_cons_of_ne_nil ne_nil
  rw [List.cons_append]
  unfold dropIdle
  split
  · next same => cases same
  · next same => exact same.symm
  · next same => exact same.symm
  · next same => simp [(List.cons.inj same).1] at no_slash
  · next others same =>
    -- The point is followed by another character of the part.
    cases part with
    | nil => simp [(List.cons.inj same).1] at ne_here
    | cons d part => simp [(List.cons.inj (List.cons.inj same).2).1] at no_slash
  · rfl

/-- A part ends in front of this: nothing is left, or a slash follows. -/
def AtSlash (rest : List Char) : Prop := rest = [] ∨ ∃ others, rest = '/' :: others

theorem lastPart_append {part rest : List Char} (no_slash : '/' ∉ part) (ends : AtSlash rest) :
    lastPart (part ++ rest) = (part.reverse, rest) := by
  have inside : ∀ c ∈ part, decide (c ≠ '/') = true := by
    intro c member
    exact decide_eq_true fun same => no_slash (same ▸ member)
  rw [lastPart, List.takeWhile_append_of_pos inside, List.dropWhile_append_of_pos inside]
  rcases ends with rfl | ⟨others, rfl⟩ <;> simp

theorem fileName?_eq {path part : List Char} (leads : LeadsTo path part) :
    fileName? path = some part := by
  obtain ⟨⟨ne_nil, ne_here, ne_up, no_slash⟩, ends⟩ := leads
  obtain ⟨rest, reversed, atSlash⟩ :
      ∃ rest, path.reverse = part.reverse ++ rest ∧ AtSlash rest := by
    rcases ends with rfl | ⟨front, rfl⟩
    · exact ⟨[], by simp, .inl rfl⟩
    · exact ⟨'/' :: front.reverse, by simp, .inr ⟨_, rfl⟩⟩
  have here : part.reverse ≠ ['.'] := fun same =>
    ne_here (by simpa using congrArg List.reverse same)
  rw [fileName?, reversed, dropIdle_append (by simpa) here (by simpa),
    lastPart_append (by simpa) atSlash]
  simp [ne_nil, ne_here, ne_up]

/-- A path below a directory ends in what stands below it. -/
theorem join_endsIn (base part : List Char) : EndsIn (join base part) part := by
  unfold join
  split
  · exact .inl rfl
  · split
    · next slash =>
      obtain ⟨front, rfl⟩ := List.getLast?_eq_some_iff.mp slash
      exact .inr ⟨front, by simp⟩
    · exact .inr ⟨base, rfl⟩

theorem cutName_append {stem suffix : List Char} (ne_nil : stem ≠ []) (no_point : '.' ∉ suffix) :
    cutName (stem ++ '.' :: suffix) = (stem, some suffix) := by
  have reversed : (stem ++ '.' :: suffix).reverse = suffix.reverse ++ '.' :: stem.reverse := by
    simp
  have inside : ∀ c ∈ suffix.reverse, decide (c ≠ '.') = true := by
    intro c member
    exact decide_eq_true fun same => no_point (same ▸ List.mem_reverse.mp member)
  obtain ⟨c, front, stemEnd⟩ := List.exists_cons_of_ne_nil (List.reverse_ne_nil_iff.mpr ne_nil)
  unfold cutName
  dsimp only
  rw [reversed, List.takeWhile_append_of_pos inside, List.dropWhile_append_of_pos inside,
    List.takeWhile_cons_of_neg (by simp), List.dropWhile_cons_of_neg (by simp), stemEnd]
  dsimp only
  rw [← stemEnd, List.reverse_reverse, List.append_nil, List.reverse_reverse]

theorem no_slash_of_fileName? {path name : List Char} (found : fileName? path = some name) :
    '/' ∉ name := by
  unfold fileName? at found
  dsimp only at found
  split at found
  · cases found
  · obtain rfl := Option.some.inj found
    intro member
    simpa using List.mem_takeWhile_imp (List.mem_reverse.mp member)

/-- The name without its suffix, which begins at the last point. A point that begins the name does
not begin a suffix. -/
inductive IsStem : List Char → List Char → Prop where
  | cut {stem suffix : List Char} (ne_nil : stem ≠ []) (no_point : '.' ∉ suffix) :
      IsStem (stem ++ '.' :: suffix) stem
  | whole {name : List Char} (no_point : '.' ∉ name.tail) : IsStem name name

theorem IsStem.subset {name stem : List Char} (isStem : IsStem name stem) : stem ⊆ name := by
  cases isStem with
  | cut ne_nil no_point => exact List.subset_append_left ..
  | whole no_point => exact List.Subset.refl name

theorem isStem_cutName (name : List Char) : IsStem name (cutName name).1 := by
  -- The name is cut from its end: `behind` is what stands behind the last point, read backwards.
  let behind := name.reverse.takeWhile (· ≠ '.')
  have no_point : '.' ∉ behind.reverse := fun member => by
    simpa using List.mem_takeWhile_imp (List.mem_reverse.mp member)
  have split (rest : List Char) (left : name.reverse.dropWhile (· ≠ '.') = rest) :
      name = rest.reverse ++ behind.reverse := by
    rw [← List.reverse_append, ← left, List.takeWhile_append_dropWhile, List.reverse_reverse]
  unfold cutName
  dsimp only
  split
  · next left =>
    refine .whole fun point => no_point (List.mem_of_mem_tail ?_)
    rwa [split _ left] at point
  · next c left =>
    refine .whole ?_
    rwa [split _ left]
  · next c stem long left =>
    have point := List.head?_dropWhile_not (fun c => decide (c ≠ '.')) name.reverse
    rw [left] at point
    have cut : name = stem.reverse ++ '.' :: behind.reverse := by
      simpa [show c = '.' by simpa using point] using split _ left
    have isStem : IsStem (stem.reverse ++ '.' :: behind.reverse) stem.reverse :=
      .cut (by simpa using long) no_point
    rwa [← cut] at isStem

theorem cutName_whole {name : List Char} (no_point : '.' ∉ name.tail) :
    (cutName name).1 = name := by
  cases name with
  | nil => rfl
  | cons c rest =>
    have inside : ∀ d ∈ rest.reverse, decide (d ≠ '.') = true := by
      intro d member
      exact decide_eq_true fun same => no_point (same ▸ List.mem_reverse.mp member)
    unfold cutName
    dsimp only
    rw [List.reverse_cons, List.dropWhile_append_of_pos inside]
    by_cases point : c = '.' <;> simp [point, List.dropWhile]

/-- A name has one stem. -/
theorem isStem_iff {name stem : List Char} : IsStem name stem ↔ stem = (cutName name).1 := by
  constructor
  · rintro (⟨ne_nil, no_point⟩ | no_point)
    · rw [cutName_append ne_nil no_point]
    · exact (cutName_whole no_point).symm
  · rintro rfl
    exact isStem_cutName name

end Path

/-! ## The names of frames -/

namespace FileSystem

/-- The name of the file of a frame, as in `framePath`. -/
def frameName (stem : List Char) (index : Nat) : List Char :=
  stem ++ '_' :: (toString (index + 1)).toList ++ ".png".toList

theorem framePath_endsIn (directory stem : List Char) (index : Nat) :
    Path.EndsIn (framePath directory stem index) (frameName stem index) :=
  Path.join_endsIn directory (frameName stem index)

theorem isName_frameName {stem : List Char} (no_slash : '/' ∉ stem) (index : Nat) :
    Path.IsName (frameName stem index) := by
  have long : 5 ≤ (frameName stem index).length := by
    simp only [frameName, List.length_append, List.length_cons, String.length_toList]
    have suffix : ".png".length = 4 := rfl
    omega
  refine ⟨?_, ?_, ?_, ?_⟩
  · rintro same
    simp [same] at long
  · rintro same
    simp [same] at long
  · rintro same
    simp [same] at long
  · intro slash
    have digit : ('/' : Char).isDigit = true := by
      refine Nat.isDigit_of_mem_toDigits (b := 10) (by decide) (by decide)
        (n := index + 1) ?_
      simpa [frameName, no_slash, Nat.toList_repr] using slash
    simp at digit

theorem frameName_injective (stem : List Char) : Function.Injective (frameName stem) := by
  intro index other same
  have numbers := List.append_cancel_left (List.append_cancel_right same)
  have digits : Nat.toDigits 10 (index + 1) = Nat.toDigits 10 (other + 1) := by
    simpa [Nat.toList_repr] using numbers
  have read := congrArg (Nat.ofDigitChars 10 · 0) digits
  simpa only [Nat.ofDigitChars_ten_toDigits, Nat.add_right_cancel_iff] using read

/-- The name of a frame, cut at its last point. -/
theorem cutName_frameName (stem : List Char) (index : Nat) :
    Path.cutName (frameName stem index) =
      (stem ++ '_' :: (toString (index + 1)).toList, some "png".toList) := by
  have split : frameName stem index =
      (stem ++ '_' :: (toString (index + 1)).toList) ++ '.' :: "png".toList := by
    simp [frameName]
  rw [split, Path.cutName_append (by simp) (by decide)]

/-- An output file is not named like one of the frames that are named after it. -/
theorem frameName_ne {name : List Char} (index : Nat) :
    frameName (Path.cutName name).1 index ≠ name := by
  intro same
  have stems := congrArg Prod.fst (cutName_frameName (Path.cutName name).1 index)
  rw [same] at stems
  have lengths := congrArg List.length stems
  simp only [List.length_append, List.length_cons] at lengths
  omega

end FileSystem

end IsoScene
