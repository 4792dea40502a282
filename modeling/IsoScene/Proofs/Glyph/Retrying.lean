import IsoScene.Proofs.Glyph.Dependence

/-! # Words after a change of the files

A word that could not be drawn is drawn anew when it is asked for again, with one exception: a
letter that had no widths when it was looked up stays without, and so no word with this letter is
drawn later, whatever files it has got. Words with such a letter are left out in what follows.

The bitmaps of the letters are loaded each time; of the files nothing but widths is remembered. So
after a change of the files a word has its new bitmaps, in the widths that its letters had when they
were looked up (`again_after_change`), and if these letters still have the same widths, an engine
that has been in use draws the word as a new one does.

What a request does to the memory is the invariant of the module (`WidthCache.Extends`): no letter
gets other widths by it, and none is remembered that is not in the word.
-/

namespace IsoScene.Glyph

open Fetch (Answers)

variable {fs : FileSystem} {letters : List Char}

namespace WidthCache

def knows (cache : WidthCache) (letter : Char) (mode : Nat) : Bool :=
  (cache.lookup (letter, mode)).isSome

/-- The widths that a letter has for an engine with this memory. -/
def seen (fs : FileSystem) (letters : List Char) (cache : WidthCache) (letter : Char)
    (mode : Nat) : List Nat :=
  (cache.lookup (letter, mode)).getD (findWidths fs letters letter mode)

theorem IsSound.seen_eq {before after : FileSystem} {cache : WidthCache}
    (sound : cache.IsSound before letters) (letter : Char) (mode : Nat) :
    cache.seen after letters letter mode =
      if cache.knows letter mode then findWidths before letters letter mode
      else findWidths after letters letter mode := by
  unfold seen knows
  cases found : cache.lookup (letter, mode) with
  | none => rfl
  | some widths => exact sound letter mode widths found

/-- What the memory may have become while a word is drawn. -/
structure Extends (fs : FileSystem) (letters word : List Char) (start cache : WidthCache) :
    Prop where
  seen : ∀ letter mode, cache.seen fs letters letter mode = start.seen fs letters letter mode
  knows : ∀ letter mode, cache.knows letter mode = true →
    start.knows letter mode = true ∨ letter ∈ word ∧ mode = wordMode word

variable {word : List Char} {start cache : WidthCache}

theorem Extends.refl : Extends fs letters word start start where
  seen _ _ := rfl
  knows _ _ known := .inl known

theorem Extends.cons (extended : Extends fs letters word start cache) {letter : Char}
    (member : letter ∈ word) (unknown : cache.lookup (letter, wordMode word) = none) :
    Extends fs letters word start
      (((letter, wordMode word), findWidths fs letters letter (wordMode word)) :: cache) where
  seen other mode := by
    rw [← extended.seen]
    by_cases same : (other, mode) = (letter, wordMode word)
    · -- What is remembered from now on is what was seen before.
      obtain ⟨rfl, rfl⟩ := Prod.mk.inj same
      simp [WidthCache.seen, unknown]
    · simp [WidthCache.seen, List.lookup_cons, beq_false_of_ne same]
  knows other mode known := by
    by_cases same : (other, mode) = (letter, wordMode word)
    · obtain ⟨rfl, rfl⟩ := Prod.mk.inj same
      exact .inr ⟨member, rfl⟩
    · refine extended.knows other mode ?_
      simpa [WidthCache.knows, List.lookup_cons, beq_false_of_ne same] using known

end WidthCache

open WidthCache (Extends)

/-! ## One request -/

theorem availableWidths_answers_seen {word : List Char} {letter : Char} (member : letter ∈ word)
    (start : WidthCache) :
    Answers (Extends fs letters word start) (availableWidths fs letters letter (wordMode word))
      (.ok (start.seen fs letters letter (wordMode word))) := by
  intro cache extended
  rw [availableWidths_eq, Fetch.answer_remembered, ← extended.seen, WidthCache.seen]
  cases found : cache.lookup (letter, wordMode word) with
  | none => exact ⟨rfl, extended.cons member found⟩
  | some widths => exact ⟨rfl, extended⟩

/-- The letters as an engine with this memory finds them. -/
def Alphabet.ofCache (fs : FileSystem) (letters : List Char) (cache : WidthCache) : Alphabet :=
  ⟨cache.seen fs letters, loadLetter fs letters⟩

theorem renderText_answers_ofCache (word : List Char) (start : WidthCache) :
    Answers (Extends fs letters word start) (renderText fs letters word)
      ((Alphabet.ofCache fs letters start).tile word) :=
  Alphabet.renderText_answers
    ⟨fun _ member => availableWidths_answers_seen member start, fun _ _ => rfl⟩

/-! ## Many requests -/

/-- What an engine remembers after some words. -/
def widthsAfter (fs : FileSystem) (letters : List Char) (words : List (List Char)) : WidthCache :=
  words.foldl (fun cache word => ((renderText fs letters word).answer cache).2) []

theorem widthsAfter_append (words : List (List Char)) (word : List Char) :
    widthsAfter fs letters (words ++ [word]) =
      ((renderText fs letters word).answer (widthsAfter fs letters words)).2 := by
  rw [widthsAfter, List.foldl_append]
  rfl

theorem isSound_widthsAfter (words : List (List Char)) :
    (widthsAfter fs letters words).IsSound fs letters := by
  induction words using List.reverseRecOn with
  | nil => exact isSound_nil
  | append_singleton words word ih =>
    rw [widthsAfter_append]
    exact (renderText_answers_ofFiles word _ ih).2

theorem asked_of_knows {words : List (List Char)} {letter : Char} {mode : Nat}
    (known : (widthsAfter fs letters words).knows letter mode = true) :
    ∃ word ∈ words, letter ∈ word ∧ mode = wordMode word := by
  induction words using List.reverseRecOn with
  | nil => cases known
  | append_singleton words word ih =>
    rw [widthsAfter_append] at known
    -- The letter was known before the last word, or it is one of this word.
    rcases (renderText_answers_ofCache word _ _ .refl).2.knows letter mode known with
      earlier | ⟨member, same⟩
    · obtain ⟨other, asked, inside⟩ := ih earlier
      exact ⟨other, List.mem_append_left _ asked, inside⟩
    · exact ⟨word, by simp, member, same⟩

/-! ## A change of the files -/

/-- The letters after a change of the files. Those that had widths when they were looked up keep
them. -/
def Alphabet.ofChange (before after : FileSystem) (letters : List Char) (cache : WidthCache) :
    Alphabet where
  widths letter mode :=
    if cache.knows letter mode && !(findWidths before letters letter mode).isEmpty then
      findWidths before letters letter mode
    else findWidths after letters letter mode
  bitmap := loadLetter after letters

/-- A word that is asked for again after a change of the files is drawn with their bitmaps, in
the widths in which its letters have been found before. If those are the widths still, it is drawn
as by a new engine. -/
theorem again_after_change (before after : FileSystem) (letters : List Char)
    (past : List (List Char)) (word : List Char) :
    let cache := widthsAfter before letters (past ++ [word])
    let again := ((renderText after letters word).answer cache).1
    (∀ letter mode, cache.knows letter mode = true →
      ∃ asked ∈ past ++ [word], letter ∈ asked ∧ mode = wordMode asked) ∧
    ((∀ letter ∈ word, cache.knows letter (wordMode word) = true →
        findWidths before letters letter (wordMode word) = [] →
          findWidths after letters letter (wordMode word) = []) →
      again = (Alphabet.ofChange before after letters cache).tile word) ∧
    ((∀ letter ∈ word, cache.knows letter (wordMode word) = true →
        findWidths before letters letter (wordMode word) =
          findWidths after letters letter (wordMode word)) →
      again = ((renderText after letters word).answer []).1) := by
  intro cache again
  have sound : cache.IsSound before letters := isSound_widthsAfter (past ++ [word])
  have drawn : again = (Alphabet.ofCache after letters cache).tile word :=
    (renderText_answers_ofCache word cache cache .refl).1
  refine ⟨fun letter mode => asked_of_knows, fun noNewLetter => ?_, fun unchanged => ?_⟩
  · rw [drawn]
    refine Alphabet.tile_congr
      ⟨fun letter member => (sound.seen_eq letter _).trans ?_, fun _ _ _ _ => rfl⟩
    dsimp only [Alphabet.ofChange]
    cases known : cache.knows letter (wordMode word) with
    | false => rfl
    | true =>
      -- A letter without widths has none now either, so it does not matter that this is kept.
      cases found : findWidths before letters letter (wordMode word) with
      | nil => simp [noNewLetter letter member known found]
      | cons width widths => simp
  · rw [drawn, answer_renderText_new]
    refine Alphabet.tile_congr
      ⟨fun letter member => (sound.seen_eq letter _).trans ?_, fun _ _ _ _ => rfl⟩
    cases known : cache.knows letter (wordMode word) with
    | false => rfl
    | true => exact unchanged letter member known

/-- A letter whose bitmap was damaged, and is repaired. -/
theorem again_after_repair :
    let directories : List (List String × FileNode) :=
      [(["letters"], .directory), (["letters", "a"], .directory), (["letters", "b"], .directory)]
    let glyph : FileNode := .file (.picture (Raster.filled 5 8 ⟨255, 0, 0, 255⟩))
    let before : FileSystem :=
      ⟨directories ++
        [(["letters", "a", "2_5.png"], glyph),
          (["letters", "b", "2_5.png"], .file (.bytes .empty))], []⟩
    let after : FileSystem :=
      ⟨directories ++
        [(["letters", "a", "2_5.png"], glyph), (["letters", "b", "2_5.png"], glyph)], []⟩
    let letters := "letters".toList
    let past := ["a".toList]
    let word := "ab".toList
    let cache := widthsAfter before letters (past ++ [word])
    ((renderText before letters word).answer (widthsAfter before letters past)).1 =
        .error .undecodable ∧
      (∀ letter ∈ word, cache.knows letter (wordMode word) = true →
        findWidths before letters letter (wordMode word) =
          findWidths after letters letter (wordMode word)) ∧
      ((renderText after letters word).answer cache).1 =
        ((renderText after letters word).answer []).1 ∧
      ((renderText after letters word).answer cache).1.isOk = true := by
  intro directories glyph before after letters past word cache
  have same : word.all fun letter => findWidths before letters letter (wordMode word) ==
      findWidths after letters letter (wordMode word) := by
    decide +kernel
  have unchanged : ∀ letter ∈ word, cache.knows letter (wordMode word) = true →
      findWidths before letters letter (wordMode word) =
        findWidths after letters letter (wordMode word) := by
    intro letter member _
    exact beq_iff_eq.mp (List.all_eq_true.mp same letter member)
  have asByNew := (again_after_change before after letters past word).2.2 unchanged
  exact ⟨by decide +kernel, unchanged, asByNew, by decide +kernel⟩

/-- A letter that has got another width by the time the word is repaired. -/
theorem again_in_old_width :
    let directories : List (List String × FileNode) :=
      [(["letters"], .directory), (["letters", "a"], .directory), (["letters", "b"], .directory)]
    let glyph (width : Nat) : FileNode := .file (.picture (Raster.filled width 1 ⟨255, 0, 0, 255⟩))
    let before : FileSystem :=
      ⟨directories ++
        [(["letters", "a", "2_5.png"], glyph 5),
          (["letters", "b", "2_5.png"], .file (.bytes .empty))], []⟩
    let after : FileSystem :=
      ⟨directories ++
        [(["letters", "a", "2_5.png"], glyph 5), (["letters", "a", "2_9.png"], glyph 9),
          (["letters", "b", "2_5.png"], glyph 5)], []⟩
    let letters := "letters".toList
    let past := ["a".toList]
    let word := "ab".toList
    ((renderText before letters word).answer (widthsAfter before letters past)).1 =
        .error .undecodable ∧
      ((renderText after letters word).answer
          (widthsAfter before letters (past ++ [word]))).1 ≠
        ((renderText after letters word).answer []).1 := by
  intro directories glyph before after letters past word
  refine ⟨by decide +kernel, fun same => ?_⟩
  -- The new letter reaches further to the left.
  have cell := congrArg (fun outcome => outcome.toOption.bind (·.get? 4 11)) same
  revert cell
  decide +kernel

end IsoScene.Glyph
