import IsoScene.Glyph.Render
import IsoScene.Proofs.Fetch

/-! # What a word looks like

Of the letters, a word only needs to know the widths that they have and the bitmaps in these widths:
an `Alphabet`. The tile of a word follows from them (`Alphabet.tile`), and where requests for the
letters of a word have one answer, so has a request for the word (`Alphabet.renderText_answers`).

The files of the letters are an alphabet (`Alphabet.ofFiles`).
-/

namespace IsoScene.Glyph

open Fetch (Answers)

/-! ## The lines of a word -/

theorem splitSlash_cases (word : List Char) :
    (splitSlash word = none ∧ '/' ∉ word) ∨
      ∃ top bottom, splitSlash word = some (top, bottom) ∧ word = top ++ '/' :: bottom ∧
        '/' ∉ top := by
  fun_induction splitSlash word with
  | case1 => simp
  | case2 rest => exact .inr ⟨[], rest, rfl, rfl, by simp⟩
  | case3 c rest other ih =>
    rcases ih with ⟨none, absent⟩ | ⟨top, bottom, found, rfl, absent⟩
    · exact .inl (by simp [none, absent, Ne.symm other])
    · exact .inr ⟨c :: top, bottom, by simp [found], rfl, by simp [absent, Ne.symm other]⟩

/-- The lines hold every letter of the word, and its first slash does not belong to them. -/
theorem flatten_splitLines (word : List Char) : (splitLines word).flatten = word.erase '/' := by
  unfold splitLines
  rcases splitSlash_cases word with ⟨none, absent⟩ | ⟨top, bottom, found, rfl, absent⟩
  · rw [none, List.erase_of_not_mem absent]
    dsimp only
    split <;> simp
  · rw [found, List.erase_append_right _ absent, List.erase_cons_head]
    cases top <;> cases bottom <;> simp

theorem mem_of_mem_splitLines {word text : List Char} {letter : Char}
    (line : text ∈ splitLines word) (member : letter ∈ text) : letter ∈ word := by
  have kept : letter ∈ word.erase '/' := by
    rw [← flatten_splitLines]
    exact List.mem_flatten.mpr ⟨text, line, member⟩
  exact List.mem_of_mem_erase kept

theorem length_splitLines_le (word : List Char) : (splitLines word).length ≤ 2 := by
  unfold splitLines
  split
  · exact List.length_filter_le _ _
  · dsimp only
    split <;> simp

/-- The mode that a word is set in. -/
def wordMode (word : List Char) : Nat := (letterMode (splitLines word)).letters

/-! ## Alphabets -/

/-- The widths that a letter has in a mode, and its bitmaps in a mode and a width. -/
structure Alphabet where
  widths : Char → Nat → List Nat
  bitmap : Nat → Char → Nat → Except RenderError Image

namespace Alphabet

def ofFiles (fs : FileSystem) (letters : List Char) : Alphabet :=
  ⟨findWidths fs letters, loadLetter fs letters⟩

section

variable (alphabet : Alphabet)

/-- The widths of a letter. A letter that has none cannot be written. -/
def choices (mode : Nat) (letter : Char) : Except RenderError (List Nat) :=
  if (alphabet.widths letter mode).isEmpty then .error (.user (.layout (.unknownLetter letter)))
  else .ok (alphabet.widths letter mode)

def line (mode : LetterMode) (word text : List Char) : Except RenderError Line := do
  let choices ← text.mapM (alphabet.choices mode.letters)
  match LineLayout.best? choices mode.target with
  | none => .error (.user (.layout (.tooLong (String.ofList word))))
  | some layout =>
    let images ← (text.zip layout.widths).mapM fun (letter, width) =>
      alphabet.bitmap mode.letters letter width
    .ok ⟨layout, images⟩

def tile (word : List Char) : Except RenderError Image :=
  if (splitLines word).isEmpty || word.isEmpty then .error (.user (.layout .noLetters))
  else do
    let set ← (splitLines word).mapM (alphabet.line (letterMode (splitLines word)) word)
    .ok (composeLines set)

end

variable {alphabet : Alphabet}

theorem widths_of_choices {mode : Nat} {letter : Char} {widths : List Nat}
    (found : alphabet.choices mode letter = .ok widths) : widths = alphabet.widths letter mode := by
  unfold choices at found
  split at found
  · cases found
  · exact (Except.ok.inj found).symm

theorem error_of_choices {mode : Nat} {letter : Char} {e : RenderError}
    (failed : alphabet.choices mode letter = .error e) :
    e = .user (.layout (.unknownLetter letter)) := by
  unfold choices at failed
  split at failed
  · exact (Except.error.inj failed).symm
  · cases failed

/-! ## Requests for a word -/

variable {fs : FileSystem} {letters : List Char}

/-- Whatever allowed state they find, requests for the letters of a text have the answers of the
alphabet. -/
structure IsOffered (alphabet : Alphabet) (fs : FileSystem) (letters : List Char)
    (Inv : WidthCache → Prop) (mode : Nat) (text : List Char) : Prop where
  widths : ∀ letter ∈ text, Answers Inv (availableWidths fs letters letter mode)
    (.ok (alphabet.widths letter mode))
  bitmaps : ∀ letter width, loadLetter fs letters mode letter width =
    alphabet.bitmap mode letter width

variable {Inv : WidthCache → Prop}

theorem letterWidths_answers {mode : Nat} {letter : Char}
    (offered : Answers Inv (availableWidths fs letters letter mode)
      (.ok (alphabet.widths letter mode))) :
    Answers Inv (letterWidths fs letters mode letter) (alphabet.choices mode letter) := by
  refine offered.bind_ok ?_
  unfold choices
  split
  · exact .throw _
  · exact .pure _

theorem setLine_answers {mode : LetterMode} {text : List Char}
    (offered : alphabet.IsOffered fs letters Inv mode.letters text) (word : List Char) :
    Answers Inv (setLine fs letters mode word text) (alphabet.line mode word text) := by
  have writable := Answers.mapM fun letter member =>
    letterWidths_answers (offered.widths letter member)
  refine writable.bind fun choices => ?_
  cases LineLayout.best? choices mode.target with
  | none => exact .throw _
  | some layout =>
    refine (Answers.mapM fun (letter, width) _ => ?_).bind fun images => .pure _
    dsimp only
    rw [offered.bitmaps]
    exact .lift _

theorem renderText_answers {word : List Char}
    (offered : alphabet.IsOffered fs letters Inv (wordMode word) word) :
    Answers Inv (renderText fs letters word) (alphabet.tile word) := by
  unfold renderText tile
  dsimp only
  split
  · exact (Answers.throw _).bind_error
  · refine (Answers.mapM fun text member => ?_).bind fun set => .pure _
    refine setLine_answers ⟨fun letter inText => ?_, offered.bitmaps⟩ word
    exact offered.widths letter (mem_of_mem_splitLines member inText)

end Alphabet

end IsoScene.Glyph
