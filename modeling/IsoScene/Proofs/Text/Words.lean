import IsoScene.Text.Blank

/-! # Words and lines of a text

How `words` and `pieces` cut a text that is put together from parts.

* `IsWord`, `AtBreak` — a run of characters without blanks, and a place where such a run ends.
* `wordInduction` — a text is empty, or starts with a blank, or starts with a whole word.
* `words_append_blank`, `pieces_append` — a text cut at a blank, and at a separator.
* `words_joinWith`, `pieces_joinWith` — joined parts are found again.
* `wordLines` — the words of a text, line by line.
-/

namespace IsoScene.Text

/-! ## Words -/

structure IsWord (w : List Char) : Prop where
  ne_nil : w ≠ []
  not_blank : ∀ c ∈ w, isBlank c = false

/-- No word goes on at the start of this text. -/
def AtBreak (s : List Char) : Prop := ∀ c ∈ s.head?, isBlank c = true

theorem atBreak_nil : AtBreak [] := by simp [AtBreak]

theorem atBreak_cons {c : Char} (rest : List Char) (blank : isBlank c = true) :
    AtBreak (c :: rest) := by
  simpa [AtBreak] using blank

theorem IsWord.head_not_blank {c : Char} {w : List Char} (word : IsWord (c :: w)) :
    isBlank c = false := word.not_blank c List.mem_cons_self

theorem not_blank_concat {front : List Char} (visible : ∀ d ∈ front, isBlank d = false) {c : Char}
    (last : isBlank c = false) : ∀ d ∈ front ++ [c], isBlank d = false :=
  List.forall_mem_append.mpr ⟨visible, List.forall_mem_singleton.mpr last⟩

theorem IsWord.append {front w : List Char} (visible : ∀ c ∈ front, isBlank c = false)
    (word : IsWord w) : IsWord (front ++ w) := by
  refine ⟨by simp [word.ne_nil], ?_⟩
  exact List.forall_mem_append.mpr ⟨visible, word.not_blank⟩

/-- The characters up to the next blank, and what is behind them. -/
theorem atBreak_dropWhile (s : List Char) : AtBreak (s.dropWhile fun c => !isBlank c) := by
  intro c head
  have stops := List.head?_dropWhile_not (fun c => !isBlank c) s
  rw [Option.mem_def.mp head] at stops
  simpa using stops

/-- A text is empty, or starts with a blank, or starts with a word that ends at a break. -/
@[elab_as_elim]
theorem wordInduction {motive : List Char → Prop} (nil : motive [])
    (blank : ∀ c rest, isBlank c = true → motive rest → motive (c :: rest))
    (word : ∀ w rest, IsWord w → AtBreak rest → motive rest → motive (w ++ rest))
    (s : List Char) : motive s := by
  induction length : s.length using Nat.strongRecOn generalizing s with
  | ind n shorter =>
    cases s with
    | nil => exact nil
    | cons c rest =>
      by_cases isBlankHere : isBlank c = true
      · exact blank c rest isBlankHere (shorter rest.length (by simp [← length]) rest rfl)
      · -- The word is the run of characters up to the next blank.
        let w := c :: rest.takeWhile fun d => !isBlank d
        let left := rest.dropWhile fun d => !isBlank d
        have split : c :: rest = w ++ left := by simp [w, left]
        have isWord : IsWord w := by
          refine ⟨by simp [w], ?_⟩
          intro d member
          rcases List.mem_cons.mp member with same | inRun
          · rw [same]; simpa using isBlankHere
          · have stays := List.all_eq_true.mp (List.all_takeWhile (l := rest)) d inRun
            simpa using stays
        have leftShorter : left.length < n := by
          have := (List.dropWhile_sublist (l := rest) fun d => !isBlank d).length_le
          simp only [List.length_cons] at length
          show (rest.dropWhile fun d => !isBlank d).length < n
          omega
        rw [split]
        exact word w left isWord (atBreak_dropWhile rest) (shorter _ leftShorter left rfl)

@[simp] theorem words_nil : words [] = [] := rfl

@[simp] theorem words_cons_blank {c : Char} (rest : List Char) (blank : isBlank c = true) :
    words (c :: rest) = words rest := by
  simp [words, blank]

/-- A word in front of a break is the first word of the text. -/
theorem words_word_append {w rest : List Char} (word : IsWord w) (atBreak : AtBreak rest) :
    words (w ++ rest) = w :: words rest := by
  -- `words` looks at two characters, so the word has to be taken apart twice.
  induction w with
  | nil => exact absurd rfl word.ne_nil
  | cons c w ih =>
    have visible := word.head_not_blank
    cases w with
    | nil =>
      cases rest with
      | nil => simp [words, visible]
      | cons d rest =>
        have blank : isBlank d = true := atBreak d (by simp)
        simp [words, visible, blank]
    | cons d w =>
      have inner : IsWord (d :: w) :=
        ⟨by simp, fun e member => word.not_blank e (List.mem_cons_of_mem c member)⟩
      have found := ih inner
      simp only [List.cons_append] at found ⊢
      rw [words]
      simp [visible, inner.head_not_blank, found]

theorem words_of_isWord {w : List Char} (word : IsWord w) : words w = [w] := by
  simpa using words_word_append word atBreak_nil

/-- A blank separates the words on its two sides. -/
theorem words_append_blank (s : List Char) {c : Char} (rest : List Char)
    (blank : isBlank c = true) : words (s ++ c :: rest) = words s ++ words rest := by
  induction s using wordInduction with
  | nil => simp [blank]
  | blank d s isBlankHere ih => simp [isBlankHere, ih]
  | word w s isWord atBreak ih =>
    -- The blank also ends a word that goes up to it.
    have breakBehind : AtBreak (s ++ c :: rest) := by
      cases s with
      | nil => exact atBreak_cons rest blank
      | cons d s => exact atBreak_cons (s ++ c :: rest) (atBreak d (by simp))
    rw [List.append_assoc, words_word_append isWord breakBehind, words_word_append isWord atBreak,
      ih, List.cons_append]

/-- No word is still open at the end of this text. -/
def EndsBlank (s : List Char) : Prop := ∀ c ∈ s.getLast?, isBlank c = true

theorem endsBlank_concat (s : List Char) {c : Char} (blank : isBlank c = true) :
    EndsBlank (s ++ [c]) := by
  simpa [EndsBlank] using blank

/-- What follows a blank is cut as if it stood alone. -/
theorem words_append_of_endsBlank {front : List Char} (endsBlank : EndsBlank front)
    (rest : List Char) : words (front ++ rest) = words front ++ words rest := by
  rcases List.eq_nil_or_concat front with rfl | ⟨before, c, rfl⟩
  · rfl
  · have blank : isBlank c = true := endsBlank c (by simp)
    rw [List.concat_eq_append, List.append_assoc, List.singleton_append,
      words_append_blank before rest blank, words_append_blank before [] blank, words_nil,
      List.append_nil]

theorem words_append_word {front w : List Char} (endsBlank : EndsBlank front) (isWord : IsWord w) :
    words (front ++ w) = words front ++ [w] := by
  rw [words_append_of_endsBlank endsBlank, words_of_isWord isWord]

theorem words_eq_nil_iff (s : List Char) : words s = [] ↔ s.all isBlank = true := by
  induction s using wordInduction with
  | nil => simp
  | blank c s blank ih => simp [blank, ih]
  | word w s isWord atBreak ih =>
    rw [words_word_append isWord atBreak]
    cases w with
    | nil => exact absurd rfl isWord.ne_nil
    | cons c w => simp [isWord.head_not_blank]

/-- The words of joined texts are the words of the texts, if the separator is blank. -/
theorem words_joinWith {sep : Char} (blank : isBlank sep = true) (parts : List (List Char)) :
    words (joinWith sep parts) = parts.flatMap words := by
  induction parts with
  | nil => rfl
  | cons part rest ih =>
    cases rest with
    | nil => simp [joinWith]
    | cons next rest =>
      rw [joinWith_cons_cons, words_append_blank part _ blank, ih, ← List.flatMap_cons]

theorem words_joinWith_of_isWord {sep : Char} (blank : isBlank sep = true)
    {parts : List (List Char)} (isWord : ∀ part ∈ parts, IsWord part) :
    words (joinWith sep parts) = parts := by
  rw [words_joinWith blank]
  induction parts with
  | nil => rfl
  | cons part rest ih =>
    obtain ⟨first, later⟩ := List.forall_mem_cons.mp isWord
    rw [List.flatMap_cons, words_of_isWord first, ih later]
    rfl

/-! ## Lines -/

theorem pieces_cons_of_ne {sep c : Char} (rest : List Char) (ne : c ≠ sep) :
    pieces sep (c :: rest) = extendFirst [c] (pieces sep rest) := by
  simp [pieces, ne]

theorem pieces_append (sep : Char) (s rest : List Char) :
    pieces sep (s ++ sep :: rest) = pieces sep s ++ pieces sep rest := by
  induction s with
  | nil => simp [pieces]
  | cons c s ih =>
    by_cases same : c = sep
    · simp [pieces, same, ih]
    · obtain ⟨piece, others, cut⟩ := List.exists_cons_of_ne_nil (pieces_ne_nil sep s)
      rw [List.cons_append, pieces_cons_of_ne _ same, pieces_cons_of_ne _ same, ih, cut]
      rfl

/-- Characters other than the separator belong to the piece behind them. -/
theorem pieces_append_front {sep : Char} {front s piece : List Char} {others : List (List Char)}
    (absent : sep ∉ front) (cut : pieces sep s = piece :: others) :
    pieces sep (front ++ s) = (front ++ piece) :: others := by
  induction front with
  | nil => exact cut
  | cons c front ih =>
    have differs : c ≠ sep := fun same => absent (same ▸ List.mem_cons_self)
    have absentLater : sep ∉ front := fun member => absent (List.mem_cons_of_mem c member)
    rw [List.cons_append, pieces_cons_of_ne _ differs, ih absentLater]
    rfl

/-- The first piece of a text ends a word where the text does. -/
theorem atBreak_of_pieces {sep : Char} {s piece : List Char} {others : List (List Char)}
    (atBreak : AtBreak s) (cut : pieces sep s = piece :: others) : AtBreak piece := by
  cases s with
  | nil =>
    obtain ⟨rfl, -⟩ : [] = piece ∧ [] = others := by simpa [pieces] using cut
    exact atBreak_nil
  | cons c s =>
    have blank : isBlank c = true := atBreak c rfl
    by_cases same : c = sep
    · obtain ⟨rfl, -⟩ : [] = piece ∧ _ := by simpa [pieces, same] using cut
      exact atBreak_nil
    · obtain ⟨first, rest, later⟩ := List.exists_cons_of_ne_nil (pieces_ne_nil sep s)
      rw [pieces_cons_of_ne s same, later] at cut
      obtain ⟨rfl, -⟩ := List.cons.inj cut
      exact atBreak_cons first blank

theorem pieces_of_not_mem {sep : Char} {s : List Char} (absent : sep ∉ s) : pieces sep s = [s] := by
  induction s with
  | nil => rfl
  | cons c s ih =>
    have differs : c ≠ sep := fun same => absent (same ▸ List.mem_cons_self)
    have absentLater : sep ∉ s := fun member => absent (List.mem_cons_of_mem c member)
    rw [pieces_cons_of_ne s differs, ih absentLater]
    rfl

theorem not_mem_of_mem_pieces {sep : Char} {s piece : List Char} (member : piece ∈ pieces sep s) :
    sep ∉ piece := by
  induction s generalizing piece with
  | nil =>
    have isNil : piece = [] := by simpa [pieces] using member
    simp [isNil]
  | cons c s ih =>
    by_cases same : c = sep
    · rw [pieces, if_pos same] at member
      rcases List.mem_cons.mp member with isNil | later
      · simp [isNil]
      · exact ih later
    · obtain ⟨first, others, cut⟩ := List.exists_cons_of_ne_nil (pieces_ne_nil sep s)
      rw [pieces_cons_of_ne s same, cut, extendFirst_cons] at member
      rcases List.mem_cons.mp member with isFirst | later
      · have absent := ih (cut ▸ List.mem_cons_self)
        rw [isFirst]
        simpa [absent] using Ne.symm same
      · exact ih (cut ▸ List.mem_cons_of_mem first later)

theorem joinWith_concat (sep : Char) {parts : List (List Char)} (nonempty : parts ≠ [])
    (last : List Char) : joinWith sep (parts ++ [last]) = joinWith sep parts ++ sep :: last := by
  induction parts with
  | nil => exact absurd rfl nonempty
  | cons part rest ih =>
    cases rest with
    | nil => rfl
    | cons next rest =>
      rw [List.cons_append, List.cons_append, joinWith_cons_cons, joinWith_cons_cons,
        ← List.cons_append, ih (by simp), List.append_assoc, List.cons_append]

/-- Cutting a joined text cuts the parts, too. -/
theorem pieces_joinWith_eq_flatMap (sep : Char) {parts : List (List Char)} (nonempty : parts ≠ []) :
    pieces sep (joinWith sep parts) = parts.flatMap (pieces sep) := by
  induction parts with
  | nil => exact absurd rfl nonempty
  | cons part rest ih =>
    cases rest with
    | nil => simp [joinWith]
    | cons next rest => rw [joinWith_cons_cons, pieces_append, ih (by simp), ← List.flatMap_cons]

/-- Cutting leaves parts as they are if the separator occurs in none of them. -/
theorem flatMap_pieces_eq_self_iff {sep : Char} {parts : List (List Char)} :
    parts.flatMap (pieces sep) = parts ↔ ∀ part ∈ parts, sep ∉ part := by
  constructor
  · intro same part member
    rw [← same] at member
    obtain ⟨text, -, inside⟩ := List.mem_flatMap.mp member
    exact not_mem_of_mem_pieces inside
  · intro absent
    induction parts with
    | nil => rfl
    | cons part rest ih =>
      obtain ⟨absentFirst, absentLater⟩ := List.forall_mem_cons.mp absent
      rw [List.flatMap_cons, pieces_of_not_mem absentFirst, ih absentLater, List.singleton_append]

theorem pieces_joinWith {sep : Char} {parts : List (List Char)} (nonempty : parts ≠ [])
    (absent : ∀ part ∈ parts, sep ∉ part) : pieces sep (joinWith sep parts) = parts := by
  rw [pieces_joinWith_eq_flatMap sep nonempty, flatMap_pieces_eq_self_iff.mpr absent]

/-- A carriage return is blank, so it belongs to no word. -/
@[simp] theorem words_dropReturn (line : List Char) : words (dropReturn line) = words line := by
  rw [dropReturn]
  split
  · next ends =>
    obtain ⟨front, isFront⟩ := List.getLast?_eq_some_iff.mp ends
    rw [isFront, List.dropLast_concat, words_append_blank front [] (by decide)]
    simp
  · rfl

def wordLines (s : List Char) : List (List (List Char)) := (lines s).map words

theorem wordLines_eq (s : List Char) : wordLines s = (pieces '\n' s).map words := by
  simp [wordLines, lines, Function.comp_def]

theorem wordLines_newline (s : List Char) : wordLines ('\n' :: s) = [] :: wordLines s := by
  simp [wordLines_eq, pieces]

theorem wordLines_blank {c : Char} (blank : isBlank c = true) (notNewline : c ≠ '\n')
    (s : List Char) : wordLines (c :: s) = wordLines s := by
  obtain ⟨piece, others, cut⟩ := List.exists_cons_of_ne_nil (pieces_ne_nil '\n' s)
  simp [wordLines_eq, pieces_cons_of_ne s notNewline, cut, blank]

theorem wordLines_ne_nil (s : List Char) : wordLines s ≠ [] := by
  rw [wordLines_eq, ne_eq, List.map_eq_nil_iff]
  exact pieces_ne_nil '\n' s

/-- A word in front of a break is the first word of the first line. -/
theorem wordLines_word_append {w s : List Char} (isWord : IsWord w) (atBreak : AtBreak s)
    {line : List (List Char)} {others : List (List (List Char))}
    (cut : wordLines s = line :: others) : wordLines (w ++ s) = (w :: line) :: others := by
  have unbroken : '\n' ∉ w := fun member => absurd (isWord.not_blank _ member) (by decide)
  obtain ⟨piece, rest, pieceCut⟩ := List.exists_cons_of_ne_nil (pieces_ne_nil '\n' s)
  rw [wordLines_eq, pieceCut, List.map_cons] at cut
  obtain ⟨rfl, rfl⟩ := List.cons.inj cut
  rw [wordLines_eq, pieces_append_front unbroken pieceCut, List.map_cons,
    words_word_append isWord (atBreak_of_pieces atBreak pieceCut)]

theorem mem_joinWith {sep c : Char} {parts : List (List Char)} (member : c ∈ joinWith sep parts) :
    c = sep ∨ ∃ part ∈ parts, c ∈ part := by
  induction parts with
  | nil => simp [joinWith] at member
  | cons part rest ih =>
    cases rest with
    | nil => exact .inr ⟨part, List.mem_cons_self, member⟩
    | cons next rest =>
      rw [joinWith_cons_cons, List.mem_append, List.mem_cons] at member
      rcases member with inFirst | isSep | later
      · exact .inr ⟨part, List.mem_cons_self, inFirst⟩
      · exact .inl isSep
      · rcases ih later with isSep | ⟨other, among, inside⟩
        · exact .inl isSep
        · exact .inr ⟨other, List.mem_cons_of_mem part among, inside⟩

theorem wordLines_joinWith {lines : List (List Char)} (nonempty : lines ≠ [])
    (unbroken : ∀ line ∈ lines, '\n' ∉ line) :
    wordLines (joinWith '\n' lines) = lines.map words := by
  rw [wordLines_eq, pieces_joinWith nonempty unbroken]

/-- Words that are joined into lines are found again, line by line. -/
theorem wordLines_joinWith_words {rows : List (List (List Char))} (nonempty : rows ≠ [])
    (isWord : ∀ row ∈ rows, ∀ w ∈ row, IsWord w) :
    wordLines (joinWith '\n' (rows.map (joinWith ' '))) = rows := by
  have unbroken : ∀ line ∈ rows.map (joinWith ' '), '\n' ∉ line := by
    intro line member inside
    obtain ⟨row, isRow, rfl⟩ := List.mem_map.mp member
    rcases mem_joinWith inside with same | ⟨w, inRow, inWord⟩
    · exact absurd same (by decide)
    · exact absurd ((isWord row isRow w inRow).not_blank _ inWord) (by decide)
  have found : ∀ row ∈ rows, (words ∘ joinWith ' ') row = row := fun row isRow =>
    words_joinWith_of_isWord (by decide) (isWord row isRow)
  rw [wordLines_joinWith (by simpa using nonempty) unbroken, List.map_map,
    List.map_congr_left found, List.map_id']

theorem length_words_le (s : List Char) : (words s).length ≤ s.length := by
  induction s using wordInduction with
  | nil => exact Nat.le_refl 0
  | blank c s blank ih =>
    rw [words_cons_blank s blank, List.length_cons]
    omega
  | word w s isWord atBreak ih =>
    have := List.length_pos_iff.mpr isWord.ne_nil
    rw [words_word_append isWord atBreak, List.length_cons, List.length_append]
    omega

theorem length_le_of_mem_words {w s : List Char} (member : w ∈ words s) : w.length ≤ s.length := by
  induction s using wordInduction with
  | nil => simp at member
  | blank c s blank ih =>
    rw [words_cons_blank s blank] at member
    exact Nat.le_succ_of_le (ih member)
  | word v s isWord atBreak ih =>
    rw [words_word_append isWord atBreak] at member
    rw [List.length_append]
    rcases List.mem_cons.mp member with rfl | later
    · omega
    · have := ih later
      omega

/-- Joining shortens no part, and there is a separator between any two. -/
theorem length_joinWith_ge (sep : Char) (parts : List (List Char)) :
    parts.length ≤ (joinWith sep parts).length + 1 ∧
      ∀ part ∈ parts, part.length ≤ (joinWith sep parts).length := by
  induction parts with
  | nil => simp [joinWith]
  | cons part rest ih =>
    cases rest with
    | nil => simp [joinWith]
    | cons next rest =>
      obtain ⟨count, lengths⟩ := ih
      rw [List.length_cons] at count
      simp only [joinWith_cons_cons, List.length_append, List.length_cons]
      refine ⟨by omega, List.forall_mem_cons.mpr ⟨by omega, fun other member => ?_⟩⟩
      have := lengths other member
      omega

theorem length_pieces_le (sep : Char) (s : List Char) : (pieces sep s).length ≤ s.length + 1 := by
  simpa [joinWith_pieces] using (length_joinWith_ge sep (pieces sep s)).1

theorem length_le_of_mem_pieces {sep : Char} {s piece : List Char} (member : piece ∈ pieces sep s) :
    piece.length ≤ s.length := by
  simpa [joinWith_pieces] using (length_joinWith_ge sep (pieces sep s)).2 piece member

end IsoScene.Text
