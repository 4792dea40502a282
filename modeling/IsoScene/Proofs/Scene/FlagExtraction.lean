import IsoScene.Proofs.Scene.FlagScan

/-! # Extracting flags

A text is read as the words of its lines are. `FlagWord.Faults` says which flag words cannot be
obeyed; the first of them decides the failure. The text that is returned has the other words, line
by line, so that there is nothing left to extract (`extract_flagWords`).
-/

namespace IsoScene

open Text FlagWord

namespace FlagWord

def IsGround (f : FlagWord) : Prop := String.ofList f.key = "ground" ∨ String.ofList f.key = "g"

def IsBackground (f : FlagWord) : Prop :=
  String.ofList f.key = "bg" ∨ String.ofList f.key = "background"

/-- Why a flag cannot be set. -/
inductive Faults (f : FlagWord) : UserError → Prop where
  | groundWithoutTile (isGround : f.IsGround) (noValue : f.value = none) :
      Faults f (.argument .groundWithoutTile)
  | backgroundWithoutColor (isBackground : f.IsBackground) (noValue : f.value = none) :
      Faults f (.argument .backgroundWithoutColor)
  | badBackground (isBackground : f.IsBackground) (value : List Char) (cause : ColorError)
      (hasValue : f.value = some value) (rejected : Rgba.parse value = .error cause) :
      Faults f (.argument (.badBackground (String.ofList value) cause))

theorem IsBackground.not_isGround {f : FlagWord} (isBackground : f.IsBackground) :
    ¬ f.IsGround := by
  rcases isBackground with isKey | isKey <;> simp [IsGround, isKey]

end FlagWord

theorem set_eq_error_iff {flags : Flags} {f : FlagWord} {e : UserError} :
    flags.set f = .error e ↔ f.Faults e := by
  constructor
  · intro fails
    rw [Flags.set] at fails
    split at fails
    · next isGround =>
      split at fails
      · next noValue =>
        obtain rfl := Except.error.inj fails
        exact .groundWithoutTile isGround noValue
      · simp at fails
    · split at fails
      · next isBackground =>
        split at fails
        · next noValue =>
          obtain rfl := Except.error.inj fails
          exact .backgroundWithoutColor isBackground noValue
        · next value hasValue =>
          split at fails
          · simp at fails
          · next cause rejected =>
            obtain rfl := Except.error.inj fails
            exact .badBackground isBackground value cause hasValue rejected
      · simp at fails
  · rintro (⟨isGround, noValue⟩ | ⟨isBackground, noValue⟩ |
      ⟨isBackground, value, cause, hasValue, rejected⟩)
    · have isKey : String.ofList f.key = "ground" ∨ String.ofList f.key = "g" := isGround
      simp only [Flags.set, if_pos isKey, noValue]
    all_goals
      have otherKey : ¬ (String.ofList f.key = "ground" ∨ String.ofList f.key = "g") :=
        isBackground.not_isGround
      have isKey : String.ofList f.key = "bg" ∨ String.ofList f.key = "background" := isBackground
    · simp only [Flags.set, if_neg otherKey, if_pos isKey, noValue]
    · simp only [Flags.set, if_neg otherKey, if_pos isKey, hasValue, rejected]

/-- The flags of a text in reading order. -/
def flagWords (text : List Char) : List FlagWord := flagsAmong (wordLines text).flatten

theorem extractLines_words (lines : List (List Char)) :
    ∃ kept : List (List Char),
      (∀ flags : Flags, flags.extractLines lines =
        ((flagsAmong (lines.map words).flatten).foldlM Flags.set flags).map (·, kept)) ∧
      kept.map words = (lines.map words).filterMap keptWords ∧
      ∀ text ∈ kept, ∃ line ∈ lines, text.Sublist line := by
  induction lines with
  | nil => exact ⟨[], fun flags => rfl, rfl, by simp⟩
  | cons line rest ih =>
    obtain ⟨first, readFirst, wordsFirst, fromFirst⟩ := extractLine_words line
    obtain ⟨others, readOthers, wordsOthers, fromOthers⟩ := ih
    refine ⟨first.toList ++ others, ?_, ?_, ?_⟩
    · intro flags
      rw [Flags.extractLines, readFirst, List.map_cons, List.flatten_cons, flagsAmong_append,
        List.foldlM_append]
      cases (flagsAmong (words line)).foldlM Flags.set flags with
      | error e => rfl
      | ok flags =>
        have later := readOthers flags
        simp only [Except.map, ok_bind]
        rw [later]
        cases (flagsAmong (rest.map words).flatten).foldlM Flags.set flags <;> rfl
    · rw [List.map_append, wordsOthers, List.map_cons, List.filterMap_cons, ← wordsFirst]
      cases first <;> rfl
    · intro text member
      rcases List.mem_append.mp member with inFirst | inOthers
      · exact ⟨line, List.mem_cons_self, fromFirst text (by simpa using inFirst)⟩
      · obtain ⟨other, among, sublist⟩ := fromOthers text inOthers
        exact ⟨other, List.mem_cons_of_mem line among, sublist⟩

theorem not_mem_of_mem_lines {text line : List Char} (member : line ∈ lines text) :
    '\n' ∉ line := by
  obtain ⟨piece, isPiece, rfl⟩ := List.mem_map.mp member
  intro inside
  apply not_mem_of_mem_pieces isPiece
  rw [dropReturn] at inside
  split at inside
  · exact List.dropLast_subset _ inside
  · exact inside

/-- A text is read as the words of its lines are. -/
theorem extract_words (text : List Char) :
    ∃ kept : List (List Char),
      (∀ defaults : Flags, defaults.extract text =
        ((flagWords text).foldlM Flags.set defaults).map (·, joinWith '\n' kept)) ∧
      kept.map words = (wordLines text).filterMap keptWords ∧ ∀ line ∈ kept, '\n' ∉ line := by
  obtain ⟨kept, read, keptEq, fromLines⟩ := extractLines_words (lines text)
  refine ⟨kept, ?_, keptEq, ?_⟩
  · intro defaults
    rw [Flags.extract, read, flagWords, wordLines]
    cases (flagsAmong ((lines text).map words).flatten).foldlM Flags.set defaults <;> rfl
  · intro line member inside
    obtain ⟨origin, isLine, sublist⟩ := fromLines line member
    exact not_mem_of_mem_lines isLine (sublist.subset inside)

/-! ## Nothing is left -/

theorem not_isFlagWord_of_keptWords {ws kept : List (List Char)} (isKept : keptWords ws = some kept)
    {w : List Char} (member : w ∈ kept) : isFlagWord w = false := by
  simp only [keptWords, Option.ite_none_left_eq_some, Option.some.injEq] at isKept
  rw [← isKept.2] at member
  simpa using (List.mem_filter.mp member).2

/-- From a text without flag words nothing is extracted. -/
theorem extract_of_no_flagWord {text : List Char}
    (noFlags : ∀ ws ∈ wordLines text, ∀ w ∈ ws, isFlagWord w = false) (flags : Flags) :
    ∃ again, flags.extract text = .ok (flags, again) ∧ wordLines again = wordLines text := by
  obtain ⟨kept, read, keptEq, unbroken⟩ := extract_words text
  have noneFound : flagWords text = [] := by
    apply flagsAmong_eq_nil
    intro w member
    obtain ⟨ws, isLine, inLine⟩ := List.mem_flatten.mp member
    exact noFlags ws isLine w inLine
  have allKept : (wordLines text).filterMap keptWords = wordLines text := by
    rw [List.filterMap_congr fun ws isLine => keptWords_eq_some (noFlags ws isLine),
      List.filterMap_some]
  have nonempty : kept ≠ [] := by
    rintro rfl
    rw [allKept, wordLines_eq] at keptEq
    exact pieces_ne_nil '\n' text (List.map_eq_nil_iff.mp keptEq.symm)
  refine ⟨joinWith '\n' kept, ?_, ?_⟩
  · rw [read, noneFound]
    rfl
  · rw [wordLines_joinWith nonempty unbroken, keptEq, allKept]

/-- The flags of a text are those of its flag words, set in reading order. The first that cannot be
set decides the failure. What is returned is the other words, line by line, without the lines that
held nothing but flags; it has no flag words. -/
theorem extract_flagWords (text : List Char) :
    (∀ w f, ofWord? w = some f ↔ f.Spells w) ∧
      (∀ (defaults : Flags) e, defaults.extract text = .error e ↔
        FirstFailure Faults (flagWords text) e) ∧
      ∀ (defaults flags : Flags) rest, defaults.extract text = .ok (flags, rest) →
        (flagWords text).foldlM Flags.set defaults = .ok flags ∧
        (∃ lines, rest = joinWith '\n' lines ∧ (∀ line ∈ lines, '\n' ∉ line) ∧
          lines.map words = (wordLines text).filterMap keptWords) ∧
        (∀ w ∈ words rest, ∀ f : FlagWord, ¬ f.Spells w) ∧
        ∀ others : Flags, ∃ again, others.extract rest = .ok (others, again) ∧
          wordLines again = wordLines rest := by
  obtain ⟨kept, read, keptEq, unbroken⟩ := extract_words text
  refine ⟨fun w f => ofWord?_eq_some_iff, ?_, ?_⟩
  · intro defaults e
    rw [read, ← foldlM_eq_error_iff fun flags f e => @set_eq_error_iff flags f e]
    cases (flagWords text).foldlM Flags.set defaults <;> simp [Except.map]
  · intro defaults flags rest extracted
    -- A kept line has words without flags only, so it is kept as it is the second time.
    have noFlags : ∀ ws ∈ kept.map words, ∀ w ∈ ws, isFlagWord w = false := by
      intro ws isLine w member
      rw [keptEq] at isLine
      obtain ⟨origin, -, isKept⟩ := List.mem_filterMap.mp isLine
      exact not_isFlagWord_of_keptWords isKept member
    rw [read] at extracted
    cases found : (flagWords text).foldlM Flags.set defaults with
    | error e => simp [found, Except.map] at extracted
    | ok set =>
      obtain ⟨rfl, rfl⟩ : set = flags ∧ joinWith '\n' kept = rest := by
        simpa [found, Except.map] using extracted
      refine ⟨rfl, ⟨kept, rfl, unbroken, keptEq⟩, ?_, ?_⟩
      · intro w member f spells
        rw [words_joinWith (by decide), List.mem_flatMap] at member
        obtain ⟨line, isLine, inLine⟩ := member
        have notFlag := noFlags _ (List.mem_map_of_mem isLine) w inLine
        simp [isFlagWord, ofWord?_eq_some_iff.mpr spells] at notFlag
      · apply extract_of_no_flagWord
        cases kept with
        | nil => simp [joinWith, wordLines, lines, pieces, dropReturn]
        | cons line others =>
          rw [wordLines_joinWith (by simp) unbroken]
          exact noFlags

end IsoScene
