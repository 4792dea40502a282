import IsoScene.Proofs.Text.Escapes
import IsoScene.Proofs.Text.Slices
import Mathlib.Algebra.Ring.Parity
import Mathlib.Data.List.DropRight

/-! # Where a text is cut

A separator counts if an even number of backslashes stands right before it (`OccursBare`). A text
without such a separator is one piece. In every other text the part in front of the first one is
closed and has none itself (`exists_first_bare`), which gives an induction over the cuts of a text
(`cutInduction`). By it the two ways of cutting are compared, and both with the removal of the
backslashes (`splitters_agree`). A backslash that waits for a character can only be the last one of
the last piece, so it never meets a separator.

The first separator may also be found by its offset in bytes (`cutAtOffset?`). It stands between
two whole characters, so nothing is cut through.
-/

namespace IsoScene.Text

/-! ## Runs of backslashes -/

/-- How many backslashes stand in a row at the end of a text. -/
def backslashRun (s : List Char) : Nat := (s.rtakeWhile (· == '\\')).length

theorem backslashRun_concat_backslash (s : List Char) :
    backslashRun (s ++ ['\\']) = backslashRun s + 1 := by
  rw [backslashRun, List.rtakeWhile_concat_pos _ _ _ (by simp), List.length_append]
  rfl

theorem backslashRun_concat_plain {c : Char} (ne : c ≠ '\\') (s : List Char) :
    backslashRun (s ++ [c]) = 0 := by
  rw [backslashRun, List.rtakeWhile_concat_neg _ _ _ (by simpa using ne), List.length_nil]

theorem endsOpen_concat (s : List Char) (c : Char) :
    endsOpen (s ++ [c]) = (!endsOpen s && c == '\\') := by
  induction s using escapeInduction with
  | nil => by_cases isBackslash : c = '\\' <;> simp [endsOpen, isBackslash]
  | lone => rfl
  | escaped d s ih => exact ih
  | plain d s ne ih => rw [List.cons_append, endsOpen_plain ne, endsOpen_plain ne, ih]

/-- The backslashes of a run escape one another in pairs, and an odd one is left. -/
theorem endsOpen_iff_odd (s : List Char) : endsOpen s = true ↔ Odd (backslashRun s) := by
  induction s using List.reverseRecOn with
  | nil => simp [endsOpen, backslashRun]
  | append_singleton s c ih =>
    rw [endsOpen_concat]
    by_cases isBackslash : c = '\\'
    · rw [isBackslash, backslashRun_concat_backslash, Nat.odd_add_one, ← ih]
      simp
    · rw [backslashRun_concat_plain isBackslash]
      simp [isBackslash]

theorem endsOpen_eq_false_iff_even (s : List Char) :
    endsOpen s = false ↔ Even (backslashRun s) := by
  rw [← Nat.not_odd_iff_even, ← endsOpen_iff_odd, Bool.not_eq_true]

/-- The character stands somewhere in the text with an even number of backslashes right before
it. -/
def OccursBare (sep : Char) (s : List Char) : Prop :=
  ∃ before after, s = before ++ sep :: after ∧ Even (backslashRun before)

/-! ## The first bare separator -/

variable {sep : Char}

theorem exists_first_bare {s : List Char} (bare : hasBare sep s = true) :
    ∃ before after, s = before ++ sep :: after ∧ endsOpen before = false ∧
      hasBare sep before = false := by
  induction s using escapeInduction with
  | nil => cases bare
  | lone => cases bare
  | escaped c s ih =>
    -- `c` may be the separator, but this one is escaped.
    obtain ⟨before, after, rfl, closed, none⟩ := ih bare
    exact ⟨'\\' :: c :: before, after, rfl, closed, none⟩
  | plain c s ne ih =>
    by_cases isSep : c = sep
    · exact ⟨[], s, by rw [isSep, List.nil_append], rfl, rfl⟩
    · have later : hasBare sep s = true := by simpa [hasBare_plain ne, isSep] using bare
      obtain ⟨before, after, rfl, closed, none⟩ := ih later
      refine ⟨c :: before, after, rfl, ?_, ?_⟩
      · rw [endsOpen_plain ne, closed]
      · simp [hasBare_plain ne, isSep, none]

/-- A text has no bare separator, or it is cut at the first one. -/
@[elab_as_elim]
theorem cutInduction (sep : Char) {motive : List Char → Prop}
    (whole : ∀ s, hasBare sep s = false → motive s)
    (cut : ∀ before after, endsOpen before = false → hasBare sep before = false → motive after →
      motive (before ++ sep :: after))
    (s : List Char) : motive s := by
  induction length : s.length using Nat.strongRecOn generalizing s with
  | ind n shorter =>
    cases bare : hasBare sep s with
    | false => exact whole s bare
    | true =>
      -- The cut takes more than one character off, so the induction is on the length.
      obtain ⟨before, after, rfl, closed, none⟩ := exists_first_bare bare
      have less : after.length < n := by
        rw [← length, List.length_append, List.length_cons]
        omega
      exact cut before after closed none (shorter after.length less after rfl)

theorem hasBare_iff_occursBare (sepPlain : sep ≠ '\\') {s : List Char} :
    hasBare sep s = true ↔ OccursBare sep s := by
  constructor
  · intro bare
    obtain ⟨before, after, split, closed, -⟩ := exists_first_bare bare
    exact ⟨before, after, split, (endsOpen_eq_false_iff_even before).mp closed⟩
  · rintro ⟨before, after, rfl, even⟩
    have closed := (endsOpen_eq_false_iff_even before).mpr even
    rw [hasBare_append sep closed, hasBare_plain sepPlain]
    simp

/-! ## Pieces -/

theorem joinWith_cons_of_ne_nil (piece : List Char) {others : List (List Char)}
    (nonempty : others ≠ []) :
    joinWith sep (piece :: others) = piece ++ sep :: joinWith sep others := by
  cases others with
  | nil => exact absurd rfl nonempty
  | cons next others => exact joinWith_cons_cons sep piece next others

section
variable (sepPlain : sep ≠ '\\')
include sepPlain

theorem splitUnescaped_cut {before : List Char} (closed : endsOpen before = false)
    (none : hasBare sep before = false) (after : List Char) :
    splitUnescaped sep (before ++ sep :: after) = before :: splitUnescaped sep after := by
  rw [splitUnescaped_append sepPlain closed, splitUnescaped_of_not_hasBare none,
    List.singleton_append]

/-- Cutting loses nothing. -/
theorem joinWith_splitUnescaped (s : List Char) : joinWith sep (splitUnescaped sep s) = s := by
  induction s using cutInduction sep with
  | whole s none => rw [splitUnescaped_of_not_hasBare none, joinWith]
  | cut before after closed none ih =>
    rw [splitUnescaped_cut sepPlain closed none,
      joinWith_cons_of_ne_nil _ (splitUnescaped_ne_nil sep after), ih]

theorem hasBare_of_mem_splitUnescaped {s piece : List Char}
    (member : piece ∈ splitUnescaped sep s) : hasBare sep piece = false := by
  induction s using cutInduction sep with
  | whole s none =>
    rw [splitUnescaped_of_not_hasBare none, List.mem_singleton] at member
    rw [member, none]
  | cut before after closed none ih =>
    rw [splitUnescaped_cut sepPlain closed none] at member
    cases List.mem_cons.mp member with
    | inl isFirst => rw [isFirst, none]
    | inr isLater => exact ih isLater

/-- A single cut is made exactly where there is more than one piece. -/
theorem splitOnceUnescaped_eq_none_iff {s : List Char} :
    splitOnceUnescaped sep s = none ↔ (splitUnescaped sep s).length = 1 := by
  induction s using cutInduction sep with
  | whole s none =>
    rw [splitOnceUnescaped_eq_none none, splitUnescaped_of_not_hasBare none, List.length_singleton]
    exact iff_of_true rfl rfl
  | cut before after closed none _ =>
    have more : 0 < (splitUnescaped sep after).length :=
      List.length_pos_of_ne_nil (splitUnescaped_ne_nil sep after)
    rw [splitOnceUnescaped_append sepPlain closed none, splitUnescaped_cut sepPlain closed none,
      List.length_cons]
    refine iff_of_false nofun ?_
    omega

/-- The text before the single cut is the first piece, and the text behind it has the others. -/
theorem splitUnescaped_of_splitOnceUnescaped {s before after : List Char}
    (cut : splitOnceUnescaped sep s = some (before, after)) :
    splitUnescaped sep s = before :: splitUnescaped sep after := by
  induction s using cutInduction sep with
  | whole s none =>
    rw [splitOnceUnescaped_eq_none none] at cut
    cases cut
  | cut front rest closed none _ =>
    rw [splitOnceUnescaped_append sepPlain closed none] at cut
    cases cut
    exact splitUnescaped_cut sepPlain closed none _

/-- It makes no difference whether the backslashes are removed before or after the text is cut. -/
theorem joinWith_map_unescape_splitUnescaped (s : List Char) :
    joinWith sep ((splitUnescaped sep s).map unescape) = unescape s := by
  induction s using cutInduction sep with
  -- Both sides keep a backslash that ends the text.
  | whole s none => rw [splitUnescaped_of_not_hasBare none, List.map_singleton, joinWith]
  | cut before after closed none ih =>
    have nonempty : (splitUnescaped sep after).map unescape ≠ [] := by
      simpa using splitUnescaped_ne_nil sep after
    -- The first piece is closed, so none of its backslashes takes the separator away.
    rw [splitUnescaped_cut sepPlain closed none, List.map_cons, joinWith_cons_of_ne_nil _ nonempty,
      ih, unescape_append closed, unescape_plain sepPlain]

end

/-! ## Cuts by offset -/

/-- The offset in bytes of the first bare separator. `escaped` says that the character before was a
backslash that nothing escapes. -/
def bareOffset? (sep : Char) : (escaped : Bool) → (offset : Nat) → List Char → Option Nat
  | _, _, [] => none
  | true, offset, c :: rest => bareOffset? sep false (offset + c.utf8Size) rest
  | false, offset, c :: rest =>
    if c = '\\' then bareOffset? sep true (offset + c.utf8Size) rest
    else if c = sep then some offset
    else bareOffset? sep false (offset + c.utf8Size) rest

/-- Cuts out the text before and the text after the first bare separator by their offsets. There is
no answer if one of the slices is not there. -/
def cutAtOffset? (sep : Char) (s : List Char) : Option (Option (List Char × List Char)) :=
  match bareOffset? sep false 0 s with
  | none => some none
  | some offset => do
    let before ← slice? 0 offset s
    let after ← slice? (offset + sep.utf8Size) (byteCount s) s
    some (some (before, after))

/-- Behind a text without bare separators, the flag says whether it is open and the offset counts
its bytes. -/
theorem bareOffset?_append {front : List Char} (none : hasBare sep front = false)
    (rest : List Char) (offset : Nat) :
    bareOffset? sep false offset (front ++ rest) =
      bareOffset? sep (endsOpen front) (offset + byteCount front) rest := by
  induction front using escapeInduction generalizing offset with
  | nil => rfl
  | lone => rfl
  | escaped c s ih =>
    -- The flag is set behind the backslash and is gone again behind `c`, whatever `c` is.
    have behind := ih none (offset + Char.utf8Size '\\' + c.utf8Size)
    rw [byteCount_cons, byteCount_cons, ← Nat.add_assoc, ← Nat.add_assoc]
    exact behind
  | plain c s ne ih =>
    rw [hasBare_plain ne, Bool.or_eq_false_iff] at none
    have differs : c ≠ sep := by simpa using none.1
    rw [List.cons_append, bareOffset?, if_neg ne, if_neg differs, ih none.2, endsOpen_plain ne,
      byteCount_cons, Nat.add_assoc]

theorem bareOffset?_of_not_hasBare {s : List Char} (none : hasBare sep s = false) :
    bareOffset? sep false 0 s = Option.none := by
  have behind := bareOffset?_append none [] 0
  rwa [List.append_nil, bareOffset?] at behind

theorem bareOffset?_cut (sepPlain : sep ≠ '\\') {before : List Char}
    (closed : endsOpen before = false) (none : hasBare sep before = false) (after : List Char) :
    bareOffset? sep false 0 (before ++ sep :: after) = some (byteCount before) := by
  rw [bareOffset?_append none, closed, bareOffset?, if_neg sepPlain, if_pos rfl, Nat.zero_add]

/-- A bare separator stands between two characters, so both slices are there, and they are the texts
that the walk over the characters finds. -/
theorem cutAtOffset?_eq (sepPlain : sep ≠ '\\') (s : List Char) :
    cutAtOffset? sep s = some (splitOnceUnescaped sep s) := by
  cases bare : hasBare sep s with
  | false =>
    rw [cutAtOffset?, bareOffset?_of_not_hasBare bare, splitOnceUnescaped_eq_none bare]
  | true =>
    obtain ⟨before, after, rfl, closed, none⟩ := exists_first_bare bare
    have front : slice? 0 (byteCount before) (before ++ sep :: after) = some before :=
      slice?_eq_some_iff.mpr ⟨[], sep :: after, rfl, byteCount_nil, Nat.zero_add _⟩
    have rest : slice? (byteCount before + sep.utf8Size) (byteCount (before ++ sep :: after))
        (before ++ sep :: after) = some after := by
      refine slice?_eq_some_iff.mpr ⟨before ++ [sep], [], by simp, ?_, ?_⟩
      · rw [byteCount_append, byteCount_cons, byteCount_nil, Nat.add_zero]
      · rw [byteCount_append, byteCount_cons, Nat.add_assoc]
    rw [cutAtOffset?, bareOffset?_cut sepPlain closed none,
      splitOnceUnescaped_append sepPlain closed none]
    simp only [front, rest]
    rfl

/-- Cutting everywhere and cutting once agree on every text, and nothing is lost. No piece has a
bare separator, and the pieces joined are the text. The single cut, which may be made by offsets,
ends the first piece. Pieces whose backslashes are removed give, joined, the text whose backslashes
are removed. -/
theorem splitters_agree (sepPlain : sep ≠ '\\') (s : List Char) :
    joinWith sep (splitUnescaped sep s) = s ∧
      (∀ piece ∈ splitUnescaped sep s, ¬ OccursBare sep piece) ∧
      cutAtOffset? sep s = some (splitOnceUnescaped sep s) ∧
      (splitOnceUnescaped sep s = none ↔ (splitUnescaped sep s).length = 1) ∧
      (∀ before after, splitOnceUnescaped sep s = some (before, after) →
        splitUnescaped sep s = before :: splitUnescaped sep after) ∧
      unescape s = joinWith sep ((splitUnescaped sep s).map unescape) := by
  have bareless : ∀ piece ∈ splitUnescaped sep s, ¬ OccursBare sep piece := by
    intro piece member
    rw [← hasBare_iff_occursBare sepPlain, hasBare_of_mem_splitUnescaped sepPlain member]
    exact Bool.false_ne_true
  exact ⟨joinWith_splitUnescaped sepPlain s, bareless, cutAtOffset?_eq sepPlain s,
    splitOnceUnescaped_eq_none_iff sepPlain,
    fun _ _ => splitUnescaped_of_splitOnceUnescaped sepPlain,
    (joinWith_map_unescape_splitUnescaped sepPlain s).symm⟩

/-- A separator of three bytes, escaped once and once behind an escaped backslash, and a backslash
at the end that escapes nothing. -/
theorem splitters_agree_open_end :
    let s := "é\\→ß→\\\\→\\".toList
    let pieces := ["é\\→ß".toList, "\\\\".toList, "\\".toList]
    '→' ≠ '\\' ∧ splitUnescaped '→' s = pieces ∧ joinWith '→' pieces = s ∧
      (∀ piece ∈ pieces, ¬ OccursBare '→' piece) ∧
      splitOnceUnescaped '→' s = some ("é\\→ß".toList, "\\\\→\\".toList) ∧
      cutAtOffset? '→' s = some (some ("é\\→ß".toList, "\\\\→\\".toList)) ∧
      pieces = "é\\→ß".toList :: splitUnescaped '→' "\\\\→\\".toList ∧
      unescape s = joinWith '→' ["é→ß".toList, "\\".toList, "\\".toList] := by
  intro s pieces
  have sepPlain : '→' ≠ '\\' := by decide
  have cut : splitUnescaped '→' s = pieces := by decide
  have once : splitOnceUnescaped '→' s = some ("é\\→ß".toList, "\\\\→\\".toList) := by decide
  obtain ⟨joined, closed, sliced, -, first, late⟩ := splitters_agree sepPlain s
  rw [once] at sliced
  rw [cut] at joined closed late
  exact ⟨sepPlain, cut, joined, closed, once, sliced, cut ▸ first _ _ once, late⟩

end IsoScene.Text
