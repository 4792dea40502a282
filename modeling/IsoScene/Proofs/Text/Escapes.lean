import IsoScene.Text.Escape
import Mathlib.Tactic.Tauto

/-! # Escapes and separators

Whether a backslash escapes the next character depends on all the characters before it. The two
facts about a text that decide how it can be joined to another one are:

* `endsOpen` — the text ends in a backslash that waits for a character;
* `hasBare` — a separator stands in the text without a backslash before it.

From them follows how texts that are put together are cut (`splitUnescaped_append`,
`splitUnescaped_joinWith`, `splitOnceUnescaped_append`). What `escape` writes is closed and has no
bare separators (`endsOpen_escape`, `hasBare_escape`).
-/

namespace IsoScene.Text

/-- The text ends in a backslash that nothing escapes and that escapes nothing. -/
def endsOpen : List Char → Bool
  | [] => false
  | ['\\'] => true
  | '\\' :: _ :: rest => endsOpen rest
  | _ :: rest => endsOpen rest

/-- The character occurs in the text without being escaped. -/
def hasBare (sep : Char) : List Char → Bool
  | [] => false
  | ['\\'] => false
  | '\\' :: _ :: rest => hasBare sep rest
  | c :: rest => c == sep || hasBare sep rest

/-! ## Character by character -/

/-- A text is empty, a lone backslash, or starts with an escaped or with a plain character. -/
@[elab_as_elim]
theorem escapeInduction {motive : List Char → Prop} (nil : motive []) (lone : motive ['\\'])
    (escaped : ∀ c rest, motive rest → motive ('\\' :: c :: rest))
    (plain : ∀ c rest, c ≠ '\\' → motive rest → motive (c :: rest)) : ∀ s, motive s
  | [] => nil
  | c :: rest => by
    by_cases isBackslash : c = '\\'
    · subst isBackslash
      cases rest with
      | nil => exact lone
      | cons d rest => exact escaped d rest (escapeInduction nil lone escaped plain rest)
    · exact plain c rest isBackslash (escapeInduction nil lone escaped plain rest)

section
variable {c : Char} (ne : c ≠ '\\') (rest : List Char)
include ne

theorem endsOpen_plain : endsOpen (c :: rest) = endsOpen rest := by
  cases rest <;> simp [endsOpen, ne]

theorem hasBare_plain (sep : Char) : hasBare sep (c :: rest) = (c == sep || hasBare sep rest) := by
  cases rest <;> simp [hasBare, ne]

theorem unescape_plain : unescape (c :: rest) = c :: unescape rest := by
  cases rest <;> simp [unescape, ne]

theorem splitUnescaped_plain (sep : Char) :
    splitUnescaped sep (c :: rest) =
      if c = sep then [] :: splitUnescaped sep rest
      else extendFirst [c] (splitUnescaped sep rest) := by
  cases rest <;> simp [splitUnescaped, ne]

theorem splitOnceUnescaped_plain (sep : Char) :
    splitOnceUnescaped sep (c :: rest) =
      if c = sep then some ([], rest)
      else (splitOnceUnescaped sep rest).map fun (before, after) => (c :: before, after) := by
  cases rest <;> simp [splitOnceUnescaped, ne]

end

theorem splitUnescaped_ne_nil (sep : Char) (s : List Char) : splitUnescaped sep s ≠ [] := by
  induction s using escapeInduction with
  | nil => simp [splitUnescaped]
  | lone => simp [splitUnescaped]
  | escaped c rest ih =>
    rw [splitUnescaped]
    cases splitUnescaped sep rest <;> simp [extendFirst]
  | plain c rest ne ih =>
    rw [splitUnescaped_plain ne]
    split
    · simp
    · cases splitUnescaped sep rest <;> simp [extendFirst]

theorem length_extendFirst (front : List Char) {pieces : List (List Char)}
    (nonempty : pieces ≠ []) : (extendFirst front pieces).length = pieces.length := by
  cases pieces with
  | nil => exact absurd rfl nonempty
  | cons piece rest => rfl

theorem extendFirst_append (front : List Char) {pieces : List (List Char)} (nonempty : pieces ≠ [])
    (others : List (List Char)) :
    extendFirst front (pieces ++ others) = extendFirst front pieces ++ others := by
  cases pieces with
  | nil => exact absurd rfl nonempty
  | cons piece rest => rfl

/-! ## Texts put together -/

/-- Behind a closed text everything is read as if it stood alone. -/
theorem endsOpen_append {s : List Char} (closed : endsOpen s = false) (rest : List Char) :
    endsOpen (s ++ rest) = endsOpen rest := by
  induction s using escapeInduction with
  | nil => rfl
  | lone => simp [endsOpen] at closed
  | escaped c s ih => exact ih (by simpa [endsOpen] using closed)
  | plain c s ne ih =>
    rw [endsOpen_plain ne] at closed
    rw [List.cons_append, endsOpen_plain ne, ih closed]

theorem hasBare_append (sep : Char) {s : List Char} (closed : endsOpen s = false)
    (rest : List Char) : hasBare sep (s ++ rest) = (hasBare sep s || hasBare sep rest) := by
  induction s using escapeInduction with
  | nil => rfl
  | lone => simp [endsOpen] at closed
  | escaped c s ih => exact ih (by simpa [endsOpen] using closed)
  | plain c s ne ih =>
    rw [endsOpen_plain ne] at closed
    rw [List.cons_append, hasBare_plain ne, hasBare_plain ne, ih closed, Bool.or_assoc]

theorem unescape_append {s : List Char} (closed : endsOpen s = false) (rest : List Char) :
    unescape (s ++ rest) = unescape s ++ unescape rest := by
  induction s using escapeInduction with
  | nil => rfl
  | lone => simp [endsOpen] at closed
  | escaped c s ih => simp [unescape, ih (by simpa [endsOpen] using closed)]
  | plain c s ne ih =>
    rw [endsOpen_plain ne] at closed
    rw [List.cons_append, unescape_plain ne, unescape_plain ne, ih closed, List.cons_append]

/-- A bare separator behind a closed text ends a piece. -/
theorem splitUnescaped_append {sep : Char} (sepPlain : sep ≠ '\\') {s : List Char}
    (closed : endsOpen s = false) (rest : List Char) :
    splitUnescaped sep (s ++ sep :: rest) = splitUnescaped sep s ++ splitUnescaped sep rest := by
  induction s using escapeInduction with
  | nil => simp [splitUnescaped_plain sepPlain, splitUnescaped]
  | lone => simp [endsOpen] at closed
  | escaped c s ih =>
    -- `c` may be the separator; the backslash keeps it in its piece.
    have cut := ih (by simpa [endsOpen] using closed)
    simp only [List.cons_append, splitUnescaped, cut]
    exact extendFirst_append _ (splitUnescaped_ne_nil sep s) _
  | plain c s ne ih =>
    rw [endsOpen_plain ne] at closed
    rw [List.cons_append, splitUnescaped_plain ne, splitUnescaped_plain ne, ih closed]
    split
    · rfl
    · exact extendFirst_append _ (splitUnescaped_ne_nil sep s) _

theorem splitUnescaped_of_not_hasBare {sep : Char} {s : List Char} (none : hasBare sep s = false) :
    splitUnescaped sep s = [s] := by
  induction s using escapeInduction with
  | nil => rfl
  | lone => rfl
  | escaped c s ih =>
    rw [splitUnescaped, ih (by simpa [hasBare] using none)]
    rfl
  | plain c s ne ih =>
    rw [hasBare_plain ne, Bool.or_eq_false_iff] at none
    have differs : c ≠ sep := by simpa using none.1
    rw [splitUnescaped_plain ne, if_neg differs, ih none.2]
    rfl

theorem splitOnceUnescaped_eq_none {sep : Char} {s : List Char} (none : hasBare sep s = false) :
    splitOnceUnescaped sep s = Option.none := by
  induction s using escapeInduction with
  | nil => rfl
  | lone => rfl
  | escaped c s ih =>
    rw [splitOnceUnescaped, ih (by simpa [hasBare] using none)]
    rfl
  | plain c s ne ih =>
    rw [hasBare_plain ne, Bool.or_eq_false_iff] at none
    have differs : c ≠ sep := by simpa using none.1
    rw [splitOnceUnescaped_plain ne, if_neg differs, ih none.2]
    rfl

/-- The first bare separator is the one behind a closed text without bare separators. -/
theorem splitOnceUnescaped_append {sep : Char} (sepPlain : sep ≠ '\\') {s : List Char}
    (closed : endsOpen s = false) (none : hasBare sep s = false) (rest : List Char) :
    splitOnceUnescaped sep (s ++ sep :: rest) = some (s, rest) := by
  induction s using escapeInduction with
  | nil => simp [splitOnceUnescaped_plain sepPlain]
  | lone => simp [endsOpen] at closed
  | escaped c s ih =>
    have cut := ih (by simpa [endsOpen] using closed) (by simpa [hasBare] using none)
    simp [splitOnceUnescaped, cut]
  | plain c s ne ih =>
    rw [endsOpen_plain ne] at closed
    rw [hasBare_plain ne, Bool.or_eq_false_iff] at none
    have differs : c ≠ sep := by simpa using none.1
    rw [List.cons_append, splitOnceUnescaped_plain ne, if_neg differs, ih closed none.2]
    rfl

/-- Plain characters in front of a text belong to its first piece. -/
theorem splitUnescaped_append_front {sep : Char} {front : List Char}
    (plain : ∀ c ∈ front, c ≠ '\\' ∧ c ≠ sep) {s : List Char} {piece : List Char}
    {others : List (List Char)} (cut : splitUnescaped sep s = piece :: others) :
    splitUnescaped sep (front ++ s) = (front ++ piece) :: others := by
  induction front with
  | nil => exact cut
  | cons c front ih =>
    obtain ⟨⟨notBackslash, notSep⟩, plainLater⟩ := List.forall_mem_cons.mp plain
    rw [List.cons_append, splitUnescaped_plain notBackslash, if_neg notSep, ih plainLater]
    rfl

theorem unescape_append_front {front : List Char} (plain : ∀ c ∈ front, c ≠ '\\')
    (s : List Char) : unescape (front ++ s) = front ++ unescape s := by
  induction front with
  | nil => rfl
  | cons c front ih =>
    obtain ⟨notBackslash, plainLater⟩ := List.forall_mem_cons.mp plain
    rw [List.cons_append, unescape_plain notBackslash, ih plainLater, List.cons_append]

theorem length_splitUnescaped_le (sep : Char) (s : List Char) :
    (splitUnescaped sep s).length ≤ s.length + 1 := by
  induction s using escapeInduction with
  | nil => exact Nat.le_refl 1
  | lone => exact Nat.le_succ 1
  | escaped c s ih =>
    rw [splitUnescaped, length_extendFirst _ (splitUnescaped_ne_nil sep s), List.length_cons,
      List.length_cons]
    omega
  | plain c s ne ih =>
    rw [splitUnescaped_plain ne]
    split
    · simpa using ih
    · rw [length_extendFirst _ (splitUnescaped_ne_nil sep s), List.length_cons]
      omega

theorem length_le_of_splitOnceUnescaped {sep : Char} {s before after : List Char}
    (cut : splitOnceUnescaped sep s = some (before, after)) : after.length ≤ s.length := by
  induction s using escapeInduction generalizing before with
  | nil => simp [splitOnceUnescaped] at cut
  | lone => simp [splitOnceUnescaped] at cut
  | escaped c s ih =>
    rw [splitOnceUnescaped] at cut
    obtain ⟨⟨front, _⟩, found, ⟨⟩⟩ := Option.map_eq_some_iff.mp cut
    exact Nat.le_add_right_of_le (Nat.le_add_right_of_le (ih found))
  | plain c s ne ih =>
    rw [splitOnceUnescaped_plain ne] at cut
    split at cut
    · obtain ⟨rfl, rfl⟩ : [] = before ∧ s = after := by simpa using cut
      exact Nat.le_succ s.length
    · obtain ⟨⟨front, _⟩, found, ⟨⟩⟩ := Option.map_eq_some_iff.mp cut
      exact Nat.le_succ_of_le (ih found)

theorem length_unescape_le (s : List Char) : (unescape s).length ≤ s.length := by
  induction s using escapeInduction with
  | nil => exact Nat.le_refl 0
  | lone => exact Nat.le_refl 1
  | escaped c s ih =>
    rw [unescape, List.length_cons, List.length_cons, List.length_cons]
    omega
  | plain c s ne ih =>
    rw [unescape_plain ne, List.length_cons, List.length_cons]
    omega

/-! ## Joined texts -/

theorem joinWith_map_cons_cons {α : Type} (write : α → List Char) (sep : Char) (x next : α)
    (rest : List α) : joinWith sep ((x :: next :: rest).map write) =
      write x ++ sep :: joinWith sep ((next :: rest).map write) := by
  rw [List.map_cons, List.map_cons, joinWith_cons_cons]

section
variable {α : Type} {write : α → List Char} (closed : ∀ x, endsOpen (write x) = false)
include closed

theorem endsOpen_joinWith {sep : Char} (sepPlain : sep ≠ '\\') (xs : List α) :
    endsOpen (joinWith sep (xs.map write)) = false := by
  induction xs with
  | nil => rfl
  | cons x rest ih =>
    cases rest with
    | nil => exact closed x
    | cons next rest =>
      rw [joinWith_map_cons_cons, endsOpen_append (closed x), endsOpen_plain sepPlain]
      exact ih

/-- Joined texts can be unescaped one by one. -/
theorem unescape_joinWith {sep : Char} (sepPlain : sep ≠ '\\') (xs : List α) :
    unescape (joinWith sep (xs.map write)) = joinWith sep (xs.map fun x => unescape (write x)) := by
  induction xs with
  | nil => rfl
  | cons x rest ih =>
    cases rest with
    | nil => rfl
    | cons next rest =>
      rw [joinWith_map_cons_cons, joinWith_map_cons_cons, unescape_append (closed x),
        unescape_plain sepPlain, ih]

variable {sep : Char} (none : ∀ x, hasBare sep (write x) = false)
include none

/-- Joining with one separator brings no other one into the text. -/
theorem hasBare_joinWith {other : Char} (otherPlain : other ≠ '\\') (differ : other ≠ sep)
    (xs : List α) : hasBare sep (joinWith other (xs.map write)) = false := by
  induction xs with
  | nil => rfl
  | cons x rest ih =>
    cases rest with
    | nil => exact none x
    | cons next rest =>
      rw [joinWith_map_cons_cons, hasBare_append sep (closed x), none x, hasBare_plain otherPlain,
        ih]
      simpa using differ

/-- Joined texts are cut where they were joined. -/
theorem splitUnescaped_joinWith (sepPlain : sep ≠ '\\') {xs : List α} (nonempty : xs ≠ []) :
    splitUnescaped sep (joinWith sep (xs.map write)) = xs.map write := by
  induction xs with
  | nil => exact absurd rfl nonempty
  | cons x rest ih =>
    have cutFirst := splitUnescaped_of_not_hasBare (none x)
    cases rest with
    | nil => exact cutFirst
    | cons next rest =>
      rw [joinWith_map_cons_cons, splitUnescaped_append sepPlain (closed x), cutFirst,
        ih (by simp)]
      rfl

end

/-! ## Escaped texts -/

theorem endsOpen_escape {special : Char → Bool} (backslash : special '\\' = true) (s : List Char) :
    endsOpen (escape special s) = false := by
  induction s with
  | nil => rfl
  | cons c s ih =>
    by_cases isSpecial : special c = true
    · rw [escape, if_pos isSpecial]
      exact ih
    · have ne : c ≠ '\\' := fun same => isSpecial (same ▸ backslash)
      rw [escape, if_neg isSpecial, endsOpen_plain ne, ih]

theorem hasBare_escape {special : Char → Bool} {sep : Char} (backslash : special '\\' = true)
    (separator : special sep = true) (s : List Char) : hasBare sep (escape special s) = false := by
  induction s with
  | nil => rfl
  | cons c s ih =>
    by_cases isSpecial : special c = true
    · rw [escape, if_pos isSpecial]
      exact ih
    · have ne : c ≠ '\\' := fun same => isSpecial (same ▸ backslash)
      have differs : c ≠ sep := fun same => isSpecial (same ▸ separator)
      rw [escape, if_neg isSpecial, hasBare_plain ne, ih]
      simpa using differs

end IsoScene.Text
