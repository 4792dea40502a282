import IsoScene.Proofs.Text.Escapes
import IsoScene.Scene.Cell

/-! # Cells and their shorthands

A shorthand at the start of a cell can be written out in the text of the cell; the cell that is read
stays the same (`parse?_expandName`), because neither the sign nor what it stands for has a
character with a meaning (`IsShorthand`).
-/

namespace IsoScene

open Text

/-- Some characters that neither escape nor separate anything, and that are no sign of an empty
cell. -/
structure IsPlainFront (front : List Char) : Prop where
  ne_nil : front ≠ []
  plain : ∀ c ∈ front, c ≠ '\\' ∧ c ≠ ':' ∧ c ≠ '|' ∧ c ≠ '.'

theorem IsPlainFront.append_ne {front : List Char} (plainFront : IsPlainFront front)
    (name : List Char) : ¬ (front ++ name = [] ∨ front ++ name = ['.']) := by
  obtain ⟨c, rest, rfl⟩ := List.exists_cons_of_ne_nil plainFront.ne_nil
  obtain ⟨-, -, -, notPoint⟩ := plainFront.plain c List.mem_cons_self
  simp [notPoint]

/-- Plain characters in front of a cell belong to its name. -/
theorem parse?_append_front {front : List Char} (plainFront : IsPlainFront front)
    {s name : List Char} {variants : List (List Char)}
    (cut : splitUnescaped ':' s = name :: variants) :
    Cell.parse? (front ++ s) = some ⟨String.ofList (expandName (front ++ unescape name)),
      (variants.map unescape).map Variant.ofText⟩ := by
  have cutFront : splitUnescaped ':' (front ++ s) = (front ++ name) :: variants :=
    splitUnescaped_append_front
      (fun c member => ⟨(plainFront.plain c member).1, (plainFront.plain c member).2.1⟩) cut
  rw [Cell.parse?, cutFront, List.map_cons,
    unescape_append_front fun c member => (plainFront.plain c member).1]
  simp only [Cell.ofTexts?, if_neg (plainFront.append_ne _)]

/-! ## Shorthands -/

/-- A sign that names start with, and what it stands for. -/
structure IsShorthand (sign long : List Char) : Prop where
  sign_plain : IsPlainFront sign
  long_plain : IsPlainFront long
  expandName_sign : ∀ name, expandName (sign ++ name) = long ++ name
  expandName_long : ∀ name, expandName (long ++ name) = long ++ name

theorem isShorthand_text : IsShorthand ['$'] "text_".toList :=
  ⟨⟨by simp, by simp⟩, ⟨by simp, by simp⟩, fun _ => rfl, fun _ => rfl⟩

theorem isShorthand_terrain : IsShorthand ['#'] "terrain_".toList :=
  ⟨⟨by simp, by simp⟩, ⟨by simp, by simp⟩, fun _ => rfl, fun _ => rfl⟩

/-- A text is its own expansion, or it starts with a shorthand. -/
theorem expandName_cases (s : List Char) :
    expandName s = s ∨ ∃ sign long rest, IsShorthand sign long ∧ s = sign ++ rest := by
  rw [expandName.eq_def]
  split
  · next rest => exact .inr ⟨_, _, rest, isShorthand_text, rfl⟩
  · next rest => exact .inr ⟨_, _, rest, isShorthand_terrain, rfl⟩
  · exact .inl rfl

theorem expandName_of_no_shorthand {name : List Char}
    (no_shorthand : ∀ c ∈ name.head?, c ≠ '$' ∧ c ≠ '#') : expandName name = name := by
  rw [expandName.eq_def]
  split
  · exact absurd rfl (no_shorthand '$' rfl).1
  · exact absurd rfl (no_shorthand '#' rfl).2
  · rfl

theorem parse?_expandName (s : List Char) : Cell.parse? (expandName s) = Cell.parse? s := by
  rcases expandName_cases s with same | ⟨sign, long, rest, shorthand, rfl⟩
  · rw [same]
  · obtain ⟨name, variants, cut⟩ := List.exists_cons_of_ne_nil (splitUnescaped_ne_nil ':' rest)
    rw [shorthand.expandName_sign, parse?_append_front shorthand.sign_plain cut,
      parse?_append_front shorthand.long_plain cut, shorthand.expandName_sign,
      shorthand.expandName_long]

end IsoScene
