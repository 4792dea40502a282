import IsoScene.Proofs.Scene.Cells
import IsoScene.Proofs.Text.Words
import IsoScene.Scene.Written
import Mathlib.Data.List.Basic

/-! # Names and arguments that are written in cells

A cell is cut at its colons while the backslashes are still there, but its variants are cut at their
slashes when the backslashes are gone. So an escaped colon stays inside the name or the argument
that it was written in, while an escaped slash separates arguments like any other
(`parts_read_write`).

`Cell.reads_back_iff` says what is read from a written cell, and that this is the cell that was
written exactly if no name and no argument of its variants has a slash.
-/

namespace IsoScene

open Text

/-! ## Variants -/

namespace Variant

theorem parts_injective : Function.Injective parts := by
  intro variant other same
  obtain ⟨name, arguments⟩ := variant
  obtain ⟨otherName, otherArguments⟩ := other
  have texts := List.map_injective_iff.mpr (fun _ _ => String.toList_inj.mp) same
  obtain ⟨rfl, rfl⟩ := List.cons.inj texts
  rfl

theorem parts_ofText (s : List Char) : (ofText s).parts = pieces '/' s := by
  unfold ofText parts
  cases cut : pieces '/' s with
  | nil => exact absurd cut (pieces_ne_nil '/' s)
  | cons name arguments => simp [Function.comp_def]

theorem endsOpen_write (variant : Variant) : endsOpen variant.write = false :=
  endsOpen_joinWith (endsOpen_escape rfl) (by decide) variant.parts

theorem hasBare_write (variant : Variant) : hasBare ':' variant.write = false :=
  hasBare_joinWith (endsOpen_escape rfl) (hasBare_escape rfl rfl) (by decide) (by decide)
    variant.parts

theorem unescape_write (variant : Variant) : unescape variant.write = variant.text := by
  have undone : ∀ s, unescape (escape isMark s) = s := unescape_escape isMark rfl
  rw [write, unescape_joinWith (endsOpen_escape rfl) (by decide)]
  simp only [undone, List.map_id']
  rfl

/-- What is read from the text of a variant has all its parts, each cut at its slashes. -/
theorem parts_read_write (variant : Variant) :
    (ofText (unescape variant.write)).parts = variant.parts.flatMap (pieces '/') := by
  rw [unescape_write, parts_ofText]
  exact pieces_joinWith_eq_flatMap '/' (List.cons_ne_nil _ _)

/-- No slash stands in the name or in an argument. -/
def HasNoSlash (variant : Variant) : Prop := ∀ part ∈ variant.parts, '/' ∉ part

theorem read_write_eq_self_iff (variant : Variant) :
    ofText (unescape variant.write) = variant ↔ variant.HasNoSlash := by
  rw [← parts_injective.eq_iff, parts_read_write]
  exact flatMap_pieces_eq_self_iff

end Variant

/-! ## Cells -/

namespace Cell

/-- The name is meant as it is: neither the sign of an empty cell nor a shorthand. -/
structure IsNamed (cell : Cell) : Prop where
  ne_empty : cell.name ≠ ""
  ne_point : cell.name ≠ "."
  no_shorthand : ∀ c ∈ cell.name.toList.head?, c ≠ '$' ∧ c ≠ '#'

/-- The cuts at colons find the name and the variants, as they were written. -/
theorem split_write (cell : Cell) :
    splitUnescaped ':' cell.write =
      escape isMark cell.name.toList :: cell.variants.map Variant.write := by
  -- The name is written like a variant without arguments.
  have named : (⟨cell.name, []⟩ : Variant).write = escape isMark cell.name.toList := rfl
  rw [write, ← named, ← List.map_cons]
  exact splitUnescaped_joinWith Variant.endsOpen_write Variant.hasBare_write (by decide)
    (List.cons_ne_nil _ _)

theorem parse?_write {cell : Cell} (named : cell.IsNamed) :
    parse? cell.write =
      some ⟨cell.name, cell.variants.map fun variant => .ofText (unescape variant.write)⟩ := by
  have notEmpty : ¬ (cell.name.toList = [] ∨ cell.name.toList = ['.']) := by
    rintro (none | point)
    · exact named.ne_empty (String.toList_inj.mp none)
    · exact named.ne_point (String.toList_inj.mp point)
  rw [parse?, split_write, List.map_cons, unescape_escape isMark rfl]
  simp only [ofTexts?, if_neg notEmpty, expandName_of_no_shorthand named.no_shorthand,
    String.ofList_toList, List.map_map, Function.comp_def]

/-- A written cell is read with its name and with its variants, in which every slash separates
arguments, escaped or not. It is read as it was meant exactly if its variants have no slash. -/
theorem reads_back_iff {cell : Cell} (named : cell.IsNamed) :
    ∃ read, parse? cell.write = some read ∧ read.name = cell.name ∧
      read.variants.map Variant.parts =
        cell.variants.map (fun variant => variant.parts.flatMap (pieces '/')) ∧
      (read = cell ↔ ∀ variant ∈ cell.variants, variant.HasNoSlash) := by
  refine ⟨_, parse?_write named, rfl, ?_, ?_⟩
  · simp only [List.map_map, Function.comp_def, Variant.parts_read_write]
  · obtain ⟨name, variants⟩ := cell
    simp only [Cell.mk.injEq, true_and, ← Variant.read_write_eq_self_iff]
    calc variants.map (fun variant => Variant.ofText (unescape variant.write)) = variants
        ↔ variants.map (fun variant => .ofText (unescape variant.write)) = variants.map id := by
          rw [List.map_id]
      _ ↔ ∀ variant ∈ variants, Variant.ofText (unescape variant.write) = variant :=
          List.map_eq_map_iff

/-- Colons and backslashes may stand everywhere, and a slash in the name of the cell. -/
theorem reads_back_with_colons :
    let cell : Cell := ⟨"a/b:", [⟨"x:", ["", "50%", "\\"]⟩, ⟨"", []⟩]⟩
    cell.IsNamed ∧ cell.write = "a\\/b\\::x\\://50\\%/\\\\:".toList ∧
      parse? cell.write = some cell := by
  intro cell
  have named : cell.IsNamed := ⟨by decide, by decide, by simp [cell]⟩
  obtain ⟨read, parsed, -, -, same⟩ := reads_back_iff named
  refine ⟨named, by decide +kernel, ?_⟩
  rw [parsed, same.mpr (by simp [cell, Variant.HasNoSlash, Variant.parts])]

/-- An escaped slash cuts an argument in two. -/
theorem escaped_slash_separates :
    let cell : Cell := ⟨"baba", [⟨"x", ["a/b"]⟩]⟩
    cell.IsNamed ∧ cell.write = "baba:x/a\\/b".toList ∧
      parse? cell.write = some ⟨"baba", [⟨"x", ["a", "b"]⟩]⟩ ∧ parse? cell.write ≠ some cell := by
  refine ⟨⟨by decide, by decide, by simp⟩, by decide +kernel, by decide +kernel,
    by decide +kernel⟩

end Cell

end IsoScene
