import IsoScene.Proofs.Text.Escapes

/-! # Cutting what has been joined

Escaped texts are closed and have no bare separators, so the only bare separators of a joined text
are those between its parts. Cutting finds these, and unescaping gives every part back
(`split_joined`).
-/

namespace IsoScene.Text

/-- Puts a backslash before every separator and every backslash. -/
def protect (sep : Char) : List Char → List Char := escape fun c => c == '\\' || c == sep

section
variable (sep : Char) (s : List Char)

theorem endsOpen_protect : endsOpen (protect sep s) = false :=
  endsOpen_escape (by simp) s

theorem hasBare_protect : hasBare sep (protect sep s) = false :=
  hasBare_escape (by simp) (by simp) s

theorem unescape_protect : unescape (protect sep s) = s :=
  unescape_escape _ (by simp) s

end

/-- Texts that are escaped and joined with a separator are cut into the escaped texts again, and
unescaping gives each of them back, whatever separators and backslashes it has. -/
theorem split_joined {sep : Char} (sepPlain : sep ≠ '\\') {texts : List (List Char)}
    (nonempty : texts ≠ []) :
    splitUnescaped sep (joinWith sep (texts.map (protect sep))) = texts.map (protect sep) ∧
      (∀ s ∈ texts, unescape (protect sep s) = s) ∧
      (splitUnescaped sep (joinWith sep (texts.map (protect sep)))).map unescape = texts := by
  have cut : splitUnescaped sep (joinWith sep (texts.map (protect sep))) =
      texts.map (protect sep) :=
    splitUnescaped_joinWith (endsOpen_protect sep) (hasBare_protect sep) sepPlain nonempty
  refine ⟨cut, fun s _ => unescape_protect sep s, ?_⟩
  have undone : unescape ∘ protect sep = id := funext (unescape_protect sep)
  rw [cut, List.map_map, undone, List.map_id]

/-- A backslash in front of a separator, a separator alone, no text at all, and both in a row. -/
theorem split_joined_backslashes :
    let texts := ["a\\".toList, "&".toList, [], "\\\\&".toList]
    joinWith '&' (texts.map (protect '&')) = "a\\\\&\\&&&\\\\\\\\\\&".toList ∧
      splitUnescaped '&' "a\\\\&\\&&&\\\\\\\\\\&".toList =
        ["a\\\\".toList, "\\&".toList, [], "\\\\\\\\\\&".toList] ∧
      (splitUnescaped '&' "a\\\\&\\&&&\\\\\\\\\\&".toList).map unescape = texts := by
  intro texts
  have joined : joinWith '&' (texts.map (protect '&')) = "a\\\\&\\&&&\\\\\\\\\\&".toList := by
    decide
  have sepPlain : '&' ≠ '\\' := by decide
  have nonempty : texts ≠ [] := by decide
  obtain ⟨cut, -, undone⟩ := split_joined sepPlain nonempty
  rw [joined] at cut undone
  exact ⟨joined, cut, undone⟩

end IsoScene.Text
