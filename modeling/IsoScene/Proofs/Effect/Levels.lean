import IsoScene.Effect.Pixel
import IsoScene.Proofs.Failure
import IsoScene.Proofs.Text.Numerals

/-! # Levels of outlines

The argument of an outline is a whole number, which may have a sign and zeros in front. It is read
into sixty-four bits first and compared with the limits afterwards. So a number that has room there
is judged by its value, and a number that has none counts as no number at all
(`parseLevel_of_literal`).
-/

namespace IsoScene.PixelEffect

open Text (IsLiteral)

/-- What an outline with a level of this value gives. -/
def ofValue (value : Int) : Except UserError (Option PixelEffect) :=
  if value < 1 then .error (.range .levelNotPositive)
  else if 16 < value then .error (.range (.levelTooGreat 16))
  else .ok (some (.outline value.toNat))

theorem parse_outline {name : String} (outlines : name = "meta" ∨ name = "m")
    (arguments : List String) :
    parse ⟨name, arguments⟩ = (parseLevel arguments).map (some ∘ outline) := by
  rcases outlines with rfl | rfl
  · rfl
  · rfl

section
variable {argument : String}

theorem parseLevel_of_readInt {value : Int}
    (read : Text.readInt Text.minInt64 Text.maxInt64 (Text.trim argument.toList) = some value) :
    (parseLevel [argument]).map (some ∘ outline) = ofValue value := by
  have limit : ((levelLimit : Nat) : Int) = 16 := rfl
  rw [parseLevel, ofValue]
  simp only [read, ok_bind, limit]
  split
  · rfl
  · split
    · rfl
    · rfl

theorem parseLevel_of_not_readInt
    (refused : Text.readInt Text.minInt64 Text.maxInt64 (Text.trim argument.toList) = none) :
    parseLevel [argument] = .error (.argument .levelNotInteger) := by
  rw [parseLevel]
  simp only [refused]
  rfl

theorem parseLevel_of_literal {value : Int}
    (literal : IsLiteral (Text.trim argument.toList) value) :
    (parseLevel [argument]).map (some ∘ outline) =
      if Text.minInt64 ≤ value ∧ value ≤ Text.maxInt64 then ofValue value
      else .error (.argument .levelNotInteger) := by
  split
  · next room => exact parseLevel_of_readInt (Text.readInt_eq_some_iff.mpr ⟨literal, room⟩)
  · next noRoom =>
    have refused := Text.readInt_eq_none_iff.mpr fun other isOther => by
      rwa [isOther.unique literal]
    rw [parseLevel_of_not_readInt refused]
    rfl

theorem parseLevel_of_no_literal
    (none : ¬ ∃ value, IsLiteral (Text.trim argument.toList) value) :
    parseLevel [argument] = .error (.argument .levelNotInteger) :=
  parseLevel_of_not_readInt
    (Text.readInt_eq_none_iff.mpr fun value literal => absurd ⟨value, literal⟩ none)

end

/-- Without an argument the level is one. A literal that has room in sixty-four bits is judged by
its value: from one to sixteen it is the level, and otherwise it is out of range. Any other single
argument is no integer, literals that have no room included, and more than one argument is one too
many. -/
theorem level_by_value {name : String} (outlines : name = "meta" ∨ name = "m") :
    parse ⟨name, []⟩ = .ok (some (.outline 1)) ∧
      (∀ (argument : String) (value : Int), IsLiteral (Text.trim argument.toList) value →
        parse ⟨name, [argument]⟩ =
          if Text.minInt64 ≤ value ∧ value ≤ Text.maxInt64 then ofValue value
          else .error (.argument .levelNotInteger)) ∧
      (∀ argument : String, (¬ ∃ value, IsLiteral (Text.trim argument.toList) value) →
        parse ⟨name, [argument]⟩ = .error (.argument .levelNotInteger)) ∧
      ∀ (first second : String) (rest : List String),
        parse ⟨name, first :: second :: rest⟩ = .error (.argument .levelArity) := by
  simp only [parse_outline outlines]
  refine ⟨rfl, fun argument value literal => parseLevel_of_literal literal, ?_, ?_⟩
  · intro argument none
    rw [parseLevel_of_no_literal none]
    rfl
  · intro first second rest
    rfl

/-- A sign, zeros and blanks do not matter, and the greatest literal that has room is too great. -/
theorem level_by_value_padded :
    parse ⟨"m", [" +0016\t"]⟩ = .ok (some (.outline 16)) ∧
      parse ⟨"meta", ["-00"]⟩ = .error (.range .levelNotPositive) ∧
      parse ⟨"meta", ["9223372036854775807"]⟩ = .error (.range (.levelTooGreat 16)) ∧
      parse ⟨"meta", ["+-1"]⟩ = .error (.argument .levelNotInteger) ∧
      parse ⟨"m", ["1", ""]⟩ = .error (.argument .levelArity) := by
  obtain ⟨-, literals, others, -⟩ := level_by_value (.inl (rfl : "meta" = "meta"))
  obtain ⟨-, shortLiterals, -, several⟩ := level_by_value (.inr (rfl : "m" = "m"))
  have noLiteral : ¬ ∃ value, IsLiteral (Text.trim "+-1".toList) value := by
    rintro ⟨value, literal⟩
    cases (Text.literal?_eq_some_iff.mpr literal).symm.trans (by decide +kernel : _ = none)
  refine ⟨?_, ?_, ?_, others "+-1" noLiteral, several "1" "" []⟩
  · exact shortLiterals " +0016\t" 16 (by decide +kernel)
  · exact literals "-00" 0 (by decide +kernel)
  · exact literals "9223372036854775807" 9223372036854775807 (by decide +kernel)

/-- One more than the greatest literal that has room is an integer and out of range, and it is
called no integer. -/
theorem great_level_is_no_integer :
    IsLiteral (Text.trim "9223372036854775808".toList) 9223372036854775808 ∧
      parse ⟨"meta", ["9223372036854775808"]⟩ = .error (.argument .levelNotInteger) ∧
      ∀ cause, parse ⟨"meta", ["9223372036854775808"]⟩ ≠ .error (.range cause) := by
  have answer : parse ⟨"meta", ["9223372036854775808"]⟩ =
      .error (.argument .levelNotInteger) := by decide +kernel
  refine ⟨by decide +kernel, answer, fun cause same => ?_⟩
  rw [answer] at same
  cases same

end IsoScene.PixelEffect
