import IsoScene.Error
import IsoScene.Variant

/-! # Effects on a tile's bitmap

Pixel effects are named by variants and change the bitmap of a tile in every frame. This module
says which variant asks for which effect; `Effect.Apply` says what the effects do.
-/

namespace IsoScene

inductive ColorChoice where
  | literal (color : Rgba)
  | palette (place : PaletteCoord)
deriving DecidableEq, Repr

inductive PixelEffect where
  /-- Surrounds the bitmap by outlines of its dominant colour, one for each level. -/
  | outline (level : Nat)
  /-- Stretches every channel to its full range. -/
  | clean
  /-- Multiplies by a colour. -/
  | tint (choice : ColorChoice)
  /-- Darkens. -/
  | inactive
  /-- Sets dark text on the plate. -/
  | property
  /-- Reduces to black and white. -/
  | noun
  | grayscale
deriving DecidableEq, Repr

namespace PixelEffect

def levelLimit : Nat := 16

/-- Reads the level of an outline; without an argument it is one. -/
def parseLevel (arguments : List String) : Except UserError Nat := do
  let level ← match arguments with
    | [] => .ok 1
    | [level] =>
      match Text.readInt Text.minInt64 Text.maxInt64 (Text.trim level.toList) with
      | some n => .ok n
      | none => .error (.argument .levelNotInteger)
    | _ => .error (.argument .levelArity)
  if level < 1 then .error (.range .levelNotPositive)
  else if levelLimit < level then .error (.range (.levelTooGreat levelLimit))
  else .ok level.toNat

/-- Reads a colour: after `#` a literal, otherwise a place in the palette or its name. -/
def parseColor : List String → Except UserError ColorChoice
  | [argument] =>
    let spec := Text.trim argument.toList
    if spec.head? = some '#' then
      match Rgba.parse spec with
      | .ok color => .ok (.literal color)
      | .error cause => .error (.argument (.badColor (String.ofList spec) cause))
    else
      match (PaletteCoord.parse? spec).or (PaletteCoord.named? spec) with
      | some place => .ok (.palette place)
      | none => .error (.argument (.unknownColor (String.ofList spec)))
  | [first, second] => .error (.argument (.colorInTwoParts first second))
  | _ => .error (.argument .colorArity)

/-- An effect that takes no arguments; the error calls it by its full name. -/
def plain (effect : PixelEffect) (name : String) (arguments : List String) :
    Except UserError (Option PixelEffect) :=
  if arguments.isEmpty then .ok (some effect) else .error (.argument (.noArguments name))

/-- The pixel effect that a variant names, if it names one. -/
def parse (v : Variant) : Except UserError (Option PixelEffect) :=
  match v.name with
  | "meta" | "m" => (parseLevel v.arguments).map (some ∘ outline)
  | "clean" | "cl" => clean.plain "clean" v.arguments
  | "color" | "c" => (parseColor v.arguments).map (some ∘ tint)
  | "inactive" | "in" => inactive.plain "inactive" v.arguments
  | "property" | "prop" => property.plain "property" v.arguments
  | "noun" | "unprop" => noun.plain "noun" v.arguments
  | "gs" | "gscale" | "grayscale" => grayscale.plain "grayscale" v.arguments
  | _ => .ok none

end PixelEffect

end IsoScene
