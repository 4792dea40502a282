import IsoScene.Text.Blank

/-! # Variants

A variant is a name with arguments that a cell attaches to its tile, written `name/arg/arg`.
-/

namespace IsoScene

structure Variant where
  name : String
  arguments : List String
deriving DecidableEq, Repr, Inhabited

namespace Variant

/-- Reads `name/arg/arg`. Every text is a variant; empty arguments are kept. -/
def ofText (s : List Char) : Variant :=
  match (Text.pieces '/' s).map String.ofList with
  | [] => ⟨"", []⟩
  | name :: arguments => ⟨name, arguments⟩

def text (v : Variant) : List Char :=
  Text.joinWith '/' ((v.name :: v.arguments).map String.toList)

/-- Reading keeps every character: the written form of what was read is the text. -/
theorem text_ofText (s : List Char) : (ofText s).text = s := by
  cases h : Text.pieces '/' s with
  | nil => exact absurd h (Text.pieces_ne_nil '/' s)
  | cons name arguments =>
    have := Text.joinWith_pieces '/' s
    rw [h] at this
    simpa [ofText, text, h, Function.comp_def] using this

end Variant

end IsoScene
