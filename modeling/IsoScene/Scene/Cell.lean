import IsoScene.Text.Escape
import IsoScene.Variant

/-! # Cells

A cell is the text of one tile: `name:variant:variant`. A backslash takes the special meaning
from the character after it. In names, `$` and `#` stand for text and for terrain.

* `expandName` — a name with its shorthand written out.
* `Cell.parse?` — reads a cell; an empty cell and a lone point hold no tile.
-/

namespace IsoScene

/-- Writes out the shorthands for text and for terrain at the start of a name. -/
def expandName : List Char → List Char
  | '$' :: rest => "text_".toList ++ rest
  | '#' :: rest => "terrain_".toList ++ rest
  | name => name

structure Cell where
  name : String
  variants : List Variant
deriving DecidableEq, Repr

namespace Cell

/-- The cell of a name and variants that stand in text without escapes. -/
def ofTexts? (name : List Char) (variants : List (List Char)) : Option Cell :=
  if name = [] ∨ name = ['.'] then none
  else some ⟨String.ofList (expandName name), variants.map Variant.ofText⟩

def parse? (s : List Char) : Option Cell :=
  match (Text.splitUnescaped ':' s).map Text.unescape with
  | [] => none
  | name :: variants => ofTexts? name variants

end Cell

end IsoScene
