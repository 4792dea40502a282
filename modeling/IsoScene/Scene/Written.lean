import IsoScene.Scene.Grid

/-! # Grids as they are written

The text of a grid whose parts are known. A backslash stands before every character of a name or a
variant that would separate parts, so that all names and variants can be written.

* `CellText`, `StackText` — the parts of a cell and of a stack.
* `CellText.write`, `StackText.write`, `writeGrid` — their texts.
* `Variant.write`, `Cell.write` — the text of a cell whose variants are taken apart, too.
-/

namespace IsoScene

/-- The name of a tile and its variants, as they are meant. -/
structure CellText where
  name : List Char
  variants : List (List Char)
deriving DecidableEq, Repr

/-- The cells of one step, one for each pixel layer; a layer may hold no tile. -/
abbrev LayerTexts := List (Option CellText)

/-- The terrain of a stack, if it names one, and its steps. -/
structure StackText where
  terrain : Option LayerTexts
  steps : List LayerTexts
deriving DecidableEq, Repr

/-- The characters that separate parts of a stack, and the backslash. -/
def isSeparator (c : Char) : Bool := ['\\', ':', '&', '|', '%'].contains c

def CellText.write (cell : CellText) : List Char :=
  Text.joinWith ':' ((cell.name :: cell.variants).map (Text.escape isSeparator))

def writeCell : Option CellText → List Char
  | none => ['.']
  | some cell => cell.write

def writeLayers (layers : LayerTexts) : List Char := Text.joinWith '|' (layers.map writeCell)

def StackText.write (stack : StackText) : List Char :=
  let steps := Text.joinWith '&' (stack.steps.map writeLayers)
  match stack.terrain with
  | some layers => writeLayers layers ++ '%' :: steps
  | none => steps

/-- The characters that separate parts of a stack or of a variant, and the backslash. -/
def isMark (c : Char) : Bool := isSeparator c || c == '/'

/-- The name and the arguments of a variant. -/
def Variant.parts (variant : Variant) : List (List Char) :=
  (variant.name :: variant.arguments).map String.toList

def Variant.write (variant : Variant) : List Char :=
  Text.joinWith '/' (variant.parts.map (Text.escape isMark))

/-- The text of a cell in which all names and arguments have their marks escaped. -/
def Cell.write (cell : Cell) : List Char :=
  Text.joinWith ':' (Text.escape isMark cell.name.toList :: cell.variants.map Variant.write)

end IsoScene
