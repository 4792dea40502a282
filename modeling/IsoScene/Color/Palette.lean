import IsoScene.Color.Basic
import IsoScene.Text.Blank

/-! # Palette coordinates

A palette is a small image; a colour can be named by its place there. Places are written as
`column,row` or as two digits, and the common ones have names.
-/

namespace IsoScene

structure PaletteCoord where
  column : Nat
  row : Nat
deriving DecidableEq, Repr

namespace PaletteCoord

def names : List (String × PaletteCoord) :=
  [("white", ⟨6, 0⟩), ("silver", ⟨4, 0⟩), ("gray", ⟨2, 0⟩), ("grey", ⟨2, 0⟩),
    ("black", ⟨0, 0⟩), ("orange", ⟨6, 3⟩), ("pink", ⟨7, 3⟩), ("purple", ⟨7, 4⟩),
    ("brown", ⟨1, 2⟩), ("yellow", ⟨2, 5⟩), ("red", ⟨3, 3⟩), ("green", ⟨3, 4⟩),
    ("lime", ⟨4, 4⟩), ("cyan", ⟨6, 1⟩), ("blue", ⟨4, 1⟩)]

/-- The place of a named colour; ASCII letters may have either case. -/
def named? (s : List Char) : Option PaletteCoord :=
  (names.find? fun entry => Rgba.isWord entry.1 s).map (·.2)

def splitComma : List Char → Option (List Char × List Char)
  | [] => none
  | ',' :: rest => some ([], rest)
  | c :: rest => (splitComma rest).map fun (before, after) => (c :: before, after)

/-- Reads `column,row` with blanks around the numbers, or two digits. -/
def parse? (s : List Char) : Option PaletteCoord :=
  match splitComma s with
  | some (x, y) =>
    match Text.readNat Text.maxNat32 (Text.trim x), Text.readNat Text.maxNat32 (Text.trim y) with
    | some column, some row => some ⟨column, row⟩
    | _, _ => none
  | none =>
    match s with
    | [x, y] =>
      if x.isDigit && y.isDigit then some ⟨Text.digitValue x, Text.digitValue y⟩ else none
    | _ => none

end PaletteCoord

end IsoScene
