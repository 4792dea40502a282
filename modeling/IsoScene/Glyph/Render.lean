import IsoScene.Effect.Source
import IsoScene.FileSystem.Basic
import IsoScene.Glyph.Layout
import IsoScene.Raster.Blend

/-! # Drawing words

The letters are files `<letters>/<letter>/<mode>_<width>.png`. The widths that a letter has in a
mode are looked up once and remembered; a letter without widths is remembered, too.

* `WidthCache` — the widths that have been looked up.
* `composeLines` — laid out lines, centred on a tile.
* `renderText` — the tile of a word.
-/

namespace IsoScene.Glyph

/-- The widths that have been looked up, by letter and mode. -/
abbrev WidthCache := List ((Char × Nat) × List Nat)

def digits (n : Nat) : List Char := (toString n).toList

def dropStart? (start s : List Char) : Option (List Char) :=
  if start.isPrefixOf s then some (s.drop start.length) else none

def dropEnd? (tail s : List Char) : Option (List Char) :=
  (dropStart? tail.reverse s.reverse).map List.reverse

/-- The width that a file name in a letter's directory stands for. -/
def widthOfName (mode : Nat) (name : String) : Option Nat := do
  let stem ← dropEnd? ".png".toList name.toList
  let width ← dropStart? (digits mode ++ ['_']) stem
  Text.readNat Text.maxNat32 width

def letterDirectory (letters : List Char) (letter : Char) : List Char := Path.join letters [letter]

def letterFile (letters : List Char) (letter : Char) (mode width : Nat) : List Char :=
  Path.join (letterDirectory letters letter) (digits mode ++ '_' :: digits width ++ ".png".toList)

/-- Puts a width into an ascending list, once. -/
def insertWidth (width : Nat) : List Nat → List Nat
  | [] => [width]
  | other :: rest =>
    if width < other then width :: other :: rest
    else if width = other then other :: rest
    else other :: insertWidth width rest

/-- The widths that a letter has in the file system, ascending. A slash is no letter. -/
def findWidths (fs : FileSystem) (letters : List Char) (letter : Char) (mode : Nat) : List Nat :=
  let directory := letterDirectory letters letter
  if letter ≠ '/' && fs.isDirectory directory then
    ((fs.names directory).filterMap (widthOfName mode)).foldr insertWidth []
  else []

/-- The widths of a letter, remembered from the first time on. -/
def availableWidths (fs : FileSystem) (letters : List Char) (letter : Char) (mode : Nat) :
    Fetch WidthCache (List Nat) := do
  match (← get).lookup (letter, mode) with
  | some widths => pure widths
  | none =>
    let widths := findWidths fs letters letter mode
    modify (((letter, mode), widths) :: ·)
    pure widths

def letterWidths (fs : FileSystem) (letters : List Char) (mode : Nat) (letter : Char) :
    Fetch WidthCache (List Nat) := do
  let widths ← availableWidths fs letters letter mode
  if widths.isEmpty then throw (.user (.layout (.unknownLetter letter))) else pure widths

def loadLetter (fs : FileSystem) (letters : List Char) (mode : Nat) (letter : Char) (width : Nat) :
    Except RenderError Image :=
  let path := letterFile letters letter mode width
  if fs.isFile path then fs.readImage path
  else .error (.user (.assetMissing ("letter " ++ letter.toString) (String.ofList path)))

structure Line where
  layout : LineLayout
  letters : List Image

def setLine (fs : FileSystem) (letters : List Char) (mode : LetterMode) (word line : List Char) :
    Fetch WidthCache Line := do
  let choices ← line.mapM (letterWidths fs letters mode.letters)
  match LineLayout.best? choices mode.target with
  | none => throw (.user (.layout (.tooLong (String.ofList word))))
  | some layout =>
    let images ← (line.zip layout.widths).mapM fun (letter, width) =>
      liftM (loadLetter fs letters mode.letters letter width)
    pure ⟨layout, images⟩

def greatestHeight (images : List Image) : Nat := (images.map Raster.height).foldl max 0

/-- Letters and their widths, set from a column on with a spacing between them. -/
def columnsFrom (spacing : Nat) : Nat → List (Image × Nat) → List (Nat × Image)
  | _, [] => []
  | column, (letter, width) :: rest =>
    (column, letter) :: columnsFrom spacing (column + width + spacing) rest

def lineColumns (line : Line) : List (Nat × Image) :=
  columnsFrom line.layout.spacing ((tileSize - line.layout.total) / 2)
    (line.letters.zip line.layout.widths)

def topRow (lines : List Line) : Nat :=
  let last := (lines.getLast?.map fun line => greatestHeight line.letters).getD 0
  (tileSize - (linePitch * (lines.length - 1) + last)) / 2

def composeLines (lines : List Line) : Image :=
  let top := topRow lines
  lines.zipIdx.foldl
    (fun tile (line, row) =>
      (lineColumns line).foldl
        (fun tile (column, letter) => tile.blit letter column (top + row * linePitch : Nat)) tile)
    (Raster.filled tileSize tileSize Rgba.transparent)

def renderText (fs : FileSystem) (letters word : List Char) : Fetch WidthCache Image := do
  let lines := splitLines word
  if lines.isEmpty || word.isEmpty then throw (.user (.layout .noLetters))
  let mode := letterMode lines
  let set ← lines.mapM (setLine fs letters mode word)
  pure (composeLines set)

end IsoScene.Glyph
