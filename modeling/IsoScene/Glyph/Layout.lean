import IsoScene.Text.Integer

/-! # Laying out words

A word is shown on one tile, in one line or two. Every letter is drawn in several widths; the
layout of a line takes a width for each letter and a spacing such that the line is as near as
possible to the width that looks best.

* `splitLines`, `letterMode` — the lines of a word and the kind of letters that they are set in.
* `Width` — arithmetic on widths, which are numbers of 32 bits.
* `LineLayout.best?` — the best layout of a line that fits a tile.
-/

namespace IsoScene.Glyph

def tileSize : Nat := 24

def linePitch : Nat := 12

/-- The spacings between letters, in the order of preference. -/
def spacings : List Nat := [2, 1]

structure LetterMode where
  letters : Nat
  target : Nat
deriving DecidableEq, Repr

/-- Big letters, for one or two of them. -/
def LetterMode.short : LetterMode := ⟨2, 20⟩

/-- Letters for a single longer line. -/
def LetterMode.long : LetterMode := ⟨3, 22⟩

/-- Small letters, for two lines. -/
def LetterMode.stacked : LetterMode := ⟨4, 22⟩

def splitSlash : List Char → Option (List Char × List Char)
  | [] => none
  | '/' :: rest => some ([], rest)
  | c :: rest => (splitSlash rest).map fun (top, bottom) => (c :: top, bottom)

/-- The lines of a word. A slash separates them, and lines without letters are dropped; without a
slash, a word of more than three letters is cut in the middle, the longer half on top. -/
def splitLines (word : List Char) : List (List Char) :=
  match splitSlash word with
  | some (top, bottom) => [top, bottom].filter (!·.isEmpty)
  | none =>
    if 3 < word.length then
      let middle := (word.length + 1) / 2
      [word.take middle, word.drop middle]
    else [word]

/-- The letters that some lines are set in. -/
def letterMode : List (List Char) → LetterMode
  | [line] => if line.length ≤ 2 then .short else .long
  | _ => .stacked

/-! ## Arithmetic -/

/-- Arithmetic without a place for its result among the numbers of 32 bits. -/
inductive Overflow where
  | difference
  | product
deriving DecidableEq, Repr

namespace Width

/-- A sum. It stays at the greatest number if it would exceed it. -/
def add (a b : Nat) : Nat := min (a + b) Text.maxNat32

def sub (a b : Nat) : Except Overflow Nat := if b ≤ a then .ok (a - b) else .error .difference

def mul (a b : Nat) : Except Overflow Nat :=
  if a * b ≤ Text.maxNat32 then .ok (a * b) else .error .product

/-- The number of a list's items, as far as it is kept in 32 bits. -/
def count {α : Type} (items : List α) : Nat := items.length % (Text.maxNat32 + 1)

end Width

/-! ## Layouts -/

/-- A width for every letter of a line, the spacing between them, and the width of the line. -/
structure LineLayout where
  widths : List Nat
  spacing : Nat
  total : Nat
deriving DecidableEq, Repr

namespace LineLayout

/-- How far a width is from the one aimed at. -/
def distance (target total : Nat) : Nat := (total - target) + (target - total)

/-- Keeps the better of two layouts, and the first of two that are equally good. -/
def better (target : Nat) (best : Option LineLayout) (layout : LineLayout) : Option LineLayout :=
  match best with
  | none => some layout
  | some other =>
    if distance target layout.total < distance target other.total then some layout else best

def leastWidth : List Nat → Nat
  | [] => 0
  | width :: rest => rest.foldl min width

/-- The width that some letters take at least. -/
def leastTotal (choices : List (List Nat)) : Nat :=
  choices.foldr (fun widths total => Width.add total (leastWidth widths)) 0

/-- Tries every choice of widths for the letters that are left, the first letter slowest. A choice
that cannot fit the tile any more is not followed. `used` is the width taken so far, with all the
spacing, and `chosen` holds the widths taken so far, last one first. -/
def search (target spacing : Nat) :
    List (List Nat) → Nat → List Nat → Option LineLayout → Option LineLayout
  | [], used, chosen, best => better target best ⟨chosen.reverse, spacing, used⟩
  | widths :: rest, used, chosen, best =>
    let least := leastTotal rest
    widths.foldl
      (fun best width =>
        let used := Width.add used width
        if tileSize < Width.add used least then best
        else search target spacing rest used (width :: chosen) best)
      best

/-- Searches with every spacing. Nothing is searched if the narrowest letters do not fit. -/
def searchAll (choices : List (List Nat)) (target : Nat) : Except Overflow (Option LineLayout) :=
  if choices.isEmpty || choices.any List.isEmpty then .ok none
  else do
    let gaps ← Width.sub (Width.count choices) 1
    if tileSize < Width.add (leastTotal choices) gaps then .ok none
    else
      spacings.foldlM
        (fun best spacing => do
          let used ← Width.mul spacing gaps
          .ok (search target spacing choices used [] best))
        none

/-- The layout nearest to the target among those that fit the tile. Ties go to the spacing that is
tried first, and then to the first choice of widths. -/
def best? (choices : List (List Nat)) (target : Nat) : Option LineLayout :=
  match searchAll choices target with
  | .ok best => best
  | .error _ => none

end LineLayout

end IsoScene.Glyph
