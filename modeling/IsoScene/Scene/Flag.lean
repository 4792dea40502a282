import IsoScene.Error
import IsoScene.Scene.Basic
import IsoScene.Scene.Cell
import IsoScene.Text.Pattern

/-! # Flags in scene text

A flag is a word of the form `-key`, `--key`, `-key=value` or `--key=value`. Flags may stand
anywhere; they are taken out before the grid is read, and a line that held nothing else goes
with them, so that it does not shift the grid.

* `flagPattern` — what a flag looks like.
* `Flags.set` — what a flag does; unknown keys do nothing.
* `LineScan.next` — one occurrence of the pattern in a line; it is a flag if it is a whole word.
* `Flags.extract` — the flags of a whole text, and the text without them.
-/

namespace IsoScene

open Text (Pattern)

structure FlagWord where
  key : List Char
  value : Option (List Char)
deriving DecidableEq, Repr

def isKeyChar (c : Char) : Bool := c != '=' && !Text.isBlank c

def isValueChar (c : Char) : Bool := !Text.isBlank c

/-- One or two dashes and a key, and, if there is one, an equals sign and a value. -/
def flagPattern : Pattern :=
  .sequence (.char (· == '-')) <| .sequence (.option (.char (· == '-'))) <|
    .sequence (.group 1 (.run isKeyChar)) <|
      .option (.sequence (.char (· == '=')) (.group 2 (.run isValueChar)))

/-- The flag that a match of the pattern is. -/
def FlagWord.ofMatch (m : Text.Match) : FlagWord := ⟨(m.group? 1).getD [], m.group? 2⟩

namespace Flags

def set (flags : Flags) (flag : FlagWord) : Except UserError Flags :=
  let key := String.ofList flag.key
  if key = "ground" ∨ key = "g" then
    match flag.value with
    | none => .error (.argument .groundWithoutTile)
    | some value =>
      .ok { flags with
        defaultGround := String.ofList (expandName (Text.unescape value))
        groundIsExplicit := true }
  else if key = "bg" ∨ key = "background" then
    match flag.value with
    | none => .error (.argument .backgroundWithoutColor)
    | some value =>
      match Rgba.parse value with
      | .ok color => .ok { flags with background := color }
      | .error cause => .error (.argument (.badBackground (String.ofList value) cause))
  else .ok flags

end Flags

/-! ## Lines -/

/-- What has been read of a line: the flags so far, the text that stays, and how many characters
of the line these two account for. -/
structure LineScan where
  flags : Flags
  kept : List Char
  cursor : Nat
  foundFlag : Bool

namespace LineScan

def start (flags : Flags) : LineScan := ⟨flags, [], 0, false⟩

/-- A blank or the end of the line is at both sides of the occurrence. -/
def isWord (line : List Char) (o : Pattern.Occurrence) : Bool :=
  (line.take o.start).getLast?.all Text.isBlank && (line.drop o.stop).head?.all Text.isBlank

/-- Reads up to the end of an occurrence of the flag pattern. -/
def next (line : List Char) (scan : LineScan) (o : Pattern.Occurrence) :
    Except UserError LineScan :=
  if isWord line o then do
    let flags ← scan.flags.set (FlagWord.ofMatch o.found)
    .ok ⟨flags, scan.kept ++ (line.take o.start).drop scan.cursor, o.stop, true⟩
  else .ok scan

def remaining (line : List Char) (scan : LineScan) : List Char :=
  scan.kept ++ line.drop scan.cursor

end LineScan

namespace Flags

/-- Reads the flags of a line. The line stays, without its flags, unless nothing but flags was in
it. -/
def extractLine (flags : Flags) (line : List Char) : Except UserError (Flags × Option (List Char)) :=
  do
    let scan ← (flagPattern.occurrences line).foldlM (LineScan.next line) (LineScan.start flags)
    let remaining := scan.remaining line
    let isUsedUp := scan.foundFlag && remaining.all Text.isBlank
    .ok (scan.flags, if isUsedUp then none else some remaining)

def extractLines (flags : Flags) : List (List Char) → Except UserError (Flags × List (List Char))
  | [] => .ok (flags, [])
  | line :: rest => do
    let (flags, kept) ← flags.extractLine line
    let (flags, others) ← flags.extractLines rest
    .ok (flags, kept.toList ++ others)

/-- Reads the flags of a text, starting from defaults, and takes them out of the text. -/
def extract (defaults : Flags) (text : List Char) : Except UserError (Flags × List Char) := do
  let (flags, lines) ← defaults.extractLines (Text.lines text)
  .ok (flags, Text.joinWith '\n' lines)

end Flags

end IsoScene
