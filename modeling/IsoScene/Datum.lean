import IsoScene.Binary64.Basic

/-! # Structured data

What files of structured data hold, whatever their notation. Reading such a file takes two steps:
its text is read as a datum, and the datum is read as what the file is about.

* `Datum` — nested lists and tables of texts, numbers and truth values.
* `Datum.Fields` — the entries that a record is read from.
* `readBoolean`, `readInteger`, `readText` — typed reading, which may refuse.
-/

namespace IsoScene

inductive Datum where
  | null
  | boolean (value : Bool)
  | integer (value : Int)
  | real (value : Binary64)
  | text (value : String)
  | list (items : List Datum)
  | table (entries : List (String × Datum))
  /-- A value that is well formed but cannot be taken in, such as a number beyond all bounds. It
  does no harm where nobody reads it. -/
  | illegible
deriving Inhabited, Repr

namespace Datum

def readBoolean : Datum → Option Bool
  | boolean value => some value
  | _ => none

/-- Reads a whole number between two limits. -/
def readInteger (least greatest : Int) : Datum → Option Int
  | integer value => if least ≤ value ∧ value ≤ greatest then some value else none
  | _ => none

/-- Reads a whole number that is not negative, up to a limit. -/
def readNatural (greatest : Nat) (datum : Datum) : Option Nat :=
  (datum.readInteger 0 greatest).map Int.toNat

def readText : Datum → Option String
  | text value => some value
  | _ => none

/-! ## Records -/

abbrev Fields := List (String × Datum)

def distinct : List String → Bool
  | [] => true
  | key :: rest => !rest.contains key && distinct rest

/-- The fields of a record with the given keys. A table gives them by name; it may have other
entries, but no known key twice. A list gives them in order, up to some of the last ones; whether
it may be longer depends on the notation. -/
def fields? (keys : List String) (allowSurplus : Bool) : Datum → Option Fields
  | table entries =>
    let known := entries.filter fun entry => keys.contains entry.1
    if distinct (known.map (·.1)) then some known else none
  | list items =>
    if allowSurplus || items.length ≤ keys.length then some (keys.zip items) else none
  | _ => none

/-- Reads one field of a record; if it is not given it has its default. -/
def Fields.read {α : Type} (fields : Fields) (key : String) (default : α)
    (reader : Datum → Option α) : Option α :=
  match fields.lookup key with
  | none => some default
  | some datum => reader datum

end Datum

end IsoScene
