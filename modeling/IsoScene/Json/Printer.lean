import IsoScene.Binary64.Shortest
import IsoScene.Datum

/-! # Writing JSON

`Json.pretty` writes a datum as JSON with an indentation of two blanks a level. Numbers that are
not finite have no JSON form and are written as `null`. Layout, escapes and numbers are those of the
package `serde_json` 1.0.
-/

namespace IsoScene.Json

def controlDigits (n : Nat) : List Char := [Nat.digitChar (n / 16), Nat.digitChar (n % 16)]

def quoteChar (c : Char) : List Char :=
  match c with
  | '"' => ['\\', '"']
  | '\\' => ['\\', '\\']
  | '\x08' => ['\\', 'b']
  | '\x0c' => ['\\', 'f']
  | '\n' => ['\\', 'n']
  | '\r' => ['\\', 'r']
  | '\t' => ['\\', 't']
  | _ => if c.toNat < 0x20 then "\\u00".toList ++ controlDigits c.toNat else [c]

def quote (s : String) : List Char := '"' :: s.toList.flatMap quoteChar ++ ['"']

def newLine (level : Nat) : List Char := '\n' :: List.replicate (2 * level) ' '

/-- A bracketed sequence of written items, each on a line of its own. -/
def bracket (opening closing : Char) (level : Nat) (items : List (List Char)) : List Char :=
  if items.isEmpty then [opening, closing]
  else
    let lines := items.map fun item => newLine (level + 1) ++ item
    opening :: (List.intercalate [','] lines) ++ newLine level ++ [closing]

def prettyAt (level : Nat) : Datum → List Char
  | .null => "null".toList
  | .boolean value => (if value then "true" else "false").toList
  | .integer value => (toString value).toList
  | .real value => value.text?.getD "null".toList
  | .text value => quote value
  | .list items =>
    bracket '[' ']' level (items.attach.map fun ⟨item, _⟩ => prettyAt (level + 1) item)
  | .table entries =>
    bracket '{' '}' level
      (entries.attach.map fun ⟨(key, datum), _⟩ =>
        quote key ++ ": ".toList ++ prettyAt (level + 1) datum)
  | .illegible => "null".toList
termination_by datum => sizeOf datum
decreasing_by
  · have := List.sizeOf_lt_of_mem ‹_ ∈ items›
    simp only [Datum.list.sizeOf_spec]
    omega
  · have := List.sizeOf_lt_of_mem ‹_ ∈ entries›
    simp only [Datum.table.sizeOf_spec, Prod.mk.sizeOf_spec] at *
    omega

def pretty (datum : Datum) : String := String.ofList (prettyAt 0 datum)

end IsoScene.Json
