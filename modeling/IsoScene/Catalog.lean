import IsoScene.Json.Reader
import IsoScene.Tile

/-! # The catalog of tiles

The catalog says for every tile name how it is drawn. It is written as a JSON object from names to
records with the keys `dir`, `ground`, `frames`, `unit` and `source`, all of them optional.

* `Catalog` — names with their metadata.
* `Catalog.ofText?` — reads a catalog.
-/

namespace IsoScene

structure Catalog where
  entries : List (String × TileMetadata)

namespace Catalog

def lookup (catalog : Catalog) (name : String) : Option TileMetadata := catalog.entries.lookup name

def size (catalog : Catalog) : Nat := catalog.entries.length

/-- The catalog with one more tile, in place of the one that has its name. -/
def insert (catalog : Catalog) (name : String) (metadata : TileMetadata) : Catalog :=
  ⟨(name, metadata) :: catalog.entries.filter (·.1 ≠ name)⟩

/-- The catalog of some entries; of those with one name the last counts. -/
def ofEntries (entries : List (String × TileMetadata)) : Catalog :=
  entries.foldl (fun catalog entry => catalog.insert entry.1 entry.2) ⟨[]⟩

def keys : List String := ["dir", "ground", "frames", "unit", "source"]

def readSource : Datum → Option (Option String)
  | .null => some none
  | datum => datum.readText.map some

/-- Reads the record of one tile. Tiles without a source are in the given directory. -/
def readTile (root : String) (datum : Datum) : Option TileMetadata := do
  let fields ← datum.fields? keys false
  let directional ← fields.read "dir" false Datum.readBoolean
  let groundHeight ← fields.read "ground" 0 (Datum.readInteger Text.minInt32 Text.maxInt32)
  let frames ← fields.read "frames" 1 (Datum.readNatural Text.maxNat32)
  let unit ← fields.read "unit" false Datum.readBoolean
  let source ← fields.read "source" none readSource
  some ⟨directional, groundHeight, max frames 1, unit, source.getD root⟩

def ofDatum? (root : String) : Datum → Option Catalog
  | .table entries =>
    (entries.mapM fun entry => (readTile root entry.2).map fun tile => (entry.1, tile)).map
      ofEntries
  | _ => none

def ofText? (root : String) (text : List Char) : Option Catalog :=
  (Json.read text).bind (ofDatum? root)

end Catalog

end IsoScene
