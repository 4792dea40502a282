import IsoScene.Proofs.Scene.Places

/-! # What tiles carry along

A tile carries a copy of its metadata. Variants move and turn a tile and may toggle its outline, but
they leave its name and all that decides where its sprites are. So every tile of a scene is still
described by the catalog that the scene was read with (`describes_of_mem_ofText`).
-/

namespace IsoScene

/-- Metadata without the outline, which the variants of a tile may toggle. -/
def TileMetadata.withoutOutline (metadata : TileMetadata) : TileMetadata :=
  { metadata with unit := false }

/-- The metadata of the tile is what the catalog says about its name, or else that of a text, apart
from the outline. A text tile may carry any metadata, since it has no files of its own. -/
def TileLookup.Describes (lookup : TileLookup) (tile : Tile) : Prop :=
  tile.word? = none →
    tile.metadata.withoutOutline = ((lookup tile.name).getD TileMetadata.text).withoutOutline

theorem Tile.kept_of_resolveGeometry {tile moved : Tile}
    (resolved : tile.resolveGeometry = .ok moved) :
    moved.name = tile.name ∧ moved.metadata.withoutOutline = tile.metadata.withoutOutline := by
  rw [resolveGeometry] at resolved
  obtain ⟨⟨turned, left⟩, pass, ⟨⟩⟩ := bind_eq_ok_iff.mp resolved
  have name : turned.name = tile.name :=
    applyVariants_keeps (·.name) (fun _ effect => by cases effect <;> rfl) pass
  have metadata : turned.metadata.withoutOutline = tile.metadata.withoutOutline :=
    applyVariants_keeps (·.metadata.withoutOutline) (fun _ effect => by cases effect <;> rfl) pass
  exact ⟨name, metadata⟩

namespace TileLookup

variable {lookup : TileLookup}

/-- A name that is not that of a text has the metadata that the catalog lists. -/
theorem metadata?_of_word_eq_none {tile : Tile} {metadata : TileMetadata}
    (found : lookup.metadata? tile.name = some metadata) (shown : tile.word? = none) :
    lookup tile.name = some metadata := by
  have noText : ¬ "text_".toList.isPrefixOf tile.name.toList = true := by
    intro isText
    simp only [Tile.word?, isText, if_true, reduceCtorEq] at shown
  rw [metadata?, if_neg noText, Option.or_none] at found
  exact found

theorem exists_metadata_of_mem_ofText {flags : Flags} {text : List Char} {scene : Scene}
    (read : Scene.ofText lookup flags text = .ok scene) {tile : Tile}
    (member : tile ∈ scene.tiles) :
    ∃ metadata, lookup.metadata? tile.name = some metadata ∧
      tile.metadata.withoutOutline = metadata.withoutOutline := by
  -- The tile has been made with the metadata of its name, and then moved.
  obtain ⟨position, cell, -, placed⟩ := exists_stands_of_mem_ofText read member
  obtain ⟨named, metadata, -, found, resolved⟩ := exists_cell_of_placeCell placed
  obtain ⟨name, kept⟩ := Tile.kept_of_resolveGeometry resolved
  exact ⟨metadata, by rw [name]; exact found, kept⟩

/-- Whatever is read from a text, the catalog describes it. -/
theorem describes_of_mem_ofText {flags : Flags} {text : List Char} {scene : Scene}
    (read : Scene.ofText lookup flags text = .ok scene) {tile : Tile}
    (member : tile ∈ scene.tiles) : lookup.Describes tile := by
  intro shown
  obtain ⟨metadata, found, kept⟩ := exists_metadata_of_mem_ofText read member
  rw [kept, metadata?_of_word_eq_none found shown]
  rfl

end TileLookup

end IsoScene
