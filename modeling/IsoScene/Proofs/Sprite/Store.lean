import IsoScene.Proofs.Glyph.Alphabet
import IsoScene.Proofs.Scene.Described
import IsoScene.Sprite.Store

/-! # What the store remembers

While the files stay as they are, everything that the store remembers is what it would find now:
`SpriteCache.IsSound`. Every request keeps it so and hence has one answer, that of a store which
remembers nothing (`sprite_answers`, `palette_answers`, `plate_answers`).

A sprite is remembered by name, frame and orientation alone. That is enough where the metadata of a
tile follows from its name, `TileLookup.Describes`; then tiles with one key have one file
(`loaded_congr`).
-/

namespace IsoScene

open Fetch (Agree Answers)

/-! ## Letters -/

namespace Glyph

variable {fs : FileSystem} {letters : List Char}

/-- The remembered widths are those that the letters have. -/
def WidthCache.IsSound (fs : FileSystem) (letters : List Char) (cache : WidthCache) : Prop :=
  ∀ letter mode widths, cache.lookup (letter, mode) = some widths →
    widths = findWidths fs letters letter mode

theorem isSound_nil : WidthCache.IsSound fs letters [] := by
  simp [WidthCache.IsSound]

theorem WidthCache.IsSound.cons {cache : WidthCache} (sound : WidthCache.IsSound fs letters cache)
    (letter : Char) (mode : Nat) :
    WidthCache.IsSound fs letters
      (((letter, mode), findWidths fs letters letter mode) :: cache) := by
  intro other otherMode widths found
  by_cases same : (other, otherMode) = (letter, mode)
  · obtain ⟨rfl, rfl⟩ := Prod.mk.inj same
    simpa [List.lookup_cons] using found.symm
  · refine sound other otherMode widths ?_
    rw [List.lookup_cons, beq_false_of_ne same] at found
    exact found

theorem availableWidths_eq (letter : Char) (mode : Nat) :
    availableWidths fs letters letter mode =
      Fetch.remembered (·.lookup (letter, mode)) (pure (findWidths fs letters letter mode))
        fun widths cache => ((letter, mode), widths) :: cache := by
  simp only [availableWidths, Fetch.remembered, pure_bind]
  congr 1
  funext cache
  cases cache.lookup (letter, mode) <;> rfl

theorem availableWidths_answers (letter : Char) (mode : Nat) :
    Answers (WidthCache.IsSound fs letters) (availableWidths fs letters letter mode)
      (.ok (findWidths fs letters letter mode)) := by
  rw [availableWidths_eq]
  refine (Answers.pure _).remembered ?_ ?_
  · intro cache widths sound found
    rw [sound letter mode widths found]
  · rintro cache widths sound ⟨⟩
    exact sound.cons letter mode

/-- A word is drawn as if nothing were remembered. -/
theorem renderText_answers_ofFiles (word : List Char) :
    Answers (WidthCache.IsSound fs letters) (renderText fs letters word)
      ((Alphabet.ofFiles fs letters).tile word) :=
  Alphabet.renderText_answers
    ⟨fun letter _ => availableWidths_answers letter (wordMode word), fun _ _ => rfl⟩

end Glyph

/-! ## Sprites -/

namespace SpriteStore

variable {layout : StoreLayout} {fs : FileSystem} {lookup : TileLookup}

/-- What a store that remembers nothing loads for a tile. -/
def loaded (layout : StoreLayout) (fs : FileSystem) (tile : Tile) (key : SpriteKey) :
    Except RenderError Image :=
  ((loadSprite layout fs tile key).answer .empty).1

end SpriteStore

/-- Everything that the cache holds is what the store would find now. -/
structure SpriteCache.IsSound (layout : StoreLayout) (fs : FileSystem) (lookup : TileLookup)
    (cache : SpriteCache) : Prop where
  widths : Glyph.WidthCache.IsSound fs layout.letters cache.widths
  palette : ∀ image, cache.palette = some image →
    SpriteStore.loadPicture fs "palette" layout.palette = .ok image
  plate : ∀ image, cache.plate = some image →
    SpriteStore.loadPicture fs "property plate" layout.plate = .ok image
  sprites : ∀ tile wobble image, lookup.Describes tile →
    cache.sprites.lookup (SpriteKey.ofTile tile wobble) = some image →
      SpriteStore.loaded layout fs tile (SpriteKey.ofTile tile wobble) = .ok image

namespace SpriteStore

variable {layout : StoreLayout} {fs : FileSystem} {lookup : TileLookup}

theorem isSound_empty : SpriteCache.empty.IsSound layout fs lookup where
  widths := Glyph.isSound_nil
  palette := nofun
  plate := nofun
  sprites := nofun

theorem agree_withWidths {α : Type} {request : Fetch Glyph.WidthCache α}
    (agree : Agree (Glyph.WidthCache.IsSound fs layout.letters) request request) :
    Agree (SpriteCache.IsSound layout fs lookup) (withWidths request) (withWidths request) := by
  obtain ⟨outcome, answers, -⟩ := agree
  have lifted : Answers (SpriteCache.IsSound layout fs lookup) (withWidths request) outcome := by
    intro cache sound
    obtain ⟨answered, after⟩ := answers cache.widths sound.widths
    exact ⟨answered, { sound with widths := after }⟩
  exact lifted.agree

theorem loadSprite_answers (tile : Tile) (key : SpriteKey) :
    Answers (SpriteCache.IsSound layout fs lookup) (loadSprite layout fs tile key)
      (loaded layout fs tile key) := by
  refine Agree.answers ?_ isSound_empty
  unfold loadSprite
  split
  · exact agree_withWidths (Glyph.renderText_answers_ofFiles _).agree
  · exact .lift _

theorem path_withoutOutline (key : SpriteKey) (metadata : TileMetadata) (directory : String) :
    key.path metadata.withoutOutline directory = key.path metadata directory := rfl

/-- A key and the name of a tile determine the sprite. -/
theorem loaded_congr {tile other : Tile} (described : lookup.Describes tile)
    (describedOther : lookup.Describes other) (same : tile.name = other.name) (key : SpriteKey) :
    loaded layout fs tile key = loaded layout fs other key := by
  have sameWord : tile.word? = other.word? := by rw [Tile.word?, Tile.word?, same]
  rw [loaded, loaded, loadSprite, loadSprite, ← sameWord]
  cases shown : tile.word? with
  | some word => rfl
  | none =>
    -- Without a word the sprite is a file, and its path follows from what the catalog says.
    have metadata : tile.metadata.withoutOutline = other.metadata.withoutOutline := by
      rw [described shown, describedOther (sameWord ▸ shown), same]
    dsimp only
    rw [← path_withoutOutline key tile.metadata, metadata, path_withoutOutline, same]

theorem palette_eq : palette layout fs =
    Fetch.remembered (·.palette) (liftM (loadPicture fs "palette" layout.palette))
      fun image cache => { cache with palette := some image } := by
  simp only [palette, Fetch.remembered]
  congr 1
  funext cache
  cases cache.palette <;> rfl

theorem plate_eq : plate layout fs =
    Fetch.remembered (·.plate) (liftM (loadPicture fs "property plate" layout.plate))
      fun image cache => { cache with plate := some image } := by
  simp only [plate, Fetch.remembered]
  congr 1
  funext cache
  cases cache.plate <;> rfl

theorem sprite_eq (tile : Tile) (wobble : Nat) :
    sprite layout fs tile wobble =
      if placeholders.contains tile.name then pure none
      else
        let key := SpriteKey.ofTile tile wobble
        some <$> Fetch.remembered (·.sprites.lookup key) (loadSprite layout fs tile key)
          fun image cache => { cache with sprites := (key, image) :: cache.sprites } := by
  unfold sprite Fetch.remembered
  split
  · rfl
  · simp only [map_bind]
    congr 1
    funext cache
    cases cache.sprites.lookup (SpriteKey.ofTile tile wobble) <;> simp

theorem palette_answers : Answers (SpriteCache.IsSound layout fs lookup) (palette layout fs)
    (loadPicture fs "palette" layout.palette) := by
  rw [palette_eq]
  refine (Answers.lift _).remembered (fun cache image sound => sound.palette image) ?_
  intro cache image sound found
  exact { sound with palette := by rintro _ ⟨⟩; exact found }

theorem plate_answers : Answers (SpriteCache.IsSound layout fs lookup) (plate layout fs)
    (loadPicture fs "property plate" layout.plate) := by
  rw [plate_eq]
  refine (Answers.lift _).remembered (fun cache image sound => sound.plate image) ?_
  intro cache image sound found
  exact { sound with plate := by rintro _ ⟨⟩; exact found }

/-- The sprite of a tile, or none if its name stands for no tile. -/
def spriteNow (layout : StoreLayout) (fs : FileSystem) (tile : Tile) (wobble : Nat) :
    Except RenderError (Option Image) :=
  if placeholders.contains tile.name then .ok none
  else (loaded layout fs tile (SpriteKey.ofTile tile wobble)).map some

theorem sprite_answers {tile : Tile} (described : lookup.Describes tile) (wobble : Nat) :
    Answers (SpriteCache.IsSound layout fs lookup) (sprite layout fs tile wobble)
      (spriteNow layout fs tile wobble) := by
  rw [sprite_eq, spriteNow]
  split
  · exact .pure none
  · refine Answers.map some ((loadSprite_answers tile _).remembered ?_ ?_)
    · intro cache image sound found
      exact sound.sprites tile wobble image described found
    · intro cache image sound made
      refine { sound with sprites := ?_ }
      intro other otherWobble found describedOther remembered
      by_cases same : SpriteKey.ofTile other otherWobble = SpriteKey.ofTile tile wobble
      · -- The other tile has the key that has just been remembered, so it has the same sprite.
        obtain rfl : image = found := by simpa [List.lookup_cons, same] using remembered
        have names : other.name = tile.name := congrArg SpriteKey.name same
        rw [same, loaded_congr describedOther described names, made]
      · rw [List.lookup_cons, beq_false_of_ne same] at remembered
        exact sound.sprites other otherWobble found describedOther remembered

end SpriteStore

end IsoScene
