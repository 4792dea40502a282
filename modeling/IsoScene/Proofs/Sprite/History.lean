import IsoScene.Proofs.Sprite.Store
import Mathlib.Data.Finset.Card

/-! # A store while the files change

A store is asked for bitmaps one after another, and the files may change in any way between two
requests. `History` keeps what the requests have found so far, beside the cache that they leave.

The cache remembers exactly what has been found (`History.IsFaithful`): a step keeps this
(`IsFaithful.step`), so it holds after every history (`isFaithful_historyOf`). Hence what was found
once is answered for ever, and what was not is looked for among the files as they are now
(`respond_after`).
-/

namespace IsoScene

/-! ## Assets -/

/-- What a bitmap is remembered under. -/
inductive Asset where
  | palette
  | plate
  | sprite (key : SpriteKey)
deriving DecidableEq

def Asset.key? : Asset → Option SpriteKey
  | .sprite key => some key
  | _ => none

namespace SpriteCache

def held? (cache : SpriteCache) : Asset → Option Image
  | .palette => cache.palette
  | .plate => cache.plate
  | .sprite key => cache.sprites.lookup key

def keep (asset : Asset) (image : Image) (cache : SpriteCache) : SpriteCache :=
  match asset with
  | .palette => { cache with palette := some image }
  | .plate => { cache with plate := some image }
  | .sprite key => { cache with sprites := (key, image) :: cache.sprites }

/-- The caches hold the same bitmaps. They may differ in the widths of letters. -/
structure HoldsSame (cache other : SpriteCache) : Prop where
  sprites : cache.sprites = other.sprites
  palette : cache.palette = other.palette
  plate : cache.plate = other.plate

theorem HoldsSame.refl (cache : SpriteCache) : cache.HoldsSame cache := ⟨rfl, rfl, rfl⟩

theorem HoldsSame.held_eq {cache other : SpriteCache} (same : cache.HoldsSame other)
    (asset : Asset) : cache.held? asset = other.held? asset := by
  cases asset with
  | palette => exact same.palette
  | plate => exact same.plate
  | sprite key => rw [SpriteCache.held?, same.sprites, SpriteCache.held?]

theorem mem_map_fst_iff {cache : SpriteCache} {key : SpriteKey} :
    key ∈ cache.sprites.map Prod.fst ↔ ∃ image, cache.held? (.sprite key) = some image := by
  rw [held?, ← Option.isSome_iff_exists, List.lookup_isSome_iff]
  simp

theorem held_keep (asset other : Asset) (image : Image) (cache : SpriteCache) :
    (cache.keep asset image).held? other =
      if other = asset then some image else cache.held? other := by
  cases asset <;> cases other <;> simp [keep, held?, List.lookup_cons, beq_eq_decide]
  split <;> simp_all

end SpriteCache

namespace SpriteStore

/-! ## Requests -/

inductive Request where
  | palette
  | plate
  | sprite (tile : Tile) (wobble : Nat)

namespace Request

/-- What the answer is remembered under. A placeholder has no bitmap. -/
def asset? : Request → Option Asset
  | .palette => some .palette
  | .plate => some .plate
  | .sprite tile wobble =>
    if placeholders.contains tile.name then none else some (.sprite (SpriteKey.ofTile tile wobble))

def isForWord : Request → Bool
  | .sprite tile _ => tile.word?.isSome
  | _ => false

end Request

variable {layout : StoreLayout} {fs : FileSystem}

def respond (layout : StoreLayout) (fs : FileSystem) : Request → Fetch SpriteCache (Option Image)
  | .palette => some <$> palette layout fs
  | .plate => some <$> plate layout fs
  | .sprite tile wobble => sprite layout fs tile wobble

/-- What is done for a request if nothing is remembered for it. -/
def make (layout : StoreLayout) (fs : FileSystem) : Request → Fetch SpriteCache Image
  | .palette => liftM (loadPicture fs "palette" layout.palette)
  | .plate => liftM (loadPicture fs "property plate" layout.plate)
  | .sprite tile wobble => loadSprite layout fs tile (SpriteKey.ofTile tile wobble)

theorem respond_of_placeholder {request : Request} (nothing : request.asset? = none) :
    respond layout fs request = pure none := by
  cases request with
  | palette => simp [Request.asset?] at nothing
  | plate => simp [Request.asset?] at nothing
  | sprite tile wobble =>
    by_cases placeholder : placeholders.contains tile.name = true
    · rw [respond, sprite_eq, if_pos placeholder]
    · rw [Request.asset?, if_neg placeholder] at nothing
      simp at nothing

theorem respond_of_asset {request : Request} {asset : Asset}
    (wanted : request.asset? = some asset) :
    respond layout fs request =
      some <$> Fetch.remembered (·.held? asset) (make layout fs request)
        (SpriteCache.keep asset) := by
  cases request with
  | palette =>
    obtain rfl : Asset.palette = asset := Option.some.inj wanted
    rw [respond, palette_eq]
    rfl
  | plate =>
    obtain rfl : Asset.plate = asset := Option.some.inj wanted
    rw [respond, plate_eq]
    rfl
  | sprite tile wobble =>
    by_cases placeholder : placeholders.contains tile.name = true
    · rw [Request.asset?, if_pos placeholder] at wanted
      simp at wanted
    · rw [Request.asset?, if_neg placeholder] at wanted
      obtain rfl : Asset.sprite (SpriteKey.ofTile tile wobble) = asset := Option.some.inj wanted
      rw [respond, sprite_eq, if_neg placeholder]
      rfl

/-- Making a bitmap touches the widths of letters at most. -/
theorem holdsSame_make (layout : StoreLayout) (fs : FileSystem) (request : Request)
    (cache : SpriteCache) : ((make layout fs request).answer cache).2.HoldsSame cache := by
  cases request with
  | palette => exact .refl cache
  | plate => exact .refl cache
  | sprite tile wobble =>
    rw [make, loadSprite]
    split
    · exact ⟨rfl, rfl, rfl⟩
    · exact .refl cache

/-- Without letters the answer does not depend on what the cache holds. -/
theorem answer_make {request : Request} (noWord : request.isForWord = false)
    (cache other : SpriteCache) :
    ((make layout fs request).answer cache).1 = ((make layout fs request).answer other).1 := by
  cases request with
  | palette => rfl
  | plate => rfl
  | sprite tile wobble =>
    have shown : tile.word? = none := by simpa [Request.isForWord] using noWord
    rw [make, loadSprite, shown]
    rfl

theorem answer_respond {request : Request} {asset : Asset} (wanted : request.asset? = some asset)
    (cache : SpriteCache) :
    (respond layout fs request).answer cache =
      match cache.held? asset with
      | some image => (.ok (some image), cache)
      | none =>
        match (make layout fs request).answer cache with
        | (.ok image, after) => (.ok (some image), after.keep asset image)
        | (.error e, after) => (.error e, after) := by
  rw [respond_of_asset wanted, map_eq_pure_bind, Fetch.answer_bind, Fetch.answer_remembered]
  cases cache.held? asset with
  | some image => rfl
  | none =>
    dsimp only
    rcases (make layout fs request).answer cache with ⟨e | image, after⟩ <;> rfl

theorem answer_of_unknown {request : Request} {asset : Asset} {cache : SpriteCache}
    (wanted : request.asset? = some asset) (unknown : cache.held? asset = none) :
    ((respond layout fs request).answer cache).1 =
      ((make layout fs request).answer cache).1.map some := by
  rw [answer_respond wanted, unknown]
  rcases (make layout fs request).answer cache with ⟨e | image, after⟩ <;> rfl

theorem holdsSame_of_error {request : Request} {cache : SpriteCache} {e : RenderError}
    (failed : ((respond layout fs request).answer cache).1 = .error e) :
    ((respond layout fs request).answer cache).2.HoldsSame cache := by
  cases wanted : request.asset? with
  | none => simp [respond_of_placeholder wanted, Fetch.answer_pure] at failed
  | some asset =>
    have made := holdsSame_make layout fs request cache
    rw [answer_respond wanted] at failed ⊢
    cases recalled : cache.held? asset with
    | some image => simp [recalled] at failed
    | none =>
      rw [recalled] at failed
      rcases result : (make layout fs request).answer cache with ⟨e | image, after⟩
      · rw [result] at made
        exact made
      · simp [result] at failed

/-! ## Histories -/

/-- A request, and the files as they are when it is made. -/
structure Event where
  files : FileSystem
  request : Request

/-- What has been found so far, in this order, and the cache that is left. -/
structure History where
  found : List (Asset × Image)
  cache : SpriteCache

namespace History

def start : History := ⟨[], .empty⟩

/-- One request more. A bitmap that is answered for an asset has been found. -/
def step (layout : StoreLayout) (history : History) (event : Event) : History :=
  let (answer, cache) := (respond layout event.files event.request).answer history.cache
  match event.request.asset?, answer with
  | some asset, .ok (some image) => ⟨history.found ++ [(asset, image)], cache⟩
  | _, _ => ⟨history.found, cache⟩

def keys (history : History) : List SpriteKey := history.found.filterMap (·.1.key?)

/-- All that a step can do: it finds nothing and leaves the bitmaps as they are, or it answers what
is remembered, or it remembers what it answers. -/
theorem step_cases (layout : StoreLayout) (history : History) (event : Event) :
    ((history.step layout event).found = history.found ∧
        (history.step layout event).cache.HoldsSame history.cache) ∨
      ∃ asset image, (history.step layout event).found = history.found ++ [(asset, image)] ∧
        (history.cache.held? asset = some image ∧
            (history.step layout event).cache = history.cache ∨
          history.cache.held? asset = none ∧
            ∃ made : SpriteCache, made.HoldsSame history.cache ∧
              (history.step layout event).cache = made.keep asset image) := by
  cases wanted : event.request.asset? with
  | none =>
    refine .inl ?_
    rw [step, respond_of_placeholder wanted, Fetch.answer_pure, wanted]
    exact ⟨rfl, .refl _⟩
  | some asset =>
    have same := holdsSame_make layout event.files event.request history.cache
    rw [step, answer_respond wanted, wanted]
    cases recalled : history.cache.held? asset with
    | some image => exact .inr ⟨asset, image, rfl, .inl ⟨recalled, rfl⟩⟩
    | none =>
      rcases made : (make layout event.files event.request).answer history.cache with
        ⟨e | image, after⟩
      · rw [made] at same
        exact .inl ⟨rfl, same⟩
      · rw [made] at same
        exact .inr ⟨asset, image, rfl, .inr ⟨recalled, after, same, rfl⟩⟩

/-! ## What the cache remembers -/

/-- The cache remembers what has been found, and each sprite once. -/
structure IsFaithful (history : History) : Prop where
  held_iff : ∀ asset image,
    history.cache.held? asset = some image ↔ (asset, image) ∈ history.found
  nodup : (history.cache.sprites.map Prod.fst).Nodup

theorem isFaithful_start : start.IsFaithful where
  held_iff asset image := by
    cases asset <;> simp [start, SpriteCache.held?, SpriteCache.empty]
  nodup := List.nodup_nil

theorem IsFaithful.step {history : History} (faithful : history.IsFaithful) (event : Event) :
    (history.step layout event).IsFaithful := by
  obtain ⟨found, same⟩ | ⟨asset, image, found, ⟨recalled, kept⟩ | ⟨unknown, made, same, kept⟩⟩ :=
    step_cases layout history event
  · -- Letters may have been measured, but no bitmap has been kept.
    refine ⟨?_, by rw [same.sprites]; exact faithful.nodup⟩
    intro other bitmap
    rw [same.held_eq, found, faithful.held_iff]
  · refine ⟨?_, by rw [kept]; exact faithful.nodup⟩
    -- What is found again has been found before.
    have before := (faithful.held_iff asset image).mp recalled
    intro other bitmap
    rw [kept, found, faithful.held_iff, List.mem_append, List.mem_singleton]
    constructor
    · exact .inl
    · rintro (earlier | ⟨rfl, rfl⟩)
      · exact earlier
      · exact before
  · -- The asset is new, so what is kept for it hides nothing.
    have new : ∀ bitmap, (asset, bitmap) ∉ history.found := by
      intro bitmap earlier
      simp [(faithful.held_iff asset bitmap).mpr earlier] at unknown
    refine ⟨?_, ?_⟩
    · intro other bitmap
      rw [kept, found, SpriteCache.held_keep, List.mem_append, List.mem_singleton]
      by_cases this : other = asset
      · subst this
        simp [new, eq_comm]
      · simp [this, same.held_eq, faithful.held_iff]
    · rw [kept]
      cases asset with
      | palette => rw [SpriteCache.keep, same.sprites]; exact faithful.nodup
      | plate => rw [SpriteCache.keep, same.sprites]; exact faithful.nodup
      | sprite key =>
        have notKept : key ∉ history.cache.sprites.map Prod.fst := by
          simp [SpriteCache.mem_map_fst_iff, unknown]
        rw [SpriteCache.keep, same.sprites]
        exact List.nodup_cons.mpr ⟨notKept, faithful.nodup⟩

theorem IsFaithful.mem_keys_iff {history : History} (faithful : history.IsFaithful)
    {key : SpriteKey} : key ∈ history.keys ↔ key ∈ history.cache.sprites.map Prod.fst := by
  simp only [keys, List.mem_filterMap, SpriteCache.mem_map_fst_iff, faithful.held_iff]
  constructor
  · rintro ⟨⟨asset, image⟩, found, named⟩
    cases asset with
    | palette => simp [Asset.key?] at named
    | plate => simp [Asset.key?] at named
    | sprite other =>
      obtain rfl : other = key := Option.some.inj named
      exact ⟨image, found⟩
  · rintro ⟨image, found⟩
    exact ⟨_, found, rfl⟩

theorem IsFaithful.length_sprites {history : History} (faithful : history.IsFaithful) :
    history.cache.sprites.length = history.keys.toFinset.card := by
  have same : history.keys.toFinset = (history.cache.sprites.map Prod.fst).toFinset := by
    ext key
    rw [List.mem_toFinset, List.mem_toFinset, faithful.mem_keys_iff]
  rw [same, List.toFinset_card_of_nodup faithful.nodup, List.length_map]

end History

/-- The history of some requests to a store that is new at first. -/
def historyOf (layout : StoreLayout) (events : List Event) : History :=
  events.foldl (History.step layout) .start

theorem isFaithful_historyOf (events : List Event) : (historyOf layout events).IsFaithful := by
  -- The store is new at first only, so the induction starts at any faithful history.
  suffices later : ∀ history : History, history.IsFaithful →
      (events.foldl (History.step layout) history).IsFaithful from later _ History.isFaithful_start
  induction events with
  | nil => exact fun _ faithful => faithful
  | cons event events ih => exact fun history faithful => ih _ (faithful.step event)

/-- After any history the store answers as follows, whatever has happened to the files. What has
been found once is answered again. A failure changes none of the bitmaps that are remembered. What
has never been found is looked for now, as by a new store, words apart. And the sprites that are
remembered are those that have been found, each counted once. -/
theorem respond_after (layout : StoreLayout) (past : List Event) (event : Event) :
    let history := historyOf layout past
    let request := event.request
    let now := (respond layout event.files request).answer history.cache
    (∀ asset image, request.asset? = some asset → (asset, image) ∈ history.found →
        now = (.ok (some image), history.cache)) ∧
      (∀ e, now.1 = .error e → now.2.HoldsSame history.cache) ∧
      (∀ asset, request.asset? = some asset → request.isForWord = false →
        (∀ image, (asset, image) ∉ history.found) →
          now.1 = ((respond layout event.files request).answer .empty).1) ∧
      history.cache.sprites.length = history.keys.toFinset.card := by
  intro history request now
  have faithful : history.IsFaithful := isFaithful_historyOf past
  refine ⟨?_, fun e failed => holdsSame_of_error failed, ?_, faithful.length_sprites⟩
  · intro asset image wanted found
    -- What has been found is in the cache, so the files are not looked at.
    have recalled := (faithful.held_iff asset image).mpr found
    simp only [now, answer_respond wanted, recalled]
  · intro asset wanted noWord never
    -- Neither cache holds the asset, so both stores make it from the same files.
    have unknown : history.cache.held? asset = none := by
      rw [Option.eq_none_iff_forall_ne_some]
      exact fun image recalled => never image ((faithful.held_iff asset image).mp recalled)
    have fresh : SpriteCache.empty.held? asset = none := by cases asset <;> rfl
    simp only [now]
    rw [answer_of_unknown wanted unknown, answer_of_unknown wanted fresh,
      answer_make noWord history.cache .empty]

/-- The palette is there at the second attempt only, and a sprite is overwritten and then lost. -/
theorem respond_after_changes :
    let layout : StoreLayout :=
      ⟨"sprites", "letters".toList, "palette.png".toList, "plate.png".toList⟩
    let baba := Tile.new "baba" default [] ⟨false, 0, 1, false, "data"⟩
    let red : Image := Raster.filled 1 1 ⟨255, 0, 0, 255⟩
    let blue : Image := Raster.filled 1 1 ⟨0, 0, 255, 255⟩
    let files (image : Image) : FileSystem :=
      ⟨[(["palette.png"], .file (.picture image)), (["data"], .directory),
        (["data", "sprites"], .directory),
        (["data", "sprites", "baba_1.png"], .file (.picture image))], []⟩
    let noFiles : FileSystem := ⟨[], []⟩
    let past : List Event :=
      [⟨noFiles, .palette⟩, ⟨files red, .sprite baba 0⟩, ⟨files blue, .palette⟩,
        ⟨files blue, .sprite baba 1⟩]
    let cache := (historyOf layout past).cache
    let plate := (respond layout noFiles .plate).answer cache
    ((respond layout noFiles (.sprite baba 2)).answer cache).1 = .ok (some red) ∧
      ((respond layout noFiles .palette).answer cache).1 = .ok (some blue) ∧
      plate.2.HoldsSame cache ∧
      plate.1 = ((respond layout noFiles .plate).answer .empty).1 ∧
      cache.sprites.length = 1 := by
  intro layout baba red blue files noFiles past cache plate
  have key : (Request.sprite baba 2).asset? = some (.sprite ⟨"baba", 0, 0⟩) := by decide
  have found : (historyOf layout past).found =
      [(.sprite ⟨"baba", 0, 0⟩, red), (.palette, blue), (.sprite ⟨"baba", 0, 0⟩, red)] := by
    decide +kernel
  have missing : (plate.1).toBool = false := by decide +kernel
  obtain ⟨e, failed⟩ : ∃ e, plate.1 = .error e := by
    cases answered : plate.1 with
    | error e => exact ⟨e, rfl⟩
    | ok image => simp [answered, Except.toBool] at missing
  obtain ⟨remembered, -, -, count⟩ := respond_after layout past ⟨noFiles, .sprite baba 2⟩
  obtain ⟨rememberedPalette, -⟩ := respond_after layout past ⟨noFiles, .palette⟩
  obtain ⟨-, unchanged, asNew, -⟩ := respond_after layout past ⟨noFiles, .plate⟩
  refine ⟨?_, ?_, unchanged e failed, asNew .plate rfl rfl ?_, ?_⟩
  · exact congrArg Prod.fst (remembered _ red key (by simp [found]))
  · exact congrArg Prod.fst (rememberedPalette _ blue rfl (by simp [found]))
  · simp [found]
  · rw [count, History.keys, found]
    decide

end SpriteStore

end IsoScene
