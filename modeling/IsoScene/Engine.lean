import IsoScene.Catalog
import IsoScene.Config.Load
import IsoScene.Scene.Frame
import IsoScene.Scene.Grid
import IsoScene.Sprite.Store

/-! # The engine

An engine is a configuration with its catalog. It turns scene text into frames and animations, and
it answers one request after another against the same sprite cache.

* `Engine.load` — an engine from a configuration.
* `Engine.parse`, `render`, `animate` — what it does with scene text.
* `Engine.spriteFiles` — the files that it looks for when it draws a scene.
* `Engine.Request`, `Engine.respond`, `Engine.respondAll` — requests in sequence.
-/

namespace IsoScene

inductive CatalogError where
  | unreadable (path : String)
  | malformed (path : String)
deriving DecidableEq, Repr

def CatalogError.message : CatalogError → String
  | .unreadable path => "Failed to read catalog " ++ path
  | .malformed path => "Failed to parse catalog " ++ path

structure Engine where
  config : Config
  catalog : Catalog

namespace Engine

def load (fs : FileSystem) (config : Config) : Except CatalogError Engine :=
  let paths := config.assetPaths
  match fs.readText paths.catalog with
  | none => .error (.unreadable (String.ofList paths.catalog))
  | some text =>
    match Catalog.ofText? (String.ofList paths.root) text with
    | none => .error (.malformed (String.ofList paths.catalog))
    | some catalog => .ok ⟨config, catalog⟩

def source (engine : Engine) (fs : FileSystem) : SpriteSource SpriteCache :=
  let paths := engine.config.assetPaths
  SpriteStore.source ⟨paths.sprites, paths.letters, paths.palette, paths.plate⟩ fs

/-- The sprite files that the frames of a scene are drawn from. -/
def spriteFiles (engine : Engine) (scene : Scene) : List (List Char) :=
  scene.tiles.flatMap fun tile =>
    wobbles.map fun wobble =>
      (SpriteKey.ofTile tile wobble).path tile.metadata engine.config.assets.sprites

def parse (engine : Engine) (text : List Char) : Except UserError (Scene × Flags) :=
  Scene.parse engine.catalog.lookup engine.config.defaultFlags text

/-- The frames of a scene. Nothing is drawn if a frame would exceed the configured size. -/
def renderScene (engine : Engine) (fs : FileSystem) (scene : Scene) (flags : Flags) :
    Fetch SpriteCache (List Image) := do
  let render := engine.config.render
  let _ ← Fetch.ofUser (scene.frameSize render.scale render.maxFrameSize)
  Fetch.ofAnswer fun cache =>
    let drawn := scene.render flags (engine.source fs) render.scale cache
    (drawn.answer, drawn.state)

def render (engine : Engine) (fs : FileSystem) (text : List Char) :
    Fetch SpriteCache (List Image) := do
  let (scene, flags) ← Fetch.ofUser (engine.parse text)
  engine.renderScene fs scene flags

def animate (engine : Engine) (fs : FileSystem) (text : List Char) :
    Fetch SpriteCache (Option Animation) := do
  let frames ← engine.render fs text
  match Animation.ofFrames frames engine.config.render.frameDelay with
  | .ok animation => pure animation
  | .error e => throw (.file e)

/-! ## Requests -/

inductive Request where
  | frames (text : List Char)
  | animation (text : List Char)
  | palette
  | plate
  | sprite (tile : Tile) (wobble : Nat)

inductive Response where
  | frames (frames : List Image)
  | animation (animation : Option Animation)
  | image (image : Image)
  | sprite (image : Option Image)

def respond (engine : Engine) (fs : FileSystem) : Request → Fetch SpriteCache Response
  | .frames text => Response.frames <$> engine.render fs text
  | .animation text => Response.animation <$> engine.animate fs text
  | .palette => Response.image <$> (engine.source fs).palette
  | .plate => Response.image <$> (engine.source fs).plate
  | .sprite tile wobble => Response.sprite <$> (engine.source fs).sprite tile wobble

/-- Answers requests one after another, each with what the cache holds by then. -/
def respondAll (engine : Engine) (fs : FileSystem) :
    List Request → SpriteCache → List (Except RenderError Response) × SpriteCache
  | [], cache => ([], cache)
  | request :: rest, cache =>
    let (answer, cache) := (engine.respond fs request).answer cache
    let (answers, cache) := engine.respondAll fs rest cache
    (answer :: answers, cache)

end Engine

end IsoScene
