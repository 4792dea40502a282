import IsoScene.Datum
import IsoScene.FileSystem.Path
import IsoScene.Scene.Cell
import IsoScene.Scene.Projection

/-! # Configuration

A configuration says where the assets are and how scenes are rendered. Every field has a default.

* `Config` — the fields.
* `Config.ofDatum?` — reads a configuration from structured data.
* `Config.problems` — what makes a configuration unusable.
* `Config.assetPaths`, `background`, `defaultFlags` — what a configuration means.
-/

namespace IsoScene

/-- Where the assets are. Paths are relative to `root`, which is relative to the directory of the
configuration. -/
structure AssetConfig where
  root : String
  /-- The directory of sprites inside every asset directory. -/
  sprites : String
  letters : String
  palette : String
  plate : String
  catalog : String
deriving DecidableEq, Repr

def AssetConfig.standard : AssetConfig :=
  ⟨"data", "sprites", "letters", "palette.png", "plate.png", "values.json"⟩

structure RenderConfig where
  /-- The time that a frame is shown, in milliseconds. -/
  frameDelay : Nat
  scale : Nat
  /-- The greatest side of a finished frame. -/
  maxFrameSize : Nat
  background : String
  ground : String
deriving DecidableEq, Repr

def RenderConfig.standard : RenderConfig := ⟨600, 2, 4096, "#404464", Flags.standardGround⟩

structure Config where
  assets : AssetConfig
  render : RenderConfig
  /-- The directory from which the asset root is reached. -/
  baseDirectory : List Char
deriving DecidableEq, Repr

inductive ConfigProblem where
  | scaleNotPositive
  | frameSizeOutOfRange
  | badBackground (cause : ColorError)
  | blankGround
  | noSpriteDirectory
deriving DecidableEq, Repr

namespace ConfigProblem

def field : ConfigProblem → String
  | scaleNotPositive => "render.scale"
  | frameSizeOutOfRange => "render.max_frame_size"
  | badBackground _ => "render.background"
  | blankGround => "render.ground"
  | noSpriteDirectory => "assets.sprites"

def message : ConfigProblem → String
  | scaleNotPositive => "must be a positive integer"
  | frameSizeOutOfRange => "must be between 1 and " ++ toString maxFrameSide
  | badBackground cause => "is not a color: " ++ cause.message
  | blankGround => "must name a tile"
  | noSpriteDirectory => "must be a non-empty directory name"

def text (problem : ConfigProblem) : String :=
  "tilescape.toml: '" ++ problem.field ++ "' " ++ problem.message

end ConfigProblem

structure AssetPaths where
  root : List Char
  sprites : String
  letters : List Char
  palette : List Char
  plate : List Char
  catalog : List Char
deriving DecidableEq, Repr

namespace Config

/-- The configuration in which every field has its default. -/
def standard (baseDirectory : List Char) : Config :=
  ⟨AssetConfig.standard, RenderConfig.standard, baseDirectory⟩

/-! ## Reading -/

def readAssets (allowSurplus : Bool) (datum : Datum) : Option AssetConfig := do
  let keys := ["root", "sprites", "letters", "palette", "plate", "catalog"]
  let standard := AssetConfig.standard
  let fields ← datum.fields? keys allowSurplus
  let root ← fields.read "root" standard.root Datum.readText
  let sprites ← fields.read "sprites" standard.sprites Datum.readText
  let letters ← fields.read "letters" standard.letters Datum.readText
  let palette ← fields.read "palette" standard.palette Datum.readText
  let plate ← fields.read "plate" standard.plate Datum.readText
  let catalog ← fields.read "catalog" standard.catalog Datum.readText
  some ⟨root, sprites, letters, palette, plate, catalog⟩

def readRender (allowSurplus : Bool) (datum : Datum) : Option RenderConfig := do
  let keys := ["frame_delay_ms", "scale", "max_frame_size", "background", "ground"]
  let standard := RenderConfig.standard
  let fields ← datum.fields? keys allowSurplus
  let delay ← fields.read "frame_delay_ms" standard.frameDelay (Datum.readNatural Text.maxNat32)
  let scale ← fields.read "scale" standard.scale (Datum.readNatural 255)
  let size ← fields.read "max_frame_size" standard.maxFrameSize (Datum.readNatural Text.maxNat32)
  let background ← fields.read "background" standard.background Datum.readText
  let ground ← fields.read "ground" standard.ground Datum.readText
  some ⟨delay, scale, size, background, ground⟩

def ofDatum? (allowSurplus : Bool) (baseDirectory : List Char) (datum : Datum) : Option Config := do
  let fields ← datum.fields? ["assets", "render"] allowSurplus
  let assets ← fields.read "assets" AssetConfig.standard (readAssets allowSurplus)
  let render ← fields.read "render" RenderConfig.standard (readRender allowSurplus)
  some ⟨assets, render, baseDirectory⟩

/-! ## Meaning -/

def backgroundColor (config : Config) : Except ColorError Rgba :=
  Rgba.parse config.render.background.toList

def problems (config : Config) : List ConfigProblem :=
  let render := config.render
  (if render.scale = 0 then [.scaleNotPositive] else []) ++
    (if render.maxFrameSize = 0 ∨ maxFrameSide < render.maxFrameSize then [.frameSizeOutOfRange]
      else []) ++
    (match config.backgroundColor with
      | .ok _ => []
      | .error cause => [.badBackground cause]) ++
    (if render.ground.toList.all Text.isBlank then [.blankGround] else []) ++
    (if config.assets.sprites.isEmpty then [.noSpriteDirectory] else [])

def isValid (config : Config) : Bool := config.problems.isEmpty

def assetPaths (config : Config) : AssetPaths :=
  let assets := config.assets
  let root := Path.join config.baseDirectory assets.root.toList
  { root
    sprites := assets.sprites
    letters := Path.join root assets.letters.toList
    palette := Path.join root assets.palette.toList
    plate := Path.join root assets.plate.toList
    catalog := Path.join root assets.catalog.toList }

/-- The background of scenes that choose none. A valid configuration names it. -/
def background (config : Config) : Rgba :=
  match config.backgroundColor with
  | .ok color => color
  | .error _ => Flags.standardBackground

/-- The flags from which every scene starts. -/
def defaultFlags (config : Config) : Flags :=
  ⟨config.background, String.ofList (expandName config.render.ground.toList), false⟩

end Config

end IsoScene
