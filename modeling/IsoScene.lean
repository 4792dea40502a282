import IsoScene.Animation
import IsoScene.Binary64.Basic
import IsoScene.Binary64.Decimal
import IsoScene.Binary64.Power
import IsoScene.Binary64.Shortest
import IsoScene.Catalog
import IsoScene.Codec.Bitmap
import IsoScene.Codec.Bytes
import IsoScene.Codec.Farbfeld
import IsoScene.Codec.Gif.Block
import IsoScene.Codec.Gif.Decode
import IsoScene.Codec.Gif.Encode
import IsoScene.Codec.Icon
import IsoScene.Codec.Inflate
import IsoScene.Codec.Netpbm
import IsoScene.Codec.Picture
import IsoScene.Codec.Pixels
import IsoScene.Codec.Png
import IsoScene.Codec.Png.Chunk
import IsoScene.Codec.Png.Header
import IsoScene.Codec.Png.Line
import IsoScene.Codec.Qoi
import IsoScene.Codec.Targa
import IsoScene.Color.Basic
import IsoScene.Color.Palette
import IsoScene.CommandLine.Arguments
import IsoScene.CommandLine.Run
import IsoScene.Config.Basic
import IsoScene.Config.Load
import IsoScene.Datum
import IsoScene.Effect.Apply
import IsoScene.Effect.Geometry
import IsoScene.Effect.Pixel
import IsoScene.Effect.Source
import IsoScene.Engine
import IsoScene.Error
import IsoScene.FileSystem.Basic
import IsoScene.FileSystem.Content
import IsoScene.FileSystem.Output
import IsoScene.FileSystem.Path
import IsoScene.Glyph.Layout
import IsoScene.Glyph.Render
import IsoScene.Json.Printer
import IsoScene.Json.Reader
import IsoScene.Main
import IsoScene.Raster.Basic
import IsoScene.Raster.Blend
import IsoScene.Raster.Edge
import IsoScene.Raster.Outline
import IsoScene.Raster.Scale
import IsoScene.Scene.Basic
import IsoScene.Scene.Cell
import IsoScene.Scene.Flag
import IsoScene.Scene.Frame
import IsoScene.Scene.Grid
import IsoScene.Scene.Listing
import IsoScene.Scene.Order
import IsoScene.Scene.Projection
import IsoScene.Scene.Written
import IsoScene.Sprite.Key
import IsoScene.Sprite.Store
import IsoScene.Text.Blank
import IsoScene.Text.Escape
import IsoScene.Text.Integer
import IsoScene.Text.Pattern
import IsoScene.Tile
import IsoScene.Toml.Reader
import IsoScene.Toml.Scalar
import IsoScene.Toml.Tables
import IsoScene.Variant
import IsoScene.Proofs.Failure
import IsoScene.Proofs.Scene.Geometry
import IsoScene.Proofs.Text.Escapes
import IsoScene.Proofs.Text.Words
import IsoScene.Proofs.Scene.Placement
import IsoScene.Proofs.Scene.Independence
import IsoScene.Proofs.Scene.RoundTrip
import IsoScene.Proofs.Scene.FlagExtraction
import IsoScene.Proofs.Scene.Ground
import IsoScene.Proofs.Scene.GroundFlag
import IsoScene.Proofs.Fetch
import IsoScene.Proofs.Raster.Cells
import IsoScene.Proofs.Raster.Drawing
import IsoScene.Proofs.Raster.Outlines
import IsoScene.Proofs.Scene.Drawing
import IsoScene.Proofs.Scene.Described
import IsoScene.Proofs.Sprite.Store
import IsoScene.Proofs.Engine
import IsoScene.Proofs.Scene.Redrawing
import IsoScene.Proofs.Scene.Composition
import IsoScene.Proofs.Wobbles
import IsoScene.Proofs.Binary64.Numbers
import IsoScene.Proofs.Binary64.Rounding
import IsoScene.Proofs.FrameSize
import IsoScene.Proofs.Sprite.History
import IsoScene.Proofs.Binary64.Arithmetic
import IsoScene.Proofs.Scene.Places
import IsoScene.Proofs.Scene.Bounds
import IsoScene.Proofs.Binary64.Grid
import IsoScene.Proofs.Scene.Canvas
import IsoScene.Proofs.Scene.Unclipped
import IsoScene.Proofs.StableSort
import IsoScene.Proofs.Effect.Histogram
import IsoScene.Proofs.Effect.Surround
import IsoScene.Proofs.Glyph.Search
import IsoScene.Proofs.Glyph.Setting
import IsoScene.Proofs.Glyph.Placement
import IsoScene.Proofs.FileSystem.Paths
import IsoScene.Proofs.FileSystem.Tree
import IsoScene.Proofs.FileSystem.Output
import IsoScene.Proofs.CommandLine
import IsoScene.Proofs.Scene.DrawOrder
import IsoScene.Proofs.Effect.Plane
import IsoScene.Proofs.Raster.Clipping
import IsoScene.Proofs.Scene.Painting
import IsoScene.Proofs.Effect.Outlined
import IsoScene.Proofs.Scene.Landing
import IsoScene.Proofs.Effect.PixelRuns
import IsoScene.Proofs.Scene.Settling
import IsoScene.Proofs.Scene.Arguments
import IsoScene.Proofs.Text.Numerals
import IsoScene.Proofs.FileSystem.Below
import IsoScene.Proofs.Glyph.Alphabet
import IsoScene.Proofs.Glyph.Dependence
import IsoScene.Proofs.Glyph.Discovery
import IsoScene.Proofs.Glyph.Confinement
import IsoScene.Proofs.Glyph.Retrying
import IsoScene.Proofs.Effect.Levels
import IsoScene.Proofs.Text.Slices
import IsoScene.Proofs.Color.Grammar
import IsoScene.Proofs.Color.Reading
import IsoScene.Proofs.Effect.Ranking
import IsoScene.Proofs.Color.Channels
import IsoScene.Proofs.Effect.Darkest
import IsoScene.Proofs.Effect.Recoloring
import IsoScene.Proofs.Text.Splitting
import IsoScene.Proofs.Effect.Plated
import IsoScene.Proofs.Animation
import IsoScene.Proofs.FileSystem.Ancestors
import IsoScene.Proofs.Config
import IsoScene.Proofs.Text.Cuts
