import TextureAtlas.Archive
import TextureAtlas.Atlas
import TextureAtlas.Canvas
import TextureAtlas.ColorIndex
import TextureAtlas.CommandLine.Arguments
import TextureAtlas.CommandLine.Batch
import TextureAtlas.CommandLine.Commands
import TextureAtlas.CommandLine.Convert
import TextureAtlas.CommandLine.Discovery
import TextureAtlas.CommandLine.Log
import TextureAtlas.CommandLine.Session
import TextureAtlas.CommandLine.Workspace
import TextureAtlas.Compose
import TextureAtlas.Decimal.Binary
import TextureAtlas.Decimal.Fixed
import TextureAtlas.Decimal.Numeral
import TextureAtlas.Decimal.Rounding
import TextureAtlas.Decimal.Shortest
import TextureAtlas.Decimal.Style
import TextureAtlas.Document.Archive
import TextureAtlas.Document.Geometry
import TextureAtlas.Document.Mesh
import TextureAtlas.Document.Metadata
import TextureAtlas.Document.Overrides
import TextureAtlas.Document.Settings
import TextureAtlas.Document.UnitMesh
import TextureAtlas.Error
import TextureAtlas.Export
import TextureAtlas.Files.Load
import TextureAtlas.Files.Path
import TextureAtlas.Files.Png
import TextureAtlas.Files.Tree
import TextureAtlas.Fragment
import TextureAtlas.Glob
import TextureAtlas.Grid
import TextureAtlas.Hsv
import TextureAtlas.Json.Basic
import TextureAtlas.Json.Number
import TextureAtlas.Json.Printer
import TextureAtlas.Json.Reader
import TextureAtlas.Json.Record
import TextureAtlas.Json.Text
import TextureAtlas.Main
import TextureAtlas.Mesh
import TextureAtlas.Overrides
import TextureAtlas.Palette
import TextureAtlas.Plane
import TextureAtlas.Rect
import TextureAtlas.Settings
import TextureAtlas.Sink
import TextureAtlas.Sizes
import TextureAtlas.Table
import TextureAtlas.TextureIndex
import TextureAtlas.Uv
import TextureAtlas.Yaml.Block
import TextureAtlas.Yaml.Cursor
import TextureAtlas.Yaml.Flow
import TextureAtlas.Yaml.Node
import TextureAtlas.Yaml.Printer
import TextureAtlas.Yaml.Property
import TextureAtlas.Yaml.Token
import TextureAtlas.Yaml.Value
import TextureAtlas.Proofs.FirstFit
import TextureAtlas.Proofs.Atlas
import TextureAtlas.Proofs.Canvas
import TextureAtlas.Proofs.Cells
import TextureAtlas.Proofs.Sink.Calls
import TextureAtlas.Proofs.Sink.Moves
import TextureAtlas.Proofs.Sink.WriteOnce
import TextureAtlas.Proofs.Composition
import TextureAtlas.Proofs.SizeSearch
import TextureAtlas.Proofs.Registration
import TextureAtlas.Proofs.SwatchNames
import TextureAtlas.Proofs.Mesh
import TextureAtlas.Proofs.Rearrangement
import TextureAtlas.Proofs.UnitAtlas
import TextureAtlas.Proofs.Files
import TextureAtlas.Proofs.Run
import TextureAtlas.Proofs.Conversion
import TextureAtlas.Proofs.UnitRasters
import TextureAtlas.Proofs.Json
import TextureAtlas.Proofs.UnitMesh
import TextureAtlas.Proofs.Names
import TextureAtlas.Proofs.Tree
import TextureAtlas.Proofs.Discovery
import TextureAtlas.Proofs.Textures
import TextureAtlas.Proofs.Directories
import TextureAtlas.Proofs.Sight
import TextureAtlas.Proofs.Confined
import TextureAtlas.Proofs.Preparation
import TextureAtlas.Proofs.Overrides
import TextureAtlas.Proofs.Batch
import TextureAtlas.Proofs.Resolution
import TextureAtlas.Proofs.Stability
import TextureAtlas.Proofs.Statistics
import TextureAtlas.Proofs.Export
import TextureAtlas.Proofs.Palette
import TextureAtlas.Proofs.PaletteFiles
import TextureAtlas.Proofs.JsonTokens
import TextureAtlas.Proofs.JsonText
import TextureAtlas.Proofs.JsonRecord
import TextureAtlas.Proofs.Interchange
import TextureAtlas.Proofs.Stream
import TextureAtlas.Proofs.Delivery
import TextureAtlas.Proofs.Sink.Entries
import TextureAtlas.Proofs.Paint
import TextureAtlas.Proofs.Requests
import TextureAtlas.Proofs.Sink.Swatches
import TextureAtlas.Proofs.Coordinates
