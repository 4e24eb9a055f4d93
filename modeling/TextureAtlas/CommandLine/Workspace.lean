import TextureAtlas.CommandLine.Arguments
import TextureAtlas.CommandLine.Discovery
import TextureAtlas.Document.Overrides
import TextureAtlas.Document.Settings
import TextureAtlas.Json.Printer

/-!
# The workspace of a conversion

Before a unit is converted the settings are settled, the palette is read and the archives are indexed,
in this order, so that a bad palette is noticed before any archive is opened.
-/

namespace TextureAtlas.CommandLine

/-! ## Settings -/

/-- The byte order that a user's text names. -/
def orderNamed (given : String) : Run ChannelOrder :=
  match ChannelOrder.ofText? given with
  | some order => pure order
  | none => throw (.unknownOrder given)

/-- The settings that the switches state, with the given byte order. -/
def AtlasOptions.settings (o : AtlasOptions) (order : ChannelOrder) : Settings where
  minWidth := o.minWidth
  maxWidth := o.maxWidth
  tallVariants := o.tallVariants
  swatchSize := o.swatchSize
  logoThreshold := o.logoThreshold
  logoMarker := o.logoMarker
  channelOrder := order

/-- The overrides in a settings file. -/
def readOverrides (p : Path) : Run Overrides := do
  let text ← Run.lift (.configUnreadable p) ((← Run.files).readText p)
  match Overrides.ofYaml? text with
  | some overrides => return overrides
  | none => throw (.configMalformed p)

/-- The settings that the switches and the settings file state together; they have to be valid. -/
def settleSettings (o : AtlasOptions) : Run Settings := do
  let stated := o.settings (← orderNamed o.channelOrder)
  let settings ← match o.config with
    | some p => do pure (stated.overridden (← readOverrides p))
    | none => pure stated
  Run.lift .settingsInvalid settings.validate
  return settings

/-- Shows settings in the wanted format. -/
def showSettings (settings : Settings) : ConfigFormat → Run Unit
  | .json => Run.print settings.toJson.pretty
  | .yaml => Run.print settings.toYaml

/-! ## The workspace -/

/-- What every conversion needs. -/
structure Workspace where
  dataDirs : List Path
  settings : Settings
  palette : Palette
  index : TextureIndex
  /-- Whether picture files are written too. -/
  png : Bool
  /-- Whether the fragment table is written too. -/
  metadata : Bool

/-- Reads the palette and indexes the archives. -/
def prepareWorkspace (o : AtlasOptions) (settings : Settings) : Run Workspace := do
  let t ← Run.files
  let path ← match o.palette <|> t.findPalette o.dataDirs with
    | some p => pure p
    | none => throw (.noPalette o.dataDirs)
  let palette ← Run.lift (.paletteNotLoaded path) (t.loadPalette path settings.channelOrder)
  Run.report (.paletteLoaded path palette.size)
  let index ← indexTextures o.dataDirs o.includes o.excludes
  Run.report (.archivesIndexed index.numReaders index.numTextures)
  return ⟨o.dataDirs, settings, palette, index, o.png, o.metadata⟩

end TextureAtlas.CommandLine
