import TextureAtlas.Decimal.Style

/-!
# What can go wrong

Each failure is a cause; its wording is `AtlasError.message`. Only `bufferFull` is recoverable: it
makes the size search move on to the next canvas. `overflow` is no failure that a call returns, but the
end of the program at a sum of coordinates that leaves 32 bits.
-/

namespace TextureAtlas

/-- Why a file or directory could not be used. -/
inductive IoError where
  | notFound
  | notDirectory
  | isDirectory
  | alreadyExists
  | invalidUtf8
  deriving DecidableEq, Repr

def IoError.message : IoError → String
  | .notFound => "No such file or directory (os error 2)"
  | .notDirectory => "Not a directory (os error 20)"
  | .isDirectory => "Is a directory (os error 21)"
  | .alreadyExists => "File exists (os error 17)"
  | .invalidUtf8 => "stream did not contain valid UTF-8"

/-- Why a table of colours is refused. -/
inductive PaletteFault where
  | noEntries
  | emptyFile
  /-- The byte count is not a multiple of four. -/
  | truncated (bytes : Nat)
  deriving DecidableEq, Repr

def PaletteFault.message : PaletteFault → String
  | .noEntries => "palette has no entries"
  | .emptyFile => "palette file is empty"
  | .truncated bytes =>
    s!"palette is truncated: {bytes} bytes is not a whole number of entries"

/-- Why settings are refused. -/
inductive SettingsFault where
  | widthsInverted (least greatest : UInt32)
  | emptySwatch
  | thresholdOutside (threshold : Float32)
  /-- A fault that a receiver of frames reports in its own words. -/
  | reported (reason : String)

def SettingsFault.message : SettingsFault → String
  | .widthsInverted least greatest => s!"min_width ({least}) exceeds max_width ({greatest})"
  | .emptySwatch => "swatch_size must be > 0"
  | .thresholdOutside threshold =>
    let shown := FloatStyle.message.single threshold
    s!"logo_saturation_threshold ({shown}) must lie in [0, 1]"
  | .reported reason => reason

/-- Failures of the compositor. -/
inductive AtlasError where
  | io (cause : IoError)
  | json
  /-- No free rectangle of the fragment's size is left on the canvas. -/
  | bufferFull (width height fragmentWidth fragmentHeight : Nat)
  | invalidPalette (fault : PaletteFault)
  | invalidDimensions (width height : Nat)
  | invalidSettings (fault : SettingsFault)
  | unknownEntry (archive entry : String)
  /-- The program stopped at a sum that left 32 bits. -/
  | overflow

namespace AtlasError

def message : AtlasError → String
  | .io cause => s!"I/O error: {cause.message}"
  | .json => "JSON error"
  | .bufferFull width height fragmentWidth fragmentHeight =>
    s!"cannot place {fragmentWidth}x{fragmentHeight} fragment: {width}x{height} canvas is full"
  | .invalidPalette fault => s!"Invalid palette: {fault.message}"
  | .invalidDimensions width height => s!"Invalid canvas dimensions: {width}x{height}"
  | .invalidSettings fault => s!"Invalid configuration: {fault.message}"
  | .unknownEntry archive entry => s!"Archive '{archive}' has no entry named '{entry}'"
  | .overflow => "attempt to add with overflow"

/-- The placement failure that a larger canvas may cure. -/
def isBufferFull : AtlasError → Bool
  | .bufferFull .. => true
  | _ => false

end AtlasError
end TextureAtlas
