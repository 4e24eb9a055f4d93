import TextureAtlas.Json.Reader
import TextureAtlas.Json.Record
import TextureAtlas.Settings

/-!
# Settings as documents

Every field may be left off and then has its usual value.
-/

namespace TextureAtlas
open Json (orDefault leaf uint32? single? bool? text? variant? ofNat ofSingle ofText)

namespace ChannelOrder

def toJson (o : ChannelOrder) : Json := ofText o.name

def read : Json.Read ChannelOrder := leaf (variant? ofName?)

end ChannelOrder

namespace Settings

/-- The names of the fields in a document, in their declared order. -/
def fieldNames : List String :=
  ["min_width", "max_width", "tall_variants", "swatch_size", "logo_saturation_threshold",
    "logo_archive_marker", "channel_order"]

/-- The settings as a document; `number` writes the threshold. -/
def toJsonWith (number : Float32 → Json) (s : Settings) : Json :=
  .record [("min_width", ofNat s.minWidth.toNat), ("max_width", ofNat s.maxWidth.toNat),
    ("tall_variants", .bool s.tallVariants), ("swatch_size", ofNat s.swatchSize.toNat),
    ("logo_saturation_threshold", number s.logoThreshold),
    ("logo_archive_marker", ofText s.logoMarker), ("channel_order", s.channelOrder.toJson)]

def toJson (s : Settings) : Json := s.toJsonWith ofSingle

def read : Json.Read Settings := fun depth j => do
  match ← Json.fields? fieldNames depth j with
  | [minWidth, maxWidth, tallVariants, swatchSize, logoThreshold, logoMarker, channelOrder] =>
    let usual : Settings := {}
    return {
      minWidth := ← orDefault usual.minWidth (leaf uint32?) (depth - 1) minWidth
      maxWidth := ← orDefault usual.maxWidth (leaf uint32?) (depth - 1) maxWidth
      tallVariants := ← orDefault usual.tallVariants (leaf bool?) (depth - 1) tallVariants
      swatchSize := ← orDefault usual.swatchSize (leaf uint32?) (depth - 1) swatchSize
      logoThreshold := ← orDefault usual.logoThreshold (leaf single?) (depth - 1) logoThreshold
      logoMarker := ← orDefault usual.logoMarker (leaf text?) (depth - 1) logoMarker
      channelOrder := ← orDefault usual.channelOrder ChannelOrder.read (depth - 1) channelOrder }
  | _ => none

/-- The settings that a JSON text holds. -/
def ofText (s : String) : Except AtlasError Settings :=
  match (Json.parse? s).bind (read Json.maxDepth) with
  | some settings => .ok settings
  | none => .error .json

end Settings
end TextureAtlas
