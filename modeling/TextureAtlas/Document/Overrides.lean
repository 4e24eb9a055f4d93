import TextureAtlas.Document.Settings
import TextureAtlas.Overrides
import TextureAtlas.Yaml.Printer

/-!
# Settings in YAML

Overrides are stated as a mapping from the names of the fields, or as the sequence of all values in
their order. A field without a value or with a null is left unsaid, and so is everything in an empty
document. Names that are no field's are passed over, whatever they hold; no field is stated twice.
-/

namespace TextureAtlas
open Yaml (Node)

namespace Overrides

/-- What a mapping states for each field, in the order of the fields. -/
def statedIn? (root : Node) (entries : List (Node × Node)) : Option (List (Option Node)) := do
  let named ← entries.mapM fun (k, v) => do return (← (← root.resolved? k).string?, v)
  let known := (named.map (·.1)).filter Settings.fieldNames.contains
  if known.eraseDups.length < known.length then none
  else some (Settings.fieldNames.map fun name => named.lookup name)

/-- What a document states for each field, in the order of the fields. -/
def stated? (root : Node) : Option (List (Option Node)) :=
  match root with
  | .mapping _ entries => statedIn? root entries
  | .sequence _ items => some (items.map some)
  | _ => if root.isBlank then some (Settings.fieldNames.map fun _ => none) else none

/-- The value of a field, if one is stated. -/
def value? (root : Node) (read : Node → Option α) : Option Node → Option (Option α)
  | none => some none
  | some n => do
    let n ← root.resolved? n
    if ← n.isSome? then return some (← read n) else return none

/-- The overrides that a document states. -/
def ofNode? (root : Node) : Option Overrides := do
  match ← stated? root with
  | [minWidth, maxWidth, tallVariants, swatchSize, logoThreshold, logoMarker, channelOrder] =>
    return {
      minWidth := ← value? root Node.uint32? minWidth
      maxWidth := ← value? root Node.uint32? maxWidth
      tallVariants := ← value? root Node.truth? tallVariants
      swatchSize := ← value? root Node.uint32? swatchSize
      logoThreshold := ← value? root Node.single? logoThreshold
      logoMarker := ← value? root Node.string? logoMarker
      channelOrder := ← value? root Node.string? channelOrder }
  | _ => none

/-- The overrides that a text states; a text without a document states none. -/
def ofYaml? (s : String) : Option Overrides := do
  match ← Node.ofText? s with
  | some root => ofNode? root
  | none => return {}

end Overrides

/-- The settings as a YAML document. -/
def Settings.toYaml (s : Settings) : String :=
  let plain (text : String) : List Char := text.toList
  String.join (List.zipWith Yaml.entryText fieldNames
    [plain (toString s.minWidth.toNat), plain (toString s.maxWidth.toNat),
      plain (if s.tallVariants then "true" else "false"), plain (toString s.swatchSize.toNat),
      plain (FloatStyle.yamlSingle.single s.logoThreshold), Yaml.scalarText s.logoMarker.toList,
      plain s.channelOrder.name])

end TextureAtlas
