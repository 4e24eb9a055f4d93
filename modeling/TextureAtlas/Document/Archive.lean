import TextureAtlas.Archive
import TextureAtlas.Json.Reader
import TextureAtlas.Json.Record

/-!
# Archives as documents

An archive file is a record of its name and its entries; name and entries may be left off, and so may
the transparency index of a frame.
-/

namespace TextureAtlas
open Json (required orDefault leaf listOf uint8? uint32? text? ofNat ofText)

namespace ArchiveFrame

def toJson (f : ArchiveFrame) : Json :=
  .record [("width", ofNat f.width.toNat), ("height", ofNat f.height.toNat),
    ("transparency_index", ofNat f.transparencyIndex.toNat),
    ("layers", .array (f.layers.map fun layer => .array (layer.toList.map fun b => ofNat b.toNat)))]

def read : Json.Read ArchiveFrame := fun depth j => do
  match ← Json.fields? ["width", "height", "transparency_index", "layers"] depth j with
  | [width, height, key, layers] =>
    let layers ← required (listOf (listOf (leaf uint8?))) (depth - 1) layers
    return ⟨← required (leaf uint32?) (depth - 1) width, ← required (leaf uint32?) (depth - 1) height,
      ← orDefault 0 (leaf uint32?) (depth - 1) key, layers.map List.toArray⟩
  | _ => none

end ArchiveFrame

namespace ArchiveEntry

def toJson (e : ArchiveEntry) : Json :=
  .record [("name", ofText e.name), ("frames", .array (e.frames.map ArchiveFrame.toJson))]

def read : Json.Read ArchiveEntry := fun depth j => do
  match ← Json.fields? ["name", "frames"] depth j with
  | [name, frames] =>
    return ⟨← required (leaf text?) (depth - 1) name,
      ← required (listOf ArchiveFrame.read) (depth - 1) frames⟩
  | _ => none

end ArchiveEntry

namespace Archive

def toJson (a : Archive) : Json :=
  .record [("name", ofText a.name), ("entries", .array (a.entries.map ArchiveEntry.toJson))]

def read : Json.Read Archive := fun depth j => do
  match ← Json.fields? ["name", "entries"] depth j with
  | [name, entries] =>
    return ⟨← orDefault "" (leaf text?) (depth - 1) name,
      ← orDefault [] (listOf ArchiveEntry.read) (depth - 1) entries⟩
  | _ => none

/-- The archive that a JSON text holds. -/
def ofText (s : String) : Except AtlasError Archive :=
  match (Json.parse? s).bind (read Json.maxDepth) with
  | some a => .ok a
  | none => .error .json

end Archive
end TextureAtlas
