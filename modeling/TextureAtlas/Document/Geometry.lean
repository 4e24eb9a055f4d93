import TextureAtlas.Atlas
import TextureAtlas.Json.Record

/-!
# Rectangles, fragments and statistics as documents

Each record is written with its fields in declared order.
-/

namespace TextureAtlas
open Json (required leaf uint32? nat64? double? bool? ofNat ofDouble)

/-- A 32-bit coordinate. -/
def Json.coordinate? (j : Json) : Option Nat := j.natBelow? UInt32.size

namespace Rect

def toJson (r : Rect) : Json :=
  .record [("x", ofNat r.x), ("y", ofNat r.y), ("w", ofNat r.w), ("h", ofNat r.h)]

def read : Json.Read Rect := fun depth j => do
  match ← Json.fields? ["x", "y", "w", "h"] depth j with
  | [x, y, w, h] =>
    let side := required (leaf Json.coordinate?) (depth - 1)
    return ⟨← side x, ← side y, ← side w, ← side h⟩
  | _ => none

end Rect

namespace Fragment

def toJson (f : Fragment) : Json :=
  .record [("rect", f.rect.toJson), ("transparency_key", ofNat f.transparencyKey.toNat),
    ("logo", .bool f.logo), ("placed", .bool f.placed)]

def read : Json.Read Fragment := fun depth j => do
  match ← Json.fields? ["rect", "transparency_key", "logo", "placed"] depth j with
  | [rect, key, logo, placed] =>
    return {
      rect := ← required Rect.read (depth - 1) rect
      transparencyKey := ← required (leaf uint32?) (depth - 1) key
      logo := ← required (leaf bool?) (depth - 1) logo
      placed := ← required (leaf bool?) (depth - 1) placed }
  | _ => none

end Fragment

namespace FrameHeader

def toJson (h : FrameHeader) : Json :=
  .record [("width", ofNat h.width.toNat), ("height", ofNat h.height.toNat),
    ("transparency_index", ofNat h.transparencyIndex.toNat)]

def read : Json.Read FrameHeader := fun depth j => do
  match ← Json.fields? ["width", "height", "transparency_index"] depth j with
  | [width, height, key] =>
    let word := required (leaf uint32?) (depth - 1)
    return ⟨← word width, ← word height, ← word key⟩
  | _ => none

end FrameHeader

namespace UvRect

def toJson (uv : UvRect) : Json :=
  .record [("uMin", ofDouble uv.uMin), ("vMin", ofDouble uv.vMin), ("uMax", ofDouble uv.uMax),
    ("vMax", ofDouble uv.vMax)]

def read : Json.Read UvRect := fun depth j => do
  match ← Json.fields? ["uMin", "vMin", "uMax", "vMax"] depth j with
  | [uMin, vMin, uMax, vMax] =>
    let edge := required (leaf double?) (depth - 1)
    return ⟨← edge uMin, ← edge vMin, ← edge uMax, ← edge vMax⟩
  | _ => none

end UvRect

namespace AtlasStats

def toJson (s : AtlasStats) : Json :=
  .record [("width", ofNat s.width), ("height", ofNat s.height),
    ("num_fragments", ofNat s.numFragments), ("num_logo", ofNat s.numLogo),
    ("total_area", ofNat s.totalArea), ("used_area", ofNat s.usedArea),
    ("occupancy", ofDouble s.occupancy)]

def read : Json.Read AtlasStats := fun depth j => do
  match ← Json.fields? ["width", "height", "num_fragments", "num_logo", "total_area", "used_area",
      "occupancy"] depth j with
  | [width, height, numFragments, numLogo, totalArea, usedArea, occupancy] =>
    let side := required (leaf Json.coordinate?) (depth - 1)
    let count := required (leaf nat64?) (depth - 1)
    return ⟨← side width, ← side height, ← count numFragments, ← count numLogo, ← count totalArea,
      ← count usedArea, ← required (leaf double?) (depth - 1) occupancy⟩
  | _ => none

end AtlasStats
end TextureAtlas
