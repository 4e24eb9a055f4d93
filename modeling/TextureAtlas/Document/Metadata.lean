import TextureAtlas.Document.Geometry

/-!
# The fragment table of an atlas

The table lists every placed fragment by name, with its rectangle and its texture coordinates, and
says what the atlas is. Keys are written in ascending order.
-/

namespace TextureAtlas
open Json (ofNat ofDouble ofText)

/-- Texture coordinates with their keys ascending. -/
def UvRect.toTableJson (uv : UvRect) : Json :=
  .record [("uMax", ofDouble uv.uMax), ("uMin", ofDouble uv.uMin), ("vMax", ofDouble uv.vMax),
    ("vMin", ofDouble uv.vMin)]

/-- A rectangle with its keys ascending. -/
def Rect.toTableJson (r : Rect) : Json :=
  .record [("h", ofNat r.h), ("w", ofNat r.w), ("x", ofNat r.x), ("y", ofNat r.y)]

namespace Atlas

/-- The table entry of a fragment. -/
def frameJson (a : Atlas) (f : Fragment) : Json :=
  .record [("frame", f.rect.toTableJson), ("logo", .bool f.logo),
    ("transparencyKey", ofNat f.transparencyKey.toNat),
    ("uv", (UvRect.ofRect f.rect a.width a.height).toTableJson)]

/-- The fragment table with the description of the atlas. -/
def tableJson (a : Atlas) : Json :=
  .record [
    ("frames", .record (a.placed.map fun (name, f) => (name, a.frameJson f))),
    ("meta", .record [("app", ofText "unit-atlas"), ("format", ofText "I8"),
      ("height", ofNat a.height), ("version", ofText "0.1.0"), ("width", ofNat a.width)])]

end Atlas
end TextureAtlas
