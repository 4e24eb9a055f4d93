import TextureAtlas.Document.Geometry
import TextureAtlas.Mesh

/-!
# A unit for the renderer

The mesh trees of a unit in world units, each face with the corners of its texture on the atlas. A
face with a texture takes the coordinates of the texture, one with a palette index alone those of its
swatch, any other the zero rectangle. Keys are written in ascending order.
-/

namespace TextureAtlas
open Json (ofNat ofDouble ofText)

/-- A 16.16 fixed-point coordinate in world units. -/
def worldUnits (n : Int32) : Json := ofDouble (n.toFloat / 65536)

namespace Primitive

/-- The names whose coordinates the face looks up, in order; the last one decides. -/
def sampledNames (p : Primitive) : List String :=
  (p.colorIndex.map ColorIndex.name).toList ++ p.textureName.toList

/-- Texture coordinates of the face. -/
def uv (p : Primitive) (a : Atlas) : UvRect := (p.sampledNames.map a.uv).getLastD .zero

/-- The face for the renderer. -/
def toUnitJson (p : Primitive) (a : Atlas) : Json :=
  let uv := p.uv a
  .record (
    (match p.colorIndex with
      | some n => [("colorIndex", ofNat n.toNat), ("colorIndexTextureName", ofText (ColorIndex.name n))]
      | none => []) ++
    (match p.textureName with
      | some t => [("textureName", ofText t)]
      | none => []) ++
    [("uvmax", .array [ofDouble uv.uMax, ofDouble uv.vMax]),
      ("uvmin", .array [ofDouble uv.uMin, ofDouble uv.vMin]),
      ("vertices", .array (p.vertices.map fun n => ofNat n.toNat))])

end Primitive

/-- The corner for the renderer. -/
def Vertex.toUnitJson (v : Vertex) : Json :=
  .record [("x", worldUnits v.x), ("y", worldUnits v.y), ("z", worldUnits v.z)]

namespace MeshObject

mutual
/-- The tree for the renderer. -/
def toUnitJson (a : Atlas) : MeshObject → Json
  | node name x y z selection vertices primitives children =>
    .record (
      [("children", .array (toUnitJsonAll a children)), ("name", ofText name),
        ("primitives", .array (primitives.map fun p => p.toUnitJson a))] ++
      (match selection with
        | some n => [("selectionPrimitiveIndex", ofNat n.toNat)]
        | none => []) ++
      [("vertices", .array (vertices.map Vertex.toUnitJson)), ("x", worldUnits x),
        ("y", worldUnits y), ("z", worldUnits z)])

def toUnitJsonAll (a : Atlas) : List MeshObject → List Json
  | [] => []
  | o :: rest => toUnitJson a o :: toUnitJsonAll a rest
end

/-- The looked-up names under which the atlas has no placed fragment, in the order of the look-ups. -/
def unknownNames (o : MeshObject) (a : Atlas) : List String :=
  (o.preorder.flatMap (·.primitives)).flatMap fun p =>
    p.sampledNames.filter fun name => (a.placed? name).isNone

end MeshObject

/-- The unit for the renderer: each root with its own atlas. -/
def unitJson (unit : String) (roots : List (MeshObject × Atlas)) : Json :=
  .record [(unit, .array (roots.map fun (o, a) => o.toUnitJson a))]

end TextureAtlas
