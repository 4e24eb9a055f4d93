import TextureAtlas.Error
import TextureAtlas.Json.Reader
import TextureAtlas.Json.Record
import TextureAtlas.Mesh

/-!
# Mesh trees as documents

A mesh file holds one node or a list of nodes. It is held as a whole before it is read, so that every
text and number in it has to be readable, also in members that no node has.
-/

namespace TextureAtlas
open Json (required orDefault nullable leaf listOf uint32? int32? text? ofNat ofInt ofText)

namespace Vertex

def toJson (v : Vertex) : Json :=
  .record [("x", ofInt v.x.toInt), ("y", ofInt v.y.toInt), ("z", ofInt v.z.toInt)]

def read : Json.Read Vertex := fun depth j => do
  match ← Json.fields? ["x", "y", "z"] depth j with
  | [x, y, z] =>
    let coordinate := required (leaf int32?) (depth - 1)
    return ⟨← coordinate x, ← coordinate y, ← coordinate z⟩
  | _ => none

end Vertex

namespace Primitive

/-- A member that is left off when there is nothing to say. -/
def optional (name : String) (value : Option Json) : List (String × Json) :=
  match value with
  | some j => [(name, j)]
  | none => []

def toJson (p : Primitive) : Json :=
  .record (optional "textureName" (p.textureName.map ofText) ++
    optional "colorIndex" (p.colorIndex.map fun n => ofNat n.toNat) ++
    [("vertices", .array (p.vertices.map fun n => ofNat n.toNat))])

def read : Json.Read Primitive := fun depth j => do
  match ← Json.fields? ["textureName", "colorIndex", "vertices"] depth j with
  | [textureName, colorIndex, vertices] =>
    return ⟨← nullable (leaf text?) (depth - 1) textureName,
      ← nullable (leaf uint32?) (depth - 1) colorIndex,
      ← orDefault [] (listOf (leaf uint32?)) (depth - 1) vertices⟩
  | _ => none

end Primitive

namespace MeshObject

mutual
def toJson : MeshObject → Json
  | node name x y z selection vertices primitives children =>
    .record ([("name", ofText name), ("x", ofInt x.toInt), ("y", ofInt y.toInt),
      ("z", ofInt z.toInt)] ++
      Primitive.optional "selectionPrimitiveIndex" (selection.map fun n => ofNat n.toNat) ++
      [("vertices", .array (vertices.map Vertex.toJson)),
        ("primitives", .array (primitives.map Primitive.toJson)),
        ("children", .array (toJsonAll children))])

def toJsonAll : List MeshObject → List Json
  | [] => []
  | o :: rest => toJson o :: toJsonAll rest
end

mutual
def read : Nat → Json → Option MeshObject
  | 0, _ => none
  | depth + 1, j => do
    match ← Json.fields? ["name", "x", "y", "z", "selectionPrimitiveIndex", "vertices",
        "primitives", "children"] (depth + 1) j with
    | [name, x, y, z, selection, vertices, primitives, children] =>
      let coordinate := orDefault 0 (leaf int32?) depth
      let children ← match children with
        | some j => readList depth j
        | none => some []
      return node (← required (leaf text?) depth name) (← coordinate x) (← coordinate y)
        (← coordinate z) (← nullable (leaf uint32?) depth selection)
        (← orDefault [] (listOf Vertex.read) depth vertices)
        (← orDefault [] (listOf Primitive.read) depth primitives) children
    | _ => none

def readList : Nat → Json → Option (List MeshObject)
  | depth + 1, .array items => items.mapM (read depth)
  | _, _ => none
end

/-- The roots of a unit: a list of nodes, or else one node. -/
def readRoots (depth : Nat) (j : Json) : Option (List MeshObject) :=
  if Json.holdable depth j then
    match readList depth j with
    | some roots => some roots
    | none => (read depth j).map ([·])
  else none

/-- The roots that a JSON text holds. -/
def rootsOfText (s : String) : Except AtlasError (List MeshObject) :=
  match (Json.parse? s).bind (readRoots Json.maxDepth) with
  | some roots => .ok roots
  | none => .error .json

end MeshObject
end TextureAtlas
