import Mathlib.Data.List.Forall2
import TextureAtlas.Document.Metadata
import TextureAtlas.Document.UnitMesh
import TextureAtlas.Proofs.Atlas
import TextureAtlas.Proofs.Json
import TextureAtlas.Proofs.Table

/-!
# A unit and the fragment table of its atlas

Two documents tell texture coordinates: the description of a unit does so face by face, and the fragment table
of the atlas name by name. The description has the shape of the mesh tree, and the corners of each face are
those that the table lists for the fragment which the face samples (`unit_document_agrees_with_table`).
-/

namespace TextureAtlas
open Json (text? uint32? listOf leaf)

/-! ## The fragment table -/

section
variable {a : Atlas} {name : String} {f : Fragment} {entry : Json}

/-- What the fragment table lists under a name. -/
def Atlas.listed? (a : Atlas) (name : String) : Option Json := (a.tableJson.field? "frames").bind (·.field? name)

theorem Atlas.field?_frames (a : Atlas) :
    a.tableJson.field? "frames" = some (.record (a.placed.map fun e => (e.1, a.frameJson e.2))) := by
  refine (Json.field?_record_eq_some ?_).2 ?_
  · simp
  · simp

theorem Atlas.listed?_eq_some : a.listed? name = some entry ↔ ∃ f, a.placed? name = some f ∧ entry = a.frameJson f := by
  have hdistinct : ((a.placed.map fun e => (e.1, a.frameJson e.2)).map (·.1)).Nodup := by
    rw [List.map_map]
    exact a.nodup_placed
  rw [listed?, field?_frames, Option.bind_some, Json.field?_record_eq_some hdistinct]
  simp only [List.mem_map, Prod.mk.injEq, Prod.exists, ← mem_placed]
  constructor
  · rintro ⟨_, f, hf, rfl, rfl⟩
    exact ⟨f, hf, rfl⟩
  · rintro ⟨f, hf, rfl⟩
    exact ⟨name, f, hf, rfl, rfl⟩

theorem Atlas.listed?_eq_none : a.listed? name = none ↔ a.placed? name = none := by
  rw [← Option.not_isSome_iff_eq_none, ← Option.not_isSome_iff_eq_none, not_iff_not,
    Option.isSome_iff_exists, Option.isSome_iff_exists]
  simp [listed?_eq_some]

end

namespace UvRect
variable (uv : UvRect)

theorem field?_uMin : uv.toTableJson.field? "uMin" = some (.ofDouble uv.uMin) := by
  simp [toTableJson, Json.field?_record, Json.member?]

theorem field?_vMin : uv.toTableJson.field? "vMin" = some (.ofDouble uv.vMin) := by
  simp [toTableJson, Json.field?_record, Json.member?]

theorem field?_uMax : uv.toTableJson.field? "uMax" = some (.ofDouble uv.uMax) := by
  simp [toTableJson, Json.field?_record, Json.member?]

theorem field?_vMax : uv.toTableJson.field? "vMax" = some (.ofDouble uv.vMax) := by
  simp [toTableJson, Json.field?_record, Json.member?]

end UvRect

/-! ## The description of a unit -/

/-- The zero coordinate. -/
def Json.zero : Json := .number ['0', '.', '0']

/-- A face in the description: its texture, its palette index, the vertices it joins, and its corners. These are
the ones that the table lists for the fragment which the face samples, and zero if it lists none. -/
structure Primitive.ShownAs (a : Atlas) (p : Primitive) (j : Json) : Prop where
  texture : (j.field? "textureName").bind text? = p.textureName
  color : (j.field? "colorIndex").bind uint32? = p.colorIndex
  vertices : (j.field? "vertices").bind (listOf (leaf uint32?) 1) = some p.vertices
  listed : ∀ name entry, p.fragmentName = some name → a.listed? name = some entry →
    ∃ uv left top right bottom, entry.field? "uv" = some uv ∧
      uv.field? "uMin" = some left ∧ uv.field? "vMin" = some top ∧
      uv.field? "uMax" = some right ∧ uv.field? "vMax" = some bottom ∧
      j.field? "uvmin" = some (.array [left, top]) ∧ j.field? "uvmax" = some (.array [right, bottom])
  unlisted : (∀ name, p.fragmentName = some name → a.listed? name = none) →
    j.field? "uvmin" = some (.array [.zero, .zero]) ∧ j.field? "uvmax" = some (.array [.zero, .zero])

/-- A corner in the description, in world units. -/
structure Vertex.ShownAs (v : Vertex) (j : Json) : Prop where
  x : j.field? "x" = some (worldUnits v.x)
  y : j.field? "y" = some (worldUnits v.y)
  z : j.field? "z" = some (worldUnits v.z)

/-- A tree in the description: at every node the same name, place and selection, and the same corners, faces and
children in the same order. -/
inductive MeshObject.ShownAs (a : Atlas) : MeshObject → Json → Prop
  | node {o : MeshObject} {j : Json} {vertices primitives children : List Json}
      (name : (j.field? "name").bind text? = some o.name)
      (origin : Vertex.ShownAs ⟨o.x, o.y, o.z⟩ j)
      (selection : (j.field? "selectionPrimitiveIndex").bind uint32? = o.selection)
      (verticesField : j.field? "vertices" = some (.array vertices))
      (verticesShown : List.Forall₂ Vertex.ShownAs o.vertices vertices)
      (primitivesField : j.field? "primitives" = some (.array primitives))
      (primitivesShown : List.Forall₂ (Primitive.ShownAs a) o.primitives primitives)
      (childrenField : j.field? "children" = some (.array children))
      (childrenShown : List.Forall₂ (MeshObject.ShownAs a) o.children children) : ShownAs a o j

section
variable (a : Atlas)

/-- The texture of a face wins over its colour, in the description as in the choice of the fragment. -/
theorem Primitive.uv_eq (p : Primitive) : p.uv a = (p.fragmentName.map a.uv).getD .zero := by
  unfold uv sampledNames fragmentName
  cases p.textureName <;> cases p.colorIndex <;> rfl

theorem Primitive.field?_uvmin (p : Primitive) : (p.toUnitJson a).field? "uvmin" =
    some (.array [.ofDouble (p.uv a).uMin, .ofDouble (p.uv a).vMin]) := by
  unfold toUnitJson
  cases p.textureName <;> cases p.colorIndex <;> simp [Json.field?_record, Json.member?]

theorem Primitive.field?_uvmax (p : Primitive) : (p.toUnitJson a).field? "uvmax" =
    some (.array [.ofDouble (p.uv a).uMax, .ofDouble (p.uv a).vMax]) := by
  unfold toUnitJson
  cases p.textureName <;> cases p.colorIndex <;> simp [Json.field?_record, Json.member?]

theorem Primitive.field?_vertices (p : Primitive) : (p.toUnitJson a).field? "vertices" =
    some (.array (p.vertices.map fun n => .ofNat n.toNat)) := by
  unfold toUnitJson
  cases p.textureName <;> cases p.colorIndex <;> simp [Json.field?_record, Json.member?]

theorem Primitive.shownAs_toUnitJson (p : Primitive) : p.ShownAs a (p.toUnitJson a) where
  texture := by
    unfold toUnitJson
    cases p.textureName <;> cases p.colorIndex <;> simp [Json.field?_record, Json.member?]
  color := by
    unfold toUnitJson
    cases p.textureName <;> cases p.colorIndex <;> simp [Json.field?_record, Json.member?]
  vertices := by
    rw [field?_vertices, Option.bind_some]
    exact Json.listOf_map fun n _ => Json.uint32?_ofNat n
  listed := by
    intro name entry hname hentry
    obtain ⟨f, hf, rfl⟩ := Atlas.listed?_eq_some.1 hentry
    have huv : p.uv a = .ofRect f.rect a.width a.height := by
      rw [uv_eq, hname, Option.map_some, Option.getD_some, Atlas.uv, hf]
    have hfield : (a.frameJson f).field? "uv" = some (UvRect.ofRect f.rect a.width a.height).toTableJson := by
      simp [Atlas.frameJson, Json.field?_record, Json.member?]
    have hmin := field?_uvmin a p
    have hmax := field?_uvmax a p
    rw [huv] at hmin hmax
    exact ⟨_, _, _, _, _, hfield, UvRect.field?_uMin _, UvRect.field?_vMin _, UvRect.field?_uMax _,
      UvRect.field?_vMax _, hmin, hmax⟩
  unlisted := by
    intro hnone
    have huv : p.uv a = .zero := by
      rw [uv_eq]
      cases hname : p.fragmentName with
      | none => rfl
      | some name =>
        have hplaced := Atlas.listed?_eq_none.1 (hnone name hname)
        rw [Option.map_some, Option.getD_some, Atlas.uv, hplaced]
    rw [field?_uvmin, field?_uvmax, huv]
    exact ⟨rfl, rfl⟩

theorem Vertex.shownAs_toUnitJson (v : Vertex) : v.ShownAs v.toUnitJson where
  x := by simp [toUnitJson, Json.field?_record, Json.member?]
  y := by simp [toUnitJson, Json.field?_record, Json.member?]
  z := by simp [toUnitJson, Json.field?_record, Json.member?]

mutual
theorem MeshObject.shownAs_toUnitJson : ∀ o : MeshObject, o.ShownAs a (o.toUnitJson a)
  | .node n x y z selection vertices primitives children => by
    have hchildren := MeshObject.shownAs_toUnitJsonAll children
    have hprimitives : List.Forall₂ (Primitive.ShownAs a) primitives (primitives.map fun p => p.toUnitJson a) :=
      List.forall₂_map_right_iff.2 (List.forall₂_same.2 fun p _ => p.shownAs_toUnitJson a)
    have hvertices : List.Forall₂ Vertex.ShownAs vertices (vertices.map Vertex.toUnitJson) :=
      List.forall₂_map_right_iff.2 (List.forall₂_same.2 fun v _ => v.shownAs_toUnitJson)
    refine .node ?name ⟨?x, ?y, ?z⟩ ?selection ?vertices hvertices ?primitives hprimitives ?children hchildren
    all_goals
      unfold toUnitJson
      cases selection <;> simp [Json.field?_record, Json.member?, name, MeshObject.x, MeshObject.y, MeshObject.z,
        MeshObject.selection]

theorem MeshObject.shownAs_toUnitJsonAll :
    ∀ trees : List MeshObject, List.Forall₂ (MeshObject.ShownAs a) trees (MeshObject.toUnitJsonAll a trees)
  | [] => .nil
  | o :: rest => .cons (MeshObject.shownAs_toUnitJson o) (MeshObject.shownAs_toUnitJsonAll rest)
end

end

/-- **A unit's description agrees with the fragment table.** It has the shape of the mesh tree, and the corners of
each face are those listed for the fragment that the face samples; a face without a listed fragment has zero
corners. The table lists the placed fragments, each once. -/
theorem unit_document_agrees_with_table (a : Atlas) (o : MeshObject) :
    o.ShownAs a (o.toUnitJson a) ∧
      ∃ frames names, a.tableJson.field? "frames" = some frames ∧ frames.names? = some names ∧ names.Nodup ∧
        ∀ name, (name ∈ names ↔ ∃ f, a.fragments.get? name = some f ∧ f.placed = true) ∧
          (name ∈ names ↔ (a.listed? name).isSome = true) := by
  refine ⟨o.shownAs_toUnitJson a, _, _, a.field?_frames, Json.names?_record _, ?_, fun name => ?_⟩
  · rw [List.map_map]
    exact a.nodup_placed
  · have hnames : name ∈ (a.placed.map fun e => (e.1, a.frameJson e.2)).map (·.1) ↔
        ∃ f, a.placed? name = some f := by
      simp [← Atlas.mem_placed]
    refine ⟨hnames.trans ?_, hnames.trans ?_⟩
    · simp [Atlas.placed?]
    · rw [Option.isSome_iff_exists]
      simp [Atlas.listed?_eq_some]

end TextureAtlas
