import TextureAtlas.Document.Archive
import TextureAtlas.Document.Mesh
import TextureAtlas.Proofs.JsonRecord

/-!
# Archives and mesh trees as texts

Whatever archive is written as a document, it is read back from either text of the document; so is a list of mesh
trees, and a single tree as the list of itself, as far as the document is nested no deeper than a reader goes
(`documents_read_back`). The list is tried first, and a tree is an object, so neither is taken for the other.
-/

namespace TextureAtlas
open Json (ReadsBack Written nesting_record_le nesting_array_le)

/-! ## Archives -/

theorem ArchiveFrame.readsBack : ReadsBack ArchiveFrame.read ArchiveFrame.toJson := by
  intro depth f hdepth
  obtain ⟨d, rfl, hmembers⟩ := nesting_record_le.1 hdepth
  simp only [List.forall_mem_cons, List.not_mem_nil] at hmembers
  obtain ⟨-, -, -, hlayers, -⟩ := hmembers
  have hread := (ReadsBack.of_leaf Json.uint8?_ofNat).listOf.listOf d (f.layers.map Array.toList)
  simp only [List.map_map, Function.comp_def] at hread
  simp [ArchiveFrame.read, ArchiveFrame.toJson, Json.fields?_record, Json.member?, Json.required, Json.orDefault,
    Json.leaf, hread hlayers, Function.comp_def]

theorem ArchiveEntry.readsBack : ReadsBack ArchiveEntry.read ArchiveEntry.toJson := by
  intro depth e hdepth
  obtain ⟨d, rfl, hmembers⟩ := nesting_record_le.1 hdepth
  simp only [List.forall_mem_cons, List.not_mem_nil] at hmembers
  obtain ⟨-, hframes, -⟩ := hmembers
  simp [ArchiveEntry.read, ArchiveEntry.toJson, Json.fields?_record, Json.member?, Json.required, Json.leaf,
    ArchiveFrame.readsBack.listOf d e.frames hframes]

theorem Archive.readsBack : ReadsBack Archive.read Archive.toJson := by
  intro depth a hdepth
  obtain ⟨d, rfl, hmembers⟩ := nesting_record_le.1 hdepth
  simp only [List.forall_mem_cons, List.not_mem_nil] at hmembers
  obtain ⟨-, hentries, -⟩ := hmembers
  simp [Archive.read, Archive.toJson, Json.fields?_record, Json.member?, Json.orDefault, Json.leaf,
    ArchiveEntry.readsBack.listOf d a.entries hentries]

theorem ArchiveFrame.written (f : ArchiveFrame) : Written f.toJson := by
  refine .record ?_
  simp only [List.forall_mem_cons, List.not_mem_nil, false_implies, implies_true, and_true]
  exact ⟨.word32 _, .word32 _, .word32 _, .list (fun layer => .list .word8 layer.toList) f.layers⟩

theorem ArchiveEntry.written (e : ArchiveEntry) : Written e.toJson := by
  refine .record ?_
  simp only [List.forall_mem_cons, List.not_mem_nil, false_implies, implies_true, and_true]
  exact ⟨.text _, .list ArchiveFrame.written e.frames⟩

theorem Archive.written (a : Archive) : Written a.toJson := by
  refine .record ?_
  simp only [List.forall_mem_cons, List.not_mem_nil, false_implies, implies_true, and_true]
  exact ⟨.text _, .list ArchiveEntry.written a.entries⟩

theorem ArchiveFrame.nesting_le (f : ArchiveFrame) : f.toJson.nesting ≤ 3 := by
  refine nesting_record_le.2 ⟨2, rfl, ?_⟩
  simp only [List.forall_mem_cons, List.not_mem_nil, false_implies, implies_true, and_true]
  exact ⟨Nat.zero_le _, Nat.zero_le _, Nat.zero_le _,
    Json.nesting_list_le (fun layer => Json.nesting_list_le (fun _ => Nat.zero_le _) layer.toList) f.layers⟩

theorem ArchiveEntry.nesting_le (e : ArchiveEntry) : e.toJson.nesting ≤ 5 := by
  refine nesting_record_le.2 ⟨4, rfl, ?_⟩
  simp only [List.forall_mem_cons, List.not_mem_nil, false_implies, implies_true, and_true]
  exact ⟨Nat.zero_le _, Json.nesting_list_le ArchiveFrame.nesting_le e.frames⟩

/-- However large it is, an archive opens seven levels. -/
theorem Archive.nesting_le (a : Archive) : a.toJson.nesting ≤ 7 := by
  refine nesting_record_le.2 ⟨6, rfl, ?_⟩
  simp only [List.forall_mem_cons, List.not_mem_nil, false_implies, implies_true, and_true]
  exact ⟨Nat.zero_le _, Json.nesting_list_le ArchiveEntry.nesting_le a.entries⟩

/-! ## Mesh trees -/

theorem Vertex.readsBack : ReadsBack Vertex.read Vertex.toJson := by
  intro depth v hdepth
  obtain ⟨d, rfl, -⟩ := nesting_record_le.1 hdepth
  simp [Vertex.read, Vertex.toJson, Json.fields?_record, Json.member?, Json.required, Json.leaf]

theorem Primitive.readsBack : ReadsBack Primitive.read Primitive.toJson := by
  intro depth p hdepth
  obtain ⟨d, rfl, hmembers⟩ := nesting_record_le.1 hdepth
  obtain ⟨textureName, colorIndex, vertices⟩ := p
  have hvertices := (ReadsBack.of_leaf Json.uint32?_ofNat).listOf d vertices (hmembers ("vertices", _) (by simp))
  cases textureName <;> cases colorIndex <;>
    simp [Primitive.read, Primitive.toJson, Primitive.optional, Json.fields?_record, Json.member?, Json.orDefault,
      Json.leaf, hvertices]

theorem Primitive.mem_optional {name : String} {value : Option Json} {m : String × Json} :
    m ∈ optional name value ↔ ∃ j, value = some j ∧ m = (name, j) := by
  cases value with
  | none => simp [optional]
  | some j => simp [optional]

theorem Vertex.written (v : Vertex) : Written v.toJson := by
  refine .record ?_
  simp only [List.forall_mem_cons, List.not_mem_nil, false_implies, implies_true, and_true]
  exact ⟨.integer v.x, .integer v.y, .integer v.z⟩

theorem Primitive.written (p : Primitive) : Written p.toJson := by
  refine .record fun m hm => ?_
  simp only [List.mem_append, List.mem_cons, List.not_mem_nil, or_false, mem_optional] at hm
  obtain (⟨j, hj, rfl⟩ | ⟨j, hj, rfl⟩) | rfl := hm
  · obtain ⟨s, -, rfl⟩ := Option.map_eq_some_iff.1 hj
    exact .text s
  · obtain ⟨n, -, rfl⟩ := Option.map_eq_some_iff.1 hj
    exact .word32 n
  · exact .list .word32 p.vertices

namespace MeshObject

theorem toJsonAll_eq_map (objects : List MeshObject) : toJsonAll objects = objects.map toJson := by
  induction objects with
  | nil => rfl
  | cons o objects ih => rw [toJsonAll, ih, List.map_cons]

theorem readList_eq (depth : Nat) (j : Json) : readList depth j = Json.listOf read depth j := by
  cases depth with
  | zero => rfl
  | succ depth => cases j <;> rfl

/-- By induction on the depth, which the children have one level less of twice: for their list and for themselves. -/
theorem readsBack : ReadsBack read toJson := by
  intro depth
  induction depth using Nat.strongRecOn with
  | ind depth ih =>
    intro o hdepth
    obtain ⟨name, x, y, z, selection, vertices, primitives, children⟩ := o
    rw [toJson] at hdepth ⊢
    obtain ⟨d, rfl, hmembers⟩ := nesting_record_le.1 hdepth
    have hchildren : readList d (.array (toJsonAll children)) = some children := by
      have hnested := hmembers ("children", .array (toJsonAll children)) (by simp)
      obtain ⟨e, rfl, hitems⟩ := nesting_array_le.1 hnested
      rw [toJsonAll_eq_map] at hitems ⊢
      rw [readList_eq]
      exact Json.listOf_map fun c hc => ih e (by omega) c (hitems _ (List.mem_map_of_mem hc))
    have hvertices := Vertex.readsBack.listOf d vertices (hmembers ("vertices", _) (by simp))
    have hprimitives := Primitive.readsBack.listOf d primitives (hmembers ("primitives", _) (by simp))
    cases selection <;>
      simp [read, Primitive.optional, Json.fields?_record, Json.member?, Json.required, Json.orDefault, Json.leaf,
        hvertices, hprimitives, hchildren]

mutual
theorem written : ∀ o : MeshObject, Written o.toJson
  | node name x y z selection vertices primitives children => by
    rw [toJson]
    refine .record fun m hm => ?_
    simp only [List.mem_append, List.mem_cons, List.not_mem_nil, or_false, Primitive.mem_optional] at hm
    obtain ((rfl | rfl | rfl | rfl) | ⟨j, hj, rfl⟩) | rfl | rfl | rfl := hm
    · exact .text name
    · exact .integer x
    · exact .integer y
    · exact .integer z
    · obtain ⟨n, -, rfl⟩ := Option.map_eq_some_iff.1 hj
      exact .word32 n
    · exact .list Vertex.written vertices
    · exact .list Primitive.written primitives
    · exact .array (writtenAll children)

theorem writtenAll : ∀ objects : List MeshObject, ∀ j ∈ toJsonAll objects, Written j
  | [] => by simp [toJsonAll]
  | o :: objects => by
    rw [toJsonAll, List.forall_mem_cons]
    exact ⟨written o, writtenAll objects⟩
end

/-- Trees in a list are all of it, and the list is no single tree. -/
theorem readRoots_list {depth : Nat} {roots : List MeshObject}
    (hdepth : (Json.array (roots.map toJson)).nesting ≤ depth) :
    readRoots depth (.array (roots.map toJson)) = some roots := by
  rw [readRoots, if_pos ((Written.list written roots).holdable hdepth), readList_eq,
    readsBack.listOf depth roots hdepth]

/-- A tree on its own is no list. -/
theorem readRoots_single {depth : Nat} {o : MeshObject} (hdepth : o.toJson.nesting ≤ depth) :
    readRoots depth o.toJson = some [o] := by
  have hlist : readList depth o.toJson = none := by
    rw [readList_eq]
    cases o
    cases depth <;> rfl
  rw [readRoots, if_pos (o.written.holdable hdepth), hlist, readsBack depth o hdepth]
  rfl

end MeshObject

/-! ## Texts -/

/-- The two texts of a document. -/
def Json.texts (j : Json) : List String := [j.compact, j.pretty]

theorem Json.Written.parse? {j : Json} (h : Written j) {text : String} (htext : text ∈ j.texts) :
    Json.parse? text = some j := by
  simp only [Json.texts, List.mem_cons, List.not_mem_nil, or_false] at htext
  obtain rfl | rfl := htext
  · exact Json.parse?_compact h.wellFormed
  · exact Json.parse?_pretty h.wellFormed

/-- **Documents are read back.** From either text of its document an archive is read as it was written, whatever its
names and entries. So is a list of mesh trees, the empty list too, and a single tree as the list of itself, as long as
the document opens fewer than 128 levels. -/
theorem documents_read_back :
    (∀ a : Archive, ∀ text ∈ a.toJson.texts, Archive.ofText text = .ok a) ∧
    (∀ roots : List MeshObject, (Json.array (roots.map MeshObject.toJson)).nesting < 128 →
      ∀ text ∈ (Json.array (roots.map MeshObject.toJson)).texts, MeshObject.rootsOfText text = .ok roots) ∧
    ∀ o : MeshObject, o.toJson.nesting < 128 → ∀ text ∈ o.toJson.texts, MeshObject.rootsOfText text = .ok [o] := by
  refine ⟨fun a text htext => ?_, fun roots hnesting text htext => ?_, fun o hnesting text htext => ?_⟩
  · have hread := Archive.readsBack Json.maxDepth a (Nat.le_trans a.nesting_le (by decide))
    rw [Archive.ofText, a.written.parse? htext, Option.bind_some, hread]
  · have hread : MeshObject.readRoots Json.maxDepth (.array (roots.map MeshObject.toJson)) = some roots :=
      MeshObject.readRoots_list (Nat.le_of_lt_succ hnesting)
    rw [MeshObject.rootsOfText, (Written.list MeshObject.written roots).parse? htext, Option.bind_some, hread]
  · have hread : MeshObject.readRoots Json.maxDepth o.toJson = some [o] :=
      MeshObject.readRoots_single (Nat.le_of_lt_succ hnesting)
    rw [MeshObject.rootsOfText, o.written.parse? htext, Option.bind_some, hread]

/-- A node with a name that has to be escaped, extreme coordinates and every field, above a child with none. -/
def mastTree : MeshObject :=
  .node "m\"ä\n" (-2147483648) 2147483647 0 (some 4294967295) [⟨1, -1, 0⟩] [⟨some "", some 0, [0, 4294967295]⟩]
    [.node "" 0 0 0 none [] [⟨none, none, []⟩] []]

theorem mast_reads_back :
    (Json.array ([mastTree, mastTree].map MeshObject.toJson)).nesting < 128 ∧ mastTree.toJson.nesting < 128 ∧
    MeshObject.rootsOfText (Json.array ([mastTree, mastTree].map MeshObject.toJson)).pretty =
      .ok [mastTree, mastTree] ∧
    MeshObject.rootsOfText mastTree.toJson.compact = .ok [mastTree] := by
  have hmany : (Json.array ([mastTree, mastTree].map MeshObject.toJson)).nesting < 128 := by decide
  have hone : mastTree.toJson.nesting < 128 := by decide
  exact ⟨hmany, hone, documents_read_back.2.1 _ hmany _ (by simp [Json.texts]),
    documents_read_back.2.2 _ hone _ (by simp [Json.texts])⟩

end TextureAtlas
