import TextureAtlas.Proofs.Conversion
import TextureAtlas.Proofs.SizeSearch

/-!
# Which rasters are left

A conversion writes the rasters of each root, but names the files for the unit and the canvas size. An atlas
is found in its files unless a later root's atlas has the same size (`rasters_kept_unless_size_recurs`).
-/

namespace TextureAtlas.CommandLine

/-- The files named for the unit and the size of the atlas hold its palette indices and its team-colour
mask. -/
def HoldsRasters (t : FileTree) (ws : Workspace) (unit : String) (outDir : Path) (a : Atlas) : Prop :=
  let exports := a.exportAll ws.palette ws.settings.logoThreshold
  t.read (outDir.join (rasterFile unit "Albedo" a.width a.height "data")) = .ok (.bytes ⟨exports.indexed⟩) ∧
    t.read (outDir.join (rasterFile unit "SpecTeam" a.width a.height "data")) =
      .ok (.bytes exports.teamMask.toBytes)

variable {ws : Workspace} {unit : String} {outDir : Path} {s : Session} {json : Json} {t : FileTree}

/-- Where names differ, what comes after an element has other names. -/
theorem exists_split_of_nodup {α β : Type} {name : α → β} {l : List α} (hl : (l.map name).Nodup) {x : α}
    (hx : x ∈ l) : ∃ before after, l = before ++ x :: after ∧ ∀ y ∈ after, name y ≠ name x := by
  obtain ⟨before, after, rfl⟩ := List.append_of_mem hx
  refine ⟨before, after, rfl, fun y hy he => ?_⟩
  rw [List.map_append, List.map_cons, List.nodup_append] at hl
  have hnot := (List.nodup_cons.1 hl.2.1).1
  exact hnot (he ▸ List.mem_map_of_mem hy)

/-- A file of an atlas is left if no later atlas has a file of that name. -/
theorem read_of_mem_atlasFiles {p : Path} {before after : List (MeshObject × Atlas)} {root : MeshObject}
    {a : Atlas} {files : FileTree}
    (hw : files.writeAll p ((before ++ (root, a) :: after).flatMap fun q => atlasFiles ws q.2) = .ok t)
    {f : String × FileContent} (hf : f ∈ atlasFiles ws a)
    (hlast : ∀ q ∈ after, ∀ g ∈ atlasFiles ws q.2, g.1 ≠ f.1) :
    t.read (p.extended f.1) = .ok f.2 := by
  obtain ⟨first, rest, hsplit, hrest⟩ := exists_split_of_nodup (nodup_atlasFiles ws a) hf
  have hfiles : ((before ++ (root, a) :: after).flatMap fun q => atlasFiles ws q.2) =
      ((before.flatMap fun q => atlasFiles ws q.2) ++ first) ++
        (f.1, f.2) :: (rest ++ after.flatMap fun q => atlasFiles ws q.2) := by
    simp [hsplit]
  have htails := isTail_of_mem_flatMap ws (before ++ (root, a) :: after)
  rw [hfiles] at hw htails
  refine FileTree.read_writeAll htails (fun g hg => ?_) hw
  rcases List.mem_append.1 hg with hg | hg
  · exact hrest g hg
  · obtain ⟨q, hq, hg⟩ := List.mem_flatMap.1 hg
    exact hlast q hq g hg

/-- What a conversion composes is determined by the roots. -/
theorem composed_unique {index : TextureIndex} {settings : Settings} {l l' : List (MeshObject × Atlas)}
    (hroots : l.map (·.1) = l'.map (·.1))
    (h : ∀ p ∈ l, compose p.1.referencedFragments index settings = .ok (some p.2))
    (h' : ∀ p ∈ l', compose p.1.referencedFragments index settings = .ok (some p.2)) : l = l' := by
  induction l generalizing l' with
  | nil => exact (List.map_eq_nil_iff.1 hroots.symm).symm
  | cons p l ih =>
    obtain ⟨q, rest, rfl, hq, hrest⟩ := List.map_eq_cons_iff.1 hroots.symm
    rw [List.forall_mem_cons] at h h'
    have hsame : p.2 = q.2 := by
      have hcomposed := h'.1
      rw [hq, h.1] at hcomposed
      exact Option.some.inj (Except.ok.inj hcomposed)
    rw [Prod.ext hq.symm hsame, ih hrest.symm h.2 h'.2]

/-! ## A unit in a few colours -/

/-- A data directory `d` with the mesh of a unit `u` and nothing else. -/
def meshTree (text : String) : FileTree where
  nodes := .ofList [(["d"], .directory), (["d", "objects3d"], .directory),
    (["d", "objects3d", "u.json"], .file (.ofText text))]

/-- Swatches of one pixel, on a canvas of one or of four. -/
def tinySettings : Settings := { minWidth := 1, maxWidth := 2, tallVariants := false, swatchSize := 1 }

def tinyWorkspace : Workspace where
  dataDirs := [⟨"d"⟩]
  settings := tinySettings
  palette := ⟨#[0, 0, 0, 0]⟩
  index := .ofArchives []
  png := false
  metadata := false

/-- A node with a face in each of the colours. -/
def coloredNode (name : String) (colors : List UInt32) : MeshObject :=
  .node name 0 0 0 none [] (colors.map fun n => { colorIndex := some n }) []

theorem findMesh_meshTree (text : String) :
    (meshTree text).findMesh [⟨"d"⟩] "u" = some ⟨"d/objects3d/u.json"⟩ := rfl

theorem loadMesh_meshTree (text : String) :
    (meshTree text).loadMesh ⟨"d/objects3d/u.json"⟩ = MeshObject.rootsOfText text := by
  have hbytes : (meshTree text).readBytes ⟨"d/objects3d/u.json"⟩ = .ok text.toUTF8 := rfl
  have hutf8 : String.fromUTF8? text.toUTF8 = some text := dif_pos text.isValidUTF8
  have htext : (meshTree text).readText ⟨"d/objects3d/u.json"⟩ = .ok text := by
    rw [FileTree.readText, hbytes]
    simp only [bind, Except.bind, hutf8]
    rfl
  rw [FileTree.loadMesh, htext]
  rfl

/-- In such a tree a conversion goes well if an atlas is composed for each root. -/
theorem exists_leaves_of_composed {text : String} {composed : List (MeshObject × Atlas)}
    (hroots : MeshObject.rootsOfText text = .ok (composed.map (·.1))) (hne : composed ≠ [])
    (hcomposed : ∀ p ∈ composed, compose p.1.referencedFragments (.ofArchives []) tinySettings =
      .ok (some p.2)) :
    ∃ t, Run.Leaves (convertUnit tinyWorkspace "u" ⟨"."⟩) { files := meshTree text }
      (unitJson "u" composed) t := by
  have htails := isTail_of_mem_flatMap tinyWorkspace composed
  have hopens : (meshTree text).Opens ((Path.mk ".").join "u") [] := ⟨rfl, rfl⟩
  have hnot : ∀ tail, (meshTree text).node? ([] ++ ["u" ++ tail]) ≠ some .directory := by
    intro tail
    have hname : "u" ++ tail ≠ "d" := by
      intro h
      have := congrArg String.toList h
      simp at this
    have hnone : (meshTree text).node? ["u" ++ tail] = none := by
      have hentries : (meshTree text).nodes.entries = [(["d"], .directory), (["d", "objects3d"], .directory),
        (["d", "objects3d", "u.json"], .file (.ofText text))] := rfl
      simp [FileTree.node?, Table.get?, hentries, Table.lookupIn, hname]
    simp [hnone]
  obtain ⟨t, ht⟩ := FileTree.exists_writeAll htails hopens fun f _ => hnot f.1
  exact ⟨t, leaves_convertUnit.2 ⟨_, composed, findMesh_meshTree text,
    (loadMesh_meshTree text).trans hroots, hne, hcomposed, ht, rfl⟩⟩

theorem referencedFragments_coloredNode (name : String) (colors : List UInt32) :
    (coloredNode name colors).referencedFragments = .ofNames (colors.map ColorIndex.name) := by
  simp [coloredNode, MeshObject.referencedFragments, MeshObject.gather, MeshObject.children,
    MeshObject.ownFragments, MeshObject.primitives, List.filterMap_map, Function.comp_def,
    Primitive.fragmentName, NameTable.ofNames]

theorem compose_tinySettings (names : NameSet) :
    compose names (.ofArchives []) tinySettings = .ok ([(1, 1), (2, 2)].findSome? fun p =>
      (composeAtSize names (.ofArchives []) tinySettings p.1 p.2).toOption) := by
  have hvalid : tinySettings.Valid := rfl
  have hnext : Sizes.next? false 2 1 1 = some (2, 2) := rfl
  have hsizes : tinySettings.sizes = [(1, 1), (2, 2)] := by
    have hlist : Sizes.listFrom false 2 1 1 Nat.one_pos = [(1, 1), (2, 2)] := by
      rw [Sizes.listFrom_of_some hnext Nat.two_pos, Sizes.listFrom_of_none rfl]
    exact hlist
  rw [compose_eq_findSome? hvalid, hsizes]

/-- One colour fills a canvas of one pixel. -/
theorem exists_compose_one {n : UInt32} (hn : n ∈ [1, 2]) (name : String) :
    ∃ a, compose (coloredNode name [n]).referencedFragments (.ofArchives []) tinySettings = .ok (some a) ∧
      a.width = 1 ∧ a.height = 1 ∧ a.indices = #[n.toUInt8] := by
  rw [referencedFragments_coloredNode, compose_tinySettings, List.findSome?_cons,
    composeAtSize_eq_layout _ _ _ (by decide) (by decide) (by decide)]
  rcases List.mem_pair.1 hn with rfl | rfl
  · exact ⟨_, rfl, rfl, rfl, rfl⟩
  · exact ⟨_, rfl, rfl, rfl, rfl⟩

/-- Two colours do not fit on one pixel. -/
theorem exists_compose_two (name : String) :
    ∃ a, compose (coloredNode name [2, 3]).referencedFragments (.ofArchives []) tinySettings = .ok (some a) ∧
      a.width = 2 := by
  rw [referencedFragments_coloredNode, compose_tinySettings]
  simp only [List.findSome?_cons]
  rw [composeAtSize_eq_layout _ _ _ (by decide) (by decide) (by decide),
    composeAtSize_eq_layout _ _ _ (by decide) (by decide) (by decide)]
  exact ⟨_, rfl, rfl⟩

/-- Three roots, each record as the list of its fields: `a` has a face in colour 1, `b` one in colour 2 and
one in colour 3, and `c` one in colour 2. -/
def threeRoots : String :=
  r#"[["a",0,0,0,null,[],[[null,1]]],["b",0,0,0,null,[],[[null,2],[null,3]]],["c",0,0,0,null,[],[[null,2]]]]"#

theorem rootsOfText_threeRoots : MeshObject.rootsOfText threeRoots =
    .ok [coloredNode "a" [1], coloredNode "b" [2, 3], coloredNode "c" [2]] := by
  have hparse : Json.parse? threeRoots = some (.array [
      .array [.string ['a'], .number ['0'], .number ['0'], .number ['0'], .null, .array [],
        .array [.array [.null, .number ['1']]]],
      .array [.string ['b'], .number ['0'], .number ['0'], .number ['0'], .null, .array [],
        .array [.array [.null, .number ['2']], .array [.null, .number ['3']]]],
      .array [.string ['c'], .number ['0'], .number ['0'], .number ['0'], .null, .array [],
        .array [.array [.null, .number ['2']]]]]) := by
    simp [threeRoots, Json.parse?, Json.value?, Json.items?, Json.skipBlanks, Json.isBlank, Json.quoted?,
      Json.literal?, Json.numeral?, Json.unsigned?, Json.wholePart?, Json.digits1?, Json.isDigit,
      Json.fractionPart?, Json.exponentPart?]
  rw [MeshObject.rootsOfText, hparse]
  rfl

/-- The first and the third root have atlases of one size, the second has a larger one. -/
theorem exists_leaves_threeRoots : ∃ a b c t,
    Run.Leaves (convertUnit tinyWorkspace "u" ⟨"."⟩) { files := meshTree threeRoots }
      (unitJson "u" [(coloredNode "a" [1], a), (coloredNode "b" [2, 3], b), (coloredNode "c" [2], c)]) t ∧
    (∀ composed path, (meshTree threeRoots).findMesh [⟨"d"⟩] "u" = some path →
      (meshTree threeRoots).loadMesh path = .ok (composed.map (·.1)) →
      (∀ p ∈ composed, compose p.1.referencedFragments (.ofArchives []) tinySettings = .ok (some p.2)) →
        composed = [(coloredNode "a" [1], a), (coloredNode "b" [2, 3], b), (coloredNode "c" [2], c)]) ∧
    (a.width = 1 ∧ a.height = 1 ∧ a.indices = #[1]) ∧ b.width = 2 ∧
      (c.width = 1 ∧ c.height = 1 ∧ c.indices = #[2]) := by
  obtain ⟨a, ha, hasize⟩ := exists_compose_one (n := 1) (by decide) "a"
  obtain ⟨b, hb, hbsize⟩ := exists_compose_two "b"
  obtain ⟨c, hc, hcsize⟩ := exists_compose_one (n := 2) (by decide) "c"
  have hall : ∀ p ∈ [(coloredNode "a" [1], a), (coloredNode "b" [2, 3], b), (coloredNode "c" [2], c)],
      compose p.1.referencedFragments (.ofArchives []) tinySettings = .ok (some p.2) := by
    simp [ha, hb, hc]
  obtain ⟨t, ht⟩ := exists_leaves_of_composed rootsOfText_threeRoots (List.cons_ne_nil _ _) hall
  refine ⟨a, b, c, t, ht, fun composed path hpath hload hcomposed => ?_, hasize, hbsize, hcsize⟩
  obtain rfl := Option.some.inj ((findMesh_meshTree _).symm.trans hpath)
  have hroots := hload.symm.trans ((loadMesh_meshTree threeRoots).trans rootsOfText_threeRoots)
  exact composed_unique (Except.ok.inj hroots) hcomposed hall

/-! ## The files in the end -/

/-- **The last atlas of a size is the one in the files.** A conversion that ends well has composed an atlas
for each root of the unit's mesh, and describes the unit by them. In the end the files named for the size of
an atlas hold its palette indices and its team-colour mask, if no atlas of a later root has the same size. -/
theorem rasters_kept_unless_size_recurs (h : Run.Leaves (convertUnit ws unit outDir) s json t) :
    ∃ path composed, s.files.findMesh ws.dataDirs unit = some path ∧
      s.files.loadMesh path = .ok (composed.map (·.1)) ∧ composed ≠ [] ∧
      (∀ p ∈ composed, compose p.1.referencedFragments ws.index ws.settings = .ok (some p.2)) ∧
      json = unitJson unit composed ∧
      ∀ before root a after, composed = before ++ (root, a) :: after →
        (∀ p ∈ after, ¬ (p.2.width = a.width ∧ p.2.height = a.height)) →
          HoldsRasters t ws unit outDir a := by
  obtain ⟨path, composed, hpath, hload, hne, hcomposed, hw, hjson⟩ := leaves_convertUnit.1 h
  refine ⟨path, composed, hpath, hload, hne, hcomposed, hjson, ?_⟩
  rintro before root a after rfl hsizes
  have hread : ∀ kind content, IsKind kind →
      (rasterTail kind a.width a.height "data", content) ∈ atlasFiles ws a →
        t.read (outDir.join (rasterFile unit kind a.width a.height "data")) = .ok content := by
    intro kind content hk hmem
    rw [rasterFile_eq, Path.join_append (isTail_of_mem_atlasFiles hmem)]
    refine read_of_mem_atlasFiles hw hmem fun q hq g hg hname => ?_
    exact hsizes q hq (size_of_mem_atlasFiles hg hk hname)
  exact ⟨hread "Albedo" _ (.inl rfl) (by simp [atlasFiles]), hread "SpecTeam" _ (.inr rfl) (by simp [atlasFiles])⟩

/-- The atlases of the second and the third root are left. -/
theorem rasters_kept_of_last_sizes : ∃ b c json t,
    Run.Leaves (convertUnit tinyWorkspace "u" ⟨"."⟩) { files := meshTree threeRoots } json t ∧
      b.width ≠ c.width ∧ HoldsRasters t tinyWorkspace "u" ⟨"."⟩ b ∧ HoldsRasters t tinyWorkspace "u" ⟨"."⟩ c := by
  obtain ⟨a, b, c, t, ht, hunique, -, hb, hc, -⟩ := exists_leaves_threeRoots
  obtain ⟨path, composed, hpath, hload, -, hcomposed, -, hlast⟩ := rasters_kept_unless_size_recurs ht
  obtain rfl := hunique composed path hpath hload hcomposed
  have hsize : b.width ≠ c.width := by simp [hb, hc]
  refine ⟨b, c, _, t, ht, hsize, hlast [_] _ b [(coloredNode "c" [2], c)] rfl ?_, hlast [_, _] _ c [] rfl ?_⟩
  · simp [hsize.symm]
  · simp

/-- The atlas of the first root is written over by that of the third. -/
theorem raster_lost_to_equal_size :
    ¬ ∀ (ws : Workspace) (unit : String) (outDir : Path) (s : Session) (json : Json) (t : FileTree),
      Run.Leaves (convertUnit ws unit outDir) s json t →
        ∃ path composed, s.files.findMesh ws.dataDirs unit = some path ∧
          s.files.loadMesh path = .ok (composed.map (·.1)) ∧
          (∀ p ∈ composed, compose p.1.referencedFragments ws.index ws.settings = .ok (some p.2)) ∧
          json = unitJson unit composed ∧ ∀ p ∈ composed, HoldsRasters t ws unit outDir p.2 := by
  intro h
  obtain ⟨a, b, c, t, ht, hunique, ⟨hw, hh, ha⟩, -, hw', hh', hc⟩ := exists_leaves_threeRoots
  obtain ⟨path, composed, hpath, hload, hcomposed, -, hholds⟩ := h _ _ _ _ _ _ ht
  obtain rfl := hunique composed path hpath hload hcomposed
  -- Both atlases would have to be in one and the same file.
  have hfirst := (hholds (coloredNode "a" [1], a) (by simp)).1
  have hthird := (hholds (coloredNode "c" [2], c) (by simp)).1
  rw [hw, hh] at hfirst
  rw [hw', hh', hfirst] at hthird
  simp [Atlas.exportAll, ha, hc] at hthird

end TextureAtlas.CommandLine
