import TextureAtlas.CommandLine.Convert
import TextureAtlas.Proofs.Run
import TextureAtlas.Proofs.Tree

/-!
# Discovered units and their meshes

Units are discovered by walks that take the extension `json` in any case (`FileTree.mem_units`), and their
meshes are looked for by path, in lower case. The two agree on the units that some walk has met in lower case
(`discovered_unit_resolves_iff`).
-/

namespace TextureAtlas

namespace Path
variable {p : Path} {unit extension : String}

theorem isName_objects3d : IsName "objects3d" := by decide

theorem isName_of_extension (h : '/' ∉ unit.toList) (hext : IsJsonExtension extension) :
    IsName (unit ++ "." ++ extension) := by
  have hlower : '.' :: extension.toList.map Char.toLower = ['.', 'j', 's', 'o', 'n'] := by rw [hext]; rfl
  have hlength : extension.toList.length = 4 := by
    have := congrArg List.length hlower
    simpa using this
  have hslash : '/' ∉ extension.toList := by
    intro hmem
    have hmapped := List.mem_map_of_mem (f := Char.toLower) hmem
    rw [hext] at hmapped
    exact absurd hmapped (by decide)
  have hlong : ∀ other : String, other.toList.length < 5 → unit ++ "." ++ extension ≠ other := by
    rintro other hshort rfl
    have hdot : ".".toList.length = 1 := rfl
    simp only [String.toList_append, List.length_append, hlength, hdot] at hshort
    omega
  exact ⟨hlong _ (by decide), by simp [h, hslash], hlong _ (by decide), hlong _ (by decide)⟩

theorem append_json (unit : String) : unit ++ ".json" = unit ++ "." ++ "json" := by
  rw [String.append_assoc]
  rfl

theorem isName_json (h : '/' ∉ unit.toList) : IsName (unit ++ ".json") := by
  rw [append_json]
  exact isName_of_extension h rfl

end Path

namespace FileTree
variable {t : FileTree} {glob : Glob} {dirs : List Path} {d objects : Path} {unit : String}

/-- Where the mesh of a unit may lie below a data directory, its extension spelled in some way. -/
def meshFile (d : Path) (unit extension : String) : Path := (d.join "objects3d").join (unit ++ "." ++ extension)

theorem joinAll_meshFile (d : Path) (unit : String) :
    d.joinAll ["objects3d", unit ++ ".json"] = meshFile d unit "json" := by
  rw [Path.append_json]
  rfl

/-- The walks discover a unit by a mesh file, its extension spelled in any way. -/
theorem WellFormed.mem_unitsIn (ht : t.WellFormed) : unit ∈ t.unitsIn glob (d.join "objects3d") ↔
    (isWreck unit = false ∧ glob.isMatch unit = true ∧ unit ≠ "" ∧ '/' ∉ unit.toList) ∧
      ∃ extension, Path.IsJsonExtension extension ∧ t.isFile (meshFile d unit extension) = true := by
  simp only [unitsIn, List.mem_filterMap, List.mem_filter, ht.mem_filesIn Path.isName_objects3d]
  constructor
  · rintro ⟨q, ⟨⟨file, hfile, rfl, hq⟩, hjson⟩, hunit⟩
    obtain ⟨stem, extension, rfl, hstem, hext⟩ := (Path.isJson_join hfile _).1 hjson
    rw [Path.stem?_join hfile hstem hext.notMem_dot, Option.filter_eq_some_iff] at hunit
    obtain ⟨hsame, hmatch⟩ := hunit
    obtain rfl := Option.some.inj hsame
    have hslash : '/' ∉ stem.toList := by
      intro hmem
      exact hfile.2.1 (by simp [hmem])
    refine ⟨⟨?_, ?_, hstem, hslash⟩, extension, hext, hq⟩
    · simpa using (Bool.and_eq_true_iff.1 hmatch).1
    · exact (Bool.and_eq_true_iff.1 hmatch).2
  · rintro ⟨⟨hwreck, hmatch, hne, hslash⟩, extension, hext, hq⟩
    have hfile := Path.isName_of_extension hslash hext
    refine ⟨meshFile d unit extension, ⟨⟨_, hfile, rfl, hq⟩, (Path.isJson_join hfile _).2 ⟨_, _, rfl, hne, hext⟩⟩, ?_⟩
    rw [meshFile, Path.stem?_join hfile hne hext.notMem_dot, Option.filter_eq_some_iff]
    exact ⟨rfl, by simp [hwreck, hmatch]⟩

theorem mem_units : unit ∈ (t.units glob dirs).names ↔ ∃ d ∈ dirs, unit ∈ t.unitsIn glob (d.join "objects3d") := by
  rw [units, NameTable.mem_names_ofNames, List.mem_flatMap]

theorem findMesh_eq_some {path : Path} (h : t.findMesh dirs unit = some path) :
    t.isFile path = true ∧ ∃ d ∈ dirs, path = meshFile d unit "json" := by
  rw [findMesh, firstFile] at h
  obtain ⟨d, hd, rfl⟩ := List.mem_map.1 (List.mem_of_find?_eq_some h)
  exact ⟨List.find?_some h, d, hd, joinAll_meshFile d unit⟩

theorem findMesh_isSome :
    (t.findMesh dirs unit).isSome = true ↔ ∃ d ∈ dirs, t.isFile (meshFile d unit "json") = true := by
  simp [findMesh, firstFile, joinAll_meshFile]

end FileTree

namespace CommandLine
variable {t : FileTree} {glob : Glob} {ws : Workspace} {s : Session} {unit : String}

theorem leaves_discoverUnits {pattern : String} {dirs : List Path} {units : NameSet} :
    Run.Leaves (discoverUnits dirs pattern) s units t ↔
      ∃ glob, Glob.ofText? pattern = some glob ∧ units = s.files.units glob dirs ∧ t = s.files := by
  rw [discoverUnits]
  cases Glob.ofText? pattern with
  | none =>
    constructor
    · rintro ⟨s', hrun, -⟩
      cases hrun
    · rintro ⟨glob, ⟨⟩, -⟩
  | some glob =>
    simp only [Option.some.injEq, exists_eq_left', Run.leaves_files_bind, Run.leaves_reports_bind, Run.leaves_pure]

theorem loadUnit_noMesh_iff : (∃ s', Run.outcome (loadUnit ws unit) s = (.error (.noMesh unit ws.dataDirs), s')) ↔
    s.files.findMesh ws.dataDirs unit = none := by
  rw [loadUnit, Run.outcome_files_bind]
  cases s.files.findMesh ws.dataDirs unit with
  | none => exact ⟨fun _ => rfl, fun _ => ⟨s, rfl⟩⟩
  | some path =>
    simp only [reduceCtorEq, iff_false]
    rintro ⟨s', h⟩
    rw [Run.outcome_bind] at h
    cases hload : s.files.loadMesh path with
    | error e =>
      rw [hload] at h
      cases h
    | ok roots =>
      rw [hload] at h
      cases roots with
      | nil => cases h
      | cons root roots => cases h

/-- **Discovery and look-up agree on meshes in lower case.** A unit that is discovered has a mesh file in the
`objects3d` of some data directory, whose extension is `json` in some case. Its mesh is found, and then is an
existing file, iff a walk that discovered it met one spelled in lower case; otherwise, and only then, its
conversion ends for want of a mesh. -/
theorem discovered_unit_resolves_iff (ht : s.files.WellFormed)
    (hunit : unit ∈ (s.files.units glob ws.dataDirs).names) :
    (∃ d ∈ ws.dataDirs, ∃ extension, Path.IsJsonExtension extension ∧
      FileTree.meshFile d unit extension ∈ s.files.filesIn (d.join "objects3d")) ∧
    ((∃ path, s.files.findMesh ws.dataDirs unit = some path ∧ s.files.isFile path = true) ↔
      ∃ d ∈ ws.dataDirs, FileTree.meshFile d unit "json" ∈ s.files.filesIn (d.join "objects3d")) ∧
    ((∃ s', Run.outcome (loadUnit ws unit) s = (.error (.noMesh unit ws.dataDirs), s')) ↔
      ¬ ∃ d ∈ ws.dataDirs, FileTree.meshFile d unit "json" ∈ s.files.filesIn (d.join "objects3d")) := by
  obtain ⟨d, hd, hin⟩ := FileTree.mem_units.1 hunit
  obtain ⟨⟨-, -, hne, hslash⟩, extension, hext, hfile⟩ := ht.mem_unitsIn.1 hin
  have hmet : ∀ d extension, Path.IsJsonExtension extension →
      (FileTree.meshFile d unit extension ∈ s.files.filesIn (d.join "objects3d") ↔
        s.files.isFile (FileTree.meshFile d unit extension) = true) := by
    intro d extension hext
    rw [ht.mem_filesIn Path.isName_objects3d]
    constructor
    · rintro ⟨-, -, -, hfile⟩
      exact hfile
    · exact fun hfile => ⟨_, Path.isName_of_extension hslash hext, rfl, hfile⟩
  have hlower : (∃ d ∈ ws.dataDirs, FileTree.meshFile d unit "json" ∈ s.files.filesIn (d.join "objects3d")) ↔
      (s.files.findMesh ws.dataDirs unit).isSome = true := by
    rw [FileTree.findMesh_isSome]
    exact exists_congr fun d => and_congr_right fun _ => hmet d "json" rfl
  refine ⟨⟨d, hd, extension, hext, (hmet d extension hext).2 hfile⟩, ?_, ?_⟩
  · rw [hlower, Option.isSome_iff_exists]
    exact exists_congr fun path => ⟨fun h => h.1, fun h => ⟨h, (FileTree.findMesh_eq_some h).1⟩⟩
  · rw [loadUnit_noMesh_iff, hlower]
    simp

/-- Two data directories with a mesh of `u`, the first one's extension in capitals. -/
def spelledTree : FileTree where
  nodes := .ofList [(["d"], .directory), (["d", "objects3d"], .directory),
    (["d", "objects3d", "u.JSON"], .file (.ofText "[]")), (["e"], .directory), (["e", "objects3d"], .directory),
    (["e", "objects3d", "u.json"], .file (.ofText "[]"))]

def spelledWorkspace : Workspace where
  dataDirs := [⟨"d"⟩, ⟨"e"⟩]
  settings := {}
  palette := ⟨#[]⟩
  index := {}
  png := false
  metadata := false

/-- The second directory has the mesh in lower case. -/
theorem discovered_unit_resolves_in_second : spelledTree.WellFormed ∧
    "u" ∈ (spelledTree.units ⟨[.anyPrefix]⟩ spelledWorkspace.dataDirs).names ∧
      ∃ path, spelledTree.findMesh spelledWorkspace.dataDirs "u" = some path ∧ spelledTree.isFile path = true := by
  have ht : spelledTree.WellFormed := by decide
  have hunit : "u" ∈ (spelledTree.units ⟨[.anyPrefix]⟩ spelledWorkspace.dataDirs).names := by decide
  have hmet : FileTree.meshFile ⟨"e"⟩ "u" "json" ∈ spelledTree.filesIn ((Path.mk "e").join "objects3d") := by decide
  have hall := discovered_unit_resolves_iff (s := { files := spelledTree }) ht hunit
  exact ⟨ht, hunit, hall.2.1.2 ⟨⟨"e"⟩, by decide, hmet⟩⟩

/-- A unit whose mesh is spelled in capitals is discovered, and then not found. -/
theorem discovered_unit_without_mesh :
    ¬ ∀ (t : FileTree) (dirs : List Path) (pattern : String) (glob : Glob) (unit : String), t.WellFormed →
      Glob.ofText? pattern = some glob → unit ∈ (t.units glob dirs).names →
        ∃ path, t.findMesh dirs unit = some path ∧ t.isFile path = true := by
  intro h
  obtain ⟨path, hpath, -⟩ := h spelledTree [⟨"d"⟩] "**" ⟨[.anyPrefix]⟩ "u" (by decide) rfl (by decide)
  have hnone : spelledTree.findMesh [⟨"d"⟩] "u" = none := rfl
  rw [hnone] at hpath
  cases hpath

end CommandLine
end TextureAtlas
