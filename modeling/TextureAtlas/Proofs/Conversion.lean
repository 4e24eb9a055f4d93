import TextureAtlas.CommandLine.Convert
import TextureAtlas.Proofs.Files
import TextureAtlas.Proofs.Run
import TextureAtlas.Proofs.SizeSearch

/-!
# The files of a conversion

A unit is converted root by root, and each root writes files whose names tell the unit and the canvas size,
but not the root. So of the roots whose atlases have one size, the last one is left in the files
(`rasters_kept_unless_size_recurs`).
-/

namespace TextureAtlas.CommandLine

/-! ## File names -/

/-- What the name of a raster file adds to the name of the unit. -/
def rasterTail (kind : String) (width height : Nat) (extension : String) : String :=
  "_" ++ kind ++ width.repr ++ "x" ++ height.repr ++ "." ++ extension

theorem rasterFile_eq (unit kind : String) (width height : Nat) (extension : String) :
    rasterFile unit kind width height extension = unit ++ rasterTail kind width height extension := by
  have hself : ∀ s : String, toString s = s := fun _ => rfl
  rw [← String.toList_inj]
  simp [rasterFile, rasterTail, hself]

theorem notMem_toDigits {c : Char} (hc : c.isDigit = false) (n : Nat) : c ∉ Nat.toDigits 10 n := by
  intro hmem
  have := Nat.isDigit_of_mem_toDigits (by omega) (by omega) hmem
  simp [hc] at this

/-- A number in front of something that is no digit can be read off. -/
theorem toDigits_append_inj {m n : Nat} {c d : Char} {cs ds : List Char} (hc : c.isDigit = false)
    (hd : d.isDigit = false) (h : Nat.toDigits 10 m ++ c :: cs = Nat.toDigits 10 n ++ d :: ds) :
    m = n ∧ cs = ds := by
  have hdigits : ∀ k, ∀ a ∈ Nat.toDigits 10 k, a.isDigit = true := fun k a ha =>
    Nat.isDigit_of_mem_toDigits (by omega) (by omega) ha
  have hfront := congrArg (List.takeWhile Char.isDigit) h
  rw [List.takeWhile_append_of_pos (hdigits m), List.takeWhile_append_of_pos (hdigits n)] at hfront
  have heq : Nat.toDigits 10 m = Nat.toDigits 10 n := by simpa [hc, hd] using hfront
  have hread := congrArg (fun cs => Nat.ofDigitChars 10 cs 0) heq
  rw [heq] at h
  refine ⟨?_, (List.cons.inj (List.append_cancel_left h)).2⟩
  simpa [Nat.ofDigitChars_ten_toDigits] using hread

/-- The rasters that are written. -/
def IsKind (kind : String) : Prop := kind = "Albedo" ∨ kind = "SpecTeam"

section
variable {kind kind' extension extension' : String} {width height width' height' : Nat}

theorem isTail_rasterTail (hk : IsKind kind) (he : '/' ∉ extension.toList) (width height : Nat) :
    Path.IsTail (rasterTail kind width height extension) where
  inside := by
    have hw := notMem_toDigits (c := '/') (by decide) width
    have hh := notMem_toDigits (c := '/') (by decide) height
    rcases hk with rfl | rfl <;> simp [rasterTail, he, hw, hh]
  marked := by simp [rasterTail]

/-- The name of a raster file tells the raster, the canvas size and the format. -/
theorem rasterTail_inj (hk : IsKind kind) (hk' : IsKind kind')
    (h : rasterTail kind width height extension = rasterTail kind' width' height' extension') :
    kind = kind' ∧ width = width' ∧ height = height' ∧ extension = extension' := by
  have hkind : kind = kind' := by
    have hchars := congrArg String.toList h
    rcases hk with rfl | rfl <;> rcases hk' with rfl | rfl <;> simp [rasterTail] at hchars ⊢
  subst hkind
  have hchars : Nat.toDigits 10 width ++ 'x' :: (Nat.toDigits 10 height ++ '.' :: extension.toList) =
      Nat.toDigits 10 width' ++ 'x' :: (Nat.toDigits 10 height' ++ '.' :: extension'.toList) := by
    simpa [rasterTail] using congrArg String.toList h
  obtain ⟨hwidth, hrest⟩ := toDigits_append_inj (by decide) (by decide) hchars
  obtain ⟨hheight, hext⟩ := toDigits_append_inj (by decide) (by decide) hrest
  exact ⟨rfl, hwidth, hheight, String.toList_inj.1 hext⟩

theorem rasterTail_ne_table (hk : IsKind kind) : rasterTail kind width height extension ≠ "_atlas.json" := by
  intro h
  have hchars := congrArg String.toList h
  rcases hk with rfl | rfl <;> simp [rasterTail] at hchars

end

/-! ## The files of one atlas -/

/-- The files of an atlas in the order in which they are written, by what their names add to the unit's. -/
def atlasFiles (ws : Workspace) (a : Atlas) : List (String × FileContent) :=
  let exports := a.exportAll ws.palette ws.settings.logoThreshold
  [(rasterTail "Albedo" a.width a.height "data", .bytes ⟨exports.indexed⟩),
    (rasterTail "SpecTeam" a.width a.height "data", .bytes exports.teamMask.toBytes)] ++
  (if ws.png then
    [(rasterTail "Albedo" a.width a.height "png", .picture exports.albedo),
      (rasterTail "SpecTeam" a.width a.height "png", .picture exports.teamMask)]
  else []) ++
  if ws.metadata then [("_atlas.json", .ofText a.tableJson.pretty)] else []

section
variable {ws : Workspace} {unit : String} {outDir : Path} {a : Atlas} {s : Session} {t : FileTree}
  {f : String × FileContent}

theorem name_of_mem_atlasFiles (hf : f ∈ atlasFiles ws a) :
    (∃ kind extension, IsKind kind ∧ '/' ∉ extension.toList ∧
      f.1 = rasterTail kind a.width a.height extension) ∨ f.1 = "_atlas.json" := by
  simp only [atlasFiles, List.mem_append, List.mem_cons, List.not_mem_nil, or_false] at hf
  rcases hf with ((rfl | rfl) | hf) | hf
  · exact .inl ⟨"Albedo", "data", .inl rfl, by decide, rfl⟩
  · exact .inl ⟨"SpecTeam", "data", .inr rfl, by decide, rfl⟩
  · split at hf
    · rcases List.mem_pair.1 hf with rfl | rfl
      · exact .inl ⟨"Albedo", "png", .inl rfl, by decide, rfl⟩
      · exact .inl ⟨"SpecTeam", "png", .inr rfl, by decide, rfl⟩
    · cases hf
  · split at hf
    · exact .inr (by rw [List.mem_singleton.1 hf])
    · cases hf

theorem isTail_of_mem_atlasFiles (hf : f ∈ atlasFiles ws a) : Path.IsTail f.1 := by
  rcases name_of_mem_atlasFiles hf with ⟨kind, extension, hk, he, hname⟩ | hname
  · rw [hname]
    exact isTail_rasterTail hk he _ _
  · rw [hname]
    exact ⟨by decide, by decide⟩

theorem isTail_of_mem_flatMap (ws : Workspace) (composed : List (MeshObject × Atlas)) :
    ∀ f ∈ composed.flatMap fun p => atlasFiles ws p.2, Path.IsTail f.1 := by
  intro f hf
  obtain ⟨p, -, hf⟩ := List.mem_flatMap.1 hf
  exact isTail_of_mem_atlasFiles hf

/-- A file named for a canvas size belongs to an atlas of that size. -/
theorem size_of_mem_atlasFiles (hf : f ∈ atlasFiles ws a) {kind extension : String} {width height : Nat}
    (hk : IsKind kind) (hname : f.1 = rasterTail kind width height extension) :
    a.width = width ∧ a.height = height := by
  rcases name_of_mem_atlasFiles hf with ⟨kind', extension', hk', -, hname'⟩ | hname'
  · obtain ⟨-, hwidth, hheight, -⟩ := rasterTail_inj hk' hk (hname'.symm.trans hname)
    exact ⟨hwidth, hheight⟩
  · exact absurd (hname.symm.trans hname') (rasterTail_ne_table hk)

theorem nodup_atlasFiles (ws : Workspace) (a : Atlas) : ((atlasFiles ws a).map (·.1)).Nodup := by
  have hkind : ∀ {e e'}, rasterTail "Albedo" a.width a.height e ≠ rasterTail "SpecTeam" a.width a.height e' := by
    intro e e' h
    exact absurd (rasterTail_inj (.inl rfl) (.inr rfl) h).1 (by decide)
  have hext : ∀ {kind}, IsKind kind →
      rasterTail kind a.width a.height "data" ≠ rasterTail kind a.width a.height "png" := by
    intro kind hk h
    exact absurd (rasterTail_inj hk hk h).2.2.2 (by decide)
  have hall : [rasterTail "Albedo" a.width a.height "data", rasterTail "SpecTeam" a.width a.height "data",
      rasterTail "Albedo" a.width a.height "png", rasterTail "SpecTeam" a.width a.height "png",
      "_atlas.json"].Nodup := by
    simp [hkind, hkind.symm, hext (.inl rfl), hext (.inr rfl), rasterTail_ne_table (.inl rfl),
      rasterTail_ne_table (.inr rfl)]
  refine List.Nodup.sublist ?_ hall
  unfold atlasFiles
  cases ws.png <;> cases ws.metadata <;> simp

/-! ## What a conversion leaves -/

theorem leaves_writes_bind {β : Type} {b : β} {p : Path} {files : List (String × FileContent)}
    {f : Unit → Run β} :
    Run.Leaves ((files.forM fun file => Run.write (p.extended file.1) file.2) >>= f) s b t ↔
      ∃ t', s.files.writeAll p files = .ok t' ∧ Run.Leaves (f ()) { s with files := t' } b t := by
  induction files generalizing s with
  | nil =>
    constructor
    · intro h
      exact ⟨s.files, rfl, by simpa using h⟩
    · rintro ⟨t', hw, h⟩
      cases hw
      simpa using h
  | cons file files ih =>
    simp only [List.forM_eq_forM, List.forM_cons, bind_assoc, Run.leaves_write_bind] at ih ⊢
    simp only [ih, FileTree.writeAll_cons]
    constructor
    · rintro ⟨next, hw, t', hrest, hleaves⟩
      exact ⟨t', ⟨next, hw, hrest⟩, hleaves⟩
    · rintro ⟨t', ⟨next, hw, hrest⟩, hleaves⟩
      exact ⟨next, hw, t', hrest, hleaves⟩

/-- The files of an atlas are written one after another next to the unit's name, and then reported. -/
theorem writeAtlasFiles_eq (ws : Workspace) (unit : String) (a : Atlas) (outDir : Path) :
    writeAtlasFiles ws unit a outDir = (do
      (atlasFiles ws a).forM fun file => Run.write ((outDir.join unit).extended file.1) file.2
      Run.report (.atlasWritten (outDir.join (rasterFile unit "Albedo" a.width a.height "data"))
        (outDir.join (rasterFile unit "SpecTeam" a.width a.height "data")))) := by
  have hpath : ∀ kind extension, IsKind kind → '/' ∉ extension.toList →
      outDir.join (rasterFile unit kind a.width a.height extension) =
        (outDir.join unit).extended (rasterTail kind a.width a.height extension) := by
    intro kind extension hk he
    rw [rasterFile_eq, Path.join_append (isTail_rasterTail hk he _ _)]
  have htable : outDir.join s!"{unit}_atlas.json" = (outDir.join unit).extended "_atlas.json" :=
    Path.join_append ⟨by decide, by decide⟩ outDir unit
  unfold writeAtlasFiles atlasFiles
  simp only [hpath "Albedo" "data" (.inl rfl) (by decide), hpath "SpecTeam" "data" (.inr rfl) (by decide),
    hpath "Albedo" "png" (.inl rfl) (by decide), hpath "SpecTeam" "png" (.inr rfl) (by decide), htable]
  cases ws.png <;> cases ws.metadata <;> simp

theorem leaves_composeRoot_bind {β : Type} {b : β} {root : MeshObject} {f : Atlas → Run β} :
    Run.Leaves (composeRoot ws unit root >>= f) s b t ↔
      ∃ a, compose root.referencedFragments ws.index ws.settings = .ok (some a) ∧
        Run.Leaves (f a) { s with log := s.log ++ [.atlasComposed a.width a.height] } b t := by
  rw [composeRoot, bind_assoc, Run.leaves_lift_bind]
  constructor
  · rintro ⟨result, hresult, hrest⟩
    cases result with
    | some a =>
      rw [bind_assoc, Run.leaves_report_bind, pure_bind] at hrest
      exact ⟨a, hresult, hrest⟩
    | none =>
      rw [bind_assoc, Run.leaves_report_bind] at hrest
      exact absurd hrest Run.leaves_throw_bind
  · rintro ⟨a, hresult, hrest⟩
    refine ⟨some a, hresult, ?_⟩
    rw [bind_assoc, Run.leaves_report_bind, pure_bind]
    exact hrest

theorem leaves_convertRoot_bind {β : Type} {b : β} {root : MeshObject} {f : MeshObject × Atlas → Run β} :
    Run.Leaves (convertRoot ws unit outDir root >>= f) s b t ↔
      ∃ a t', compose root.referencedFragments ws.index ws.settings = .ok (some a) ∧
        s.files.writeAll (outDir.join unit) (atlasFiles ws a) = .ok t' ∧
          Run.Leaves (f (root, a)) { s with
            files := t'
            log := s.log ++ [.atlasComposed a.width a.height, .atlasSummary a.stats.summary unit root.name,
              .atlasWritten (outDir.join (rasterFile unit "Albedo" a.width a.height "data"))
                (outDir.join (rasterFile unit "SpecTeam" a.width a.height "data"))] } b t := by
  simp only [convertRoot, writeAtlasFiles_eq, bind_assoc, leaves_composeRoot_bind, Run.leaves_report_bind,
    leaves_writes_bind, pure_bind, List.append_assoc, List.cons_append, List.nil_append, exists_and_left]

/-- Roots are converted one after another: each has its atlas composed, and all files are written in turn. -/
theorem leaves_convertRoots {roots : List MeshObject} {composed : List (MeshObject × Atlas)} :
    Run.Leaves (roots.mapM (convertRoot ws unit outDir)) s composed t ↔
      composed.map (·.1) = roots ∧
        (∀ p ∈ composed, compose p.1.referencedFragments ws.index ws.settings = .ok (some p.2)) ∧
        s.files.writeAll (outDir.join unit) (composed.flatMap fun p => atlasFiles ws p.2) = .ok t := by
  induction roots generalizing s composed with
  | nil =>
    rw [List.mapM_nil, Run.leaves_pure]
    constructor
    · rintro ⟨rfl, rfl⟩
      exact ⟨rfl, by simp, rfl⟩
    · rintro ⟨hroots, -, hw⟩
      obtain rfl := List.map_eq_nil_iff.1 hroots
      cases hw
      exact ⟨rfl, rfl⟩
  | cons root roots ih =>
    rw [List.mapM_cons, leaves_convertRoot_bind]
    simp only [Run.leaves_bind_pure, ih]
    constructor
    · rintro ⟨a, t', ha, hfirst, rest, ⟨rfl, hcomposed, hrest⟩, rfl⟩
      refine ⟨rfl, List.forall_mem_cons.2 ⟨ha, hcomposed⟩, ?_⟩
      rw [List.flatMap_cons]
      exact FileTree.writeAll_append.2 ⟨t', hfirst, hrest⟩
    · rintro ⟨hroots, hcomposed, hw⟩
      obtain ⟨p, rest, rfl, rfl, hrest⟩ := List.map_eq_cons_iff.1 hroots
      rw [List.flatMap_cons] at hw
      obtain ⟨t', hfirst, hmore⟩ := FileTree.writeAll_append.1 hw
      rw [List.forall_mem_cons] at hcomposed
      exact ⟨p.2, t', hcomposed.1, hfirst, rest, ⟨hrest, hcomposed.2, hmore⟩, rfl⟩

theorem leaves_loadUnit_bind {β : Type} {b : β} {f : List MeshObject → Run β} :
    Run.Leaves (loadUnit ws unit >>= f) s b t ↔
      ∃ path roots, s.files.findMesh ws.dataDirs unit = some path ∧ s.files.loadMesh path = .ok roots ∧
        roots ≠ [] ∧ Run.Leaves (f roots) s b t := by
  rw [loadUnit, bind_assoc, Run.leaves_files_bind]
  cases hpath : s.files.findMesh ws.dataDirs unit with
  | none =>
    constructor
    · exact fun h => absurd h Run.leaves_throw_bind
    · rintro ⟨path, roots, ⟨⟩, -⟩
  | some path =>
    simp only [bind_assoc, Run.leaves_lift_bind]
    constructor
    · rintro ⟨roots, hload, hrest⟩
      cases roots with
      | nil => exact absurd hrest Run.leaves_throw_bind
      | cons root roots => exact ⟨path, root :: roots, rfl, hload, List.cons_ne_nil _ _, by simpa using hrest⟩
    · rintro ⟨path', roots, hpath', hload, hne, hrest⟩
      cases hpath'
      refine ⟨roots, hload, ?_⟩
      simpa [hne] using hrest

/-- A conversion ends well iff the mesh of the unit is found and has roots, an atlas is composed for each of
them, and all files can be written in turn. -/
theorem leaves_convertUnit {json : Json} : Run.Leaves (convertUnit ws unit outDir) s json t ↔
    ∃ path composed, s.files.findMesh ws.dataDirs unit = some path ∧
      s.files.loadMesh path = .ok (composed.map (·.1)) ∧ composed ≠ [] ∧
      (∀ p ∈ composed, compose p.1.referencedFragments ws.index ws.settings = .ok (some p.2)) ∧
      s.files.writeAll (outDir.join unit) (composed.flatMap fun p => atlasFiles ws p.2) = .ok t ∧
      json = unitJson unit composed := by
  rw [convertUnit, leaves_loadUnit_bind]
  simp only [Run.leaves_bind_reports_pure, leaves_convertRoots]
  constructor
  · rintro ⟨path, roots, hpath, hload, hne, composed, ⟨rfl, hcomposed, hw⟩, hjson⟩
    exact ⟨path, composed, hpath, hload, by simpa using hne, hcomposed, hw, hjson⟩
  · rintro ⟨path, composed, hpath, hload, hne, hcomposed, hw, hjson⟩
    exact ⟨path, _, hpath, hload, by simpa using hne, composed, ⟨rfl, hcomposed, hw⟩, hjson⟩

end

end TextureAtlas.CommandLine
