import TextureAtlas.CommandLine.Commands
import TextureAtlas.Proofs.Index
import TextureAtlas.Proofs.Run
import TextureAtlas.Proofs.Walk

/-!
# The archive that provides a texture

The files below the `textures` of the data directories come in one order (`FileTree.textureFiles`). A texture
is provided by the first of them that is let through, can be read and has an entry of its name, so files that
provide nothing may be deleted and directories may be repeated (`lookup_is_first_provider`).
-/

namespace TextureAtlas

/-! ## Filters -/

/-- The path as globs see it, backslashes taken for separators. -/
def Path.shown (q : Path) : String := String.ofList (q.text.toList.map fun c => if c = '\\' then '/' else c)

/-- Whether the text is a glob that matches the path. -/
def Path.matches (q : Path) (text : String) : Bool := (Glob.ofText? text).any (·.isMatch q.shown)

/-- Whether a file is taken for an archive: by its extension, by no exclusion and, if there are any, by some
inclusion. -/
def Path.isSelected (inclusions exclusions : List String) (q : Path) : Bool :=
  q.isJson && !exclusions.any q.matches && (inclusions.isEmpty || inclusions.any q.matches)

theorem Glob.any_ofTexts {texts : List String} {globs : List Glob} (h : Glob.ofTexts texts = .ok globs)
    (test : Glob → Bool) : globs.any test = texts.any fun s => (ofText? s).any test := by
  induction texts generalizing globs with
  | nil =>
    cases h
    rfl
  | cons s rest ih =>
    rw [ofTexts] at h
    cases hs : ofText? s with
    | none =>
      rw [hs] at h
      cases h
    | some g =>
      cases hrest : ofTexts rest with
      | error e =>
        rw [hs, hrest] at h
        cases h
      | ok more =>
        rw [hs, hrest] at h
        cases h
        simp [hs, ih hrest]

theorem PathFilter.isSelected_eq {inclusions exclusions : List String} {filter : PathFilter}
    (h : PathFilter.ofTexts inclusions exclusions = .ok filter) (q : Path) :
    q.isSelected inclusions exclusions = (!filter.skips q.text && q.isJson) := by
  rw [ofTexts] at h
  cases hin : Glob.ofTexts inclusions with
  | error e =>
    rw [hin] at h
    cases h
  | ok included =>
    cases hex : Glob.ofTexts exclusions with
    | error e =>
      rw [hin, hex] at h
      cases h
    | ok excluded =>
      rw [hin, hex] at h
      cases h
      have hexcluded : excluded.any (·.isMatch q.shown) = exclusions.any q.matches := Glob.any_ofTexts hex _
      have hincluded : included.any (·.isMatch q.shown) = inclusions.any q.matches := Glob.any_ofTexts hin _
      have hshown : String.ofList (q.text.toList.map fun c => if c = '\\' then '/' else c) = q.shown := rfl
      simp only [Path.isSelected, skips, hshown, hexcluded]
      cases inclusions with
      | nil => simp [Bool.and_comm]
      | cons text rest =>
        simp only [List.isEmpty_cons, Bool.false_eq_true, if_false, Option.any_some, hincluded, Bool.false_or,
          Bool.not_or, Bool.not_not]
        rw [Bool.and_assoc, Bool.and_comm]

namespace FileTree
variable {t : FileTree} {inclusions exclusions : List String} {dirs : List Path} {d p q : Path} {l j : Location}
  {a : Archive} {name : String}

/-! ## Providers -/

/-- The files below the `textures` of the data directories: directories as they are given, and in each of them
the files in the order of the walk. -/
def textureFiles (t : FileTree) (dirs : List Path) : List Path :=
  dirs.flatMap fun d =>
    match t.locate (d.join "textures") with
    | .ok l => (t.walk t.height l).map (d.join "textures").joinAll
    | .error _ => []

/-- The file is taken for an archive, and read as this one. -/
structure Yields (t : FileTree) (inclusions exclusions : List String) (q : Path) (a : Archive) : Prop where
  selected : q.isSelected inclusions exclusions = true
  loaded : t.loadArchive q = .ok a

/-- The archive that the file yields, if it yields one. -/
def yield? (t : FileTree) (inclusions exclusions : List String) (q : Path) : Option Archive :=
  if q.isSelected inclusions exclusions then (t.loadArchive q).toOption else none

theorem yield?_eq_some : t.yield? inclusions exclusions q = some a ↔ t.Yields inclusions exclusions q a := by
  rw [yield?]
  constructor
  · intro h
    split at h
    · rename_i hselected
      cases hload : t.loadArchive q with
      | error e =>
        rw [hload] at h
        cases h
      | ok b =>
        rw [hload] at h
        cases h
        exact ⟨hselected, hload⟩
    · cases h
  · rintro ⟨hselected, hload⟩
    rw [if_pos hselected, hload]
    rfl

theorem yield?_eq_none (h : ∀ a, ¬ t.Yields inclusions exclusions q a) : t.yield? inclusions exclusions q = none :=
  Option.eq_none_iff_forall_not_mem.2 fun a ha => h a (yield?_eq_some.1 ha)

theorem isName_textures : Path.IsName "textures" := by decide

theorem WellFormed.locate_of_mem_walk (ht : t.WellFormed) (hl : t.locate p = .ok l) {levels : Nat}
    {names : List String} (h : names ∈ t.walk levels l) : t.locate (p.joinAll names) = .ok (l ++ names) := by
  obtain ⟨-, hne, content, hfile⟩ := ht.mem_walk.1 h
  have hsome : (t.node? (l ++ names)).isSome = true := by simp [hfile]
  have hproper : ∀ name ∈ names, Path.IsName name := fun name hname =>
    ht.isName hsome (List.mem_append_right _ hname)
  exact (locate_joinAll hproper hne).2 ((ht.leads_joinAll hproper hne).2 ⟨l, leads_of_locate hl, rfl, hsome⟩)

theorem WellFormed.walk_eq_nil (ht : t.WellFormed) (hdir : t.isDirectoryAt l = false) (levels : Nat) :
    t.walk levels l = [] := by
  rw [List.eq_nil_iff_forall_not_mem]
  intro names hnames
  obtain ⟨-, hne, content, hfile⟩ := ht.mem_walk.1 hnames
  have := ht.isDirectoryAt (l := l) (by rw [hfile]; rfl) hne
  rw [hdir] at this
  cases this

theorem WellFormed.textureFiles_eq_nil (ht : t.WellFormed)
    (h : ∀ d ∈ dirs, t.isDirectory (d.join "textures") = false) : t.textureFiles dirs = [] := by
  rw [textureFiles, List.flatMap_eq_nil_iff]
  intro d hd
  cases hl : t.locate (d.join "textures") with
  | error e => rfl
  | ok l =>
    have hdir : t.isDirectoryAt l = false := by
      rw [← Bool.not_eq_true]
      intro hdir
      cases (h d hd).symm.trans (isDirectory_iff.2 ⟨l, hl, hdir⟩)
    simp [ht.walk_eq_nil hdir]

theorem textureFiles_append (t : FileTree) (dirs more : List Path) :
    t.textureFiles (dirs ++ more) = t.textureFiles dirs ++ t.textureFiles more := List.flatMap_append

theorem textureFiles_subset (t : FileTree) (hd : d ∈ dirs) (hq : q ∈ t.textureFiles [d]) : q ∈ t.textureFiles dirs := by
  simp only [textureFiles, List.flatMap_cons, List.flatMap_nil, List.append_nil] at hq
  exact List.mem_flatMap.2 ⟨d, hd, hq⟩

/-- The archives that a run indexes are those that the files yield, in their order. -/
theorem WellFormed.filterMap_textureSources (ht : t.WellFormed) {filter : PathFilter}
    (h : PathFilter.ofTexts inclusions exclusions = .ok filter) :
    (t.textureSources filter dirs).filterMap TextureSource.archive? =
      (t.textureFiles dirs).filterMap (t.yield? inclusions exclusions) := by
  have hsource : TextureSource.archive? ∘ t.textureSource = fun q => (t.loadArchive q).toOption := by
    funext q
    simp only [Function.comp_apply, textureSource]
    cases t.loadArchive q with
    | error e => rfl
    | ok a => rfl
  rw [textureSources, textureFiles, List.filterMap_flatMap, List.filterMap_flatMap]
  refine congrArg (fun f => dirs.flatMap f) (funext fun d => ?_)
  rw [textureSourcesIn]
  cases hl : t.locate (d.join "textures") with
  | error e =>
    have hnot : t.isDirectory (d.join "textures") = false := by
      rw [← Bool.not_eq_true, isDirectory_iff, hl]
      simp
    simp [hnot, TextureSource.archive?]
  | ok l =>
    cases hdir : t.isDirectoryAt l with
    | true =>
      have his : t.isDirectory (d.join "textures") = true := isDirectory_iff.2 ⟨l, hl, hdir⟩
      have hfile : t.isFile (d.join "textures") = false := by
        rw [isFile, find?, hl]
        simp [isDirectoryAt_iff.1 hdir]
      rw [if_pos his, archiveFiles, hfile, if_neg Bool.false_ne_true, ht.filesBelow_eq_walk hl, List.filterMap_map,
        List.filterMap_filter, hsource]
      simp only [← PathFilter.isSelected_eq h]
      rfl
    | false =>
      have hnot : t.isDirectory (d.join "textures") = false := by
        rw [← Bool.not_eq_true, isDirectory_iff, hl]
        simpa using hdir
      simp [hnot, ht.walk_eq_nil hdir, TextureSource.archive?]

theorem readText_of_read {text : String} (h : t.read p = .ok (.ofText text)) : t.readText p = .ok text := by
  have hutf8 : String.fromUTF8? text.toUTF8 = some text := dif_pos text.isValidUTF8
  rw [readText, readBytes, h]
  simp only [Except.map, bind, Except.bind, FileContent.ofText, FileContent.toBytes, hutf8]
  rfl

theorem loadMesh_of_readText {text : String} (h : t.readText p = .ok text) :
    t.loadMesh p = MeshObject.rootsOfText text := by
  rw [loadMesh, h]
  rfl

/-! ## A tree without one file -/

/-- The tree without what is at a location. -/
def erase (t : FileTree) (l : Location) : FileTree := { t with nodes := t.nodes.erase l }

section
variable {content : FileContent}

theorem ne_nil_of_file (hfile : t.node? l = some (.file content)) : l ≠ [] := by
  rintro rfl
  rw [t.node?_nil] at hfile
  cases hfile

theorem node?_erase (hl : l ≠ []) (j : Location) : (t.erase l).node? j = if j = l then none else t.node? j := by
  by_cases hj : j = []
  · subst hj
    simp [node?, Ne.symm hl]
  · simp [node?, erase, hj, Table.get?_erase]

theorem isDirectoryAt_erase (hfile : t.node? l = some (.file content)) (j : Location) :
    (t.erase l).isDirectoryAt j = t.isDirectoryAt j := by
  rw [isDirectoryAt, isDirectoryAt, node?_erase (ne_nil_of_file hfile)]
  by_cases hj : j = l
  · subst hj
    simp [hfile]
  · rw [if_neg hj]

theorem WellFormed.erase (ht : t.WellFormed) (hfile : t.node? l = some (.file content)) : (t.erase l).WellFormed where
  named e he := ht.named e (List.mem_of_mem_filter he)
  housed e he := by
    rw [isDirectoryAt_erase hfile]
    exact ht.housed e (List.mem_of_mem_filter he)

/-- A file is on no way to anything else. -/
theorem follow_erase (hfile : t.node? l = some (.file content)) (hj : j ≠ l) {start : Location}
    {steps : List String} : (t.erase l).follow start steps = .ok j ↔ t.follow start steps = .ok j := by
  induction steps generalizing start with
  | nil => rfl
  | cons step steps ih =>
    rw [follow, follow, isDirectoryAt_erase hfile, node?_erase (ne_nil_of_file hfile)]
    split
    · rfl
    · split
      · exact ih
      · split
        · exact ih
        · by_cases hstep : start ++ [step] = l
          · -- The way ends at the file, or cannot go on from it.
            have hdead : t.follow l steps ≠ .ok j := by
              cases steps with
              | nil =>
                intro h
                exact hj (Except.ok.inj h).symm
              | cons next rest =>
                rw [follow, isDirectoryAt, hfile]
                simp
            simp [hstep, hfile, hdead]
          · rw [if_neg hstep]
            split
            · exact ih
            · rfl

theorem locate_erase (hfile : t.node? l = some (.file content)) (hj : j ≠ l) :
    (t.erase l).locate p = .ok j ↔ t.locate p = .ok j := by
  rw [locate, locate]
  split
  · rfl
  · exact follow_erase hfile hj

theorem WellFormed.locate_join_erase (ht : t.WellFormed) (hfile : t.node? l = some (.file content))
    (hname : Path.IsName name) : (t.erase l).locate (p.join name) = .ok j ↔ t.locate (p.join name) = .ok j ∧ j ≠ l := by
  by_cases hj : j = l
  · subst hj
    simp only [ne_eq, not_true_eq_false, and_false, iff_false]
    intro h
    obtain ⟨b, -, -, hsome⟩ := ((ht.erase hfile).leads_join hname).1 ((locate_join hname).1 h)
    rw [node?_erase (ne_nil_of_file hfile), if_pos rfl] at hsome
    cases hsome
  · rw [locate_erase hfile hj]
    simp [hj]

theorem WellFormed.walk_erase (ht : t.WellFormed) (hfile : t.node? l = some (.file content)) (b : Location) :
    (t.erase l).walk (t.erase l).height b = (t.walk t.height b).filter (b ++ · ≠ l) := by
  refine List.Pairwise.eq_of_mem_iff (pairwise_walk ..) ((pairwise_walk ..).filter _) fun names => ?_
  have hheight : ∀ {u : FileTree} {found : FileContent}, u.WellFormed → names ≠ [] →
      u.node? (b ++ names) = some (.file found) → names.length ≤ u.height := by
    intro u found hu hne hn
    have hlength := length_le_height (hu.mem_entries.2 ⟨by simp [hne], hn⟩)
    rw [List.length_append] at hlength
    exact Nat.le_trans (Nat.le_add_left ..) hlength
  rw [List.mem_filter, (ht.erase hfile).mem_walk, ht.mem_walk, node?_erase (ne_nil_of_file hfile)]
  constructor
  · rintro ⟨-, hne, found, hn⟩
    split at hn
    · cases hn
    · rename_i hnot
      exact ⟨⟨hheight ht hne hn, hne, found, hn⟩, decide_eq_true hnot⟩
  · rintro ⟨⟨-, hne, found, hn⟩, hnot⟩
    have hkept : (t.erase l).node? (b ++ names) = some (.file found) := by
      rw [node?_erase (ne_nil_of_file hfile), if_neg (of_decide_eq_true hnot), hn]
    rw [if_neg (of_decide_eq_true hnot)]
    exact ⟨hheight (ht.erase hfile) hne hkept, hne, found, hn⟩

theorem yield?_erase (hfile : t.node? l = some (.file content)) (hq : t.locate q = .ok j) (hj : j ≠ l) :
    (t.erase l).yield? inclusions exclusions q = t.yield? inclusions exclusions q := by
  have hread : (t.erase l).read q = t.read q := by
    simp only [read, (locate_erase hfile hj).2 hq, hq, bind, Except.bind, node?_erase (ne_nil_of_file hfile), if_neg hj]
  have hload : (t.erase l).loadArchive q = t.loadArchive q := by
    simp only [loadArchive, readText, readBytes, hread]
  rw [yield?, yield?, hload]

/-- Without a file that yields no archive, the others yield the same archives in the same order. -/
theorem WellFormed.filterMap_yield?_erase (ht : t.WellFormed) (hfile : t.node? l = some (.file content))
    (hidle : ∀ q ∈ t.textureFiles dirs, t.locate q = .ok l → ∀ a, ¬ t.Yields inclusions exclusions q a) :
    ((t.erase l).textureFiles dirs).filterMap ((t.erase l).yield? inclusions exclusions) =
      (t.textureFiles dirs).filterMap (t.yield? inclusions exclusions) := by
  rw [textureFiles, textureFiles, List.filterMap_flatMap, List.filterMap_flatMap]
  refine List.flatMap_congr fun d hd => ?_
  have hlocate := fun j => ht.locate_join_erase (j := j) (p := d) hfile isName_textures
  cases hb : t.locate (d.join "textures") with
  | error e =>
    cases hb' : (t.erase l).locate (d.join "textures") with
    | error e' => rfl
    | ok b' => cases hb.symm.trans ((hlocate b').1 hb').1
  | ok b =>
    by_cases hbl : b = l
    · -- Nothing is below a file.
      have hdir : t.isDirectoryAt b = false := by simp [FileTree.isDirectoryAt, hbl, hfile]
      cases hb' : (t.erase l).locate (d.join "textures") with
      | error e' => simp [ht.walk_eq_nil hdir]
      | ok b' =>
        obtain ⟨hb'', hne⟩ := (hlocate b').1 hb'
        cases hb.symm.trans hb''
        exact absurd hbl hne
    · have hb' : (t.erase l).locate (d.join "textures") = .ok b := (hlocate b).2 ⟨hb, hbl⟩
      simp only [hb', ht.walk_erase hfile, List.filterMap_map, List.filterMap_filter]
      refine List.filterMap_congr fun names hnames => ?_
      have hq := ht.locate_of_mem_walk hb hnames
      have hmem : (d.join "textures").joinAll names ∈ t.textureFiles dirs := by
        refine List.mem_flatMap.2 ⟨d, hd, ?_⟩
        rw [hb]
        exact List.mem_map_of_mem hnames
      by_cases hl : b ++ names = l
      · simp [hl, yield?_eq_none (hidle _ hmem (hl ▸ hq))]
      · simp [hl, yield?_erase hfile hq hl]

theorem WellFormed.isDirectory_join_erase (ht : t.WellFormed) (hfile : t.node? l = some (.file content))
    (hname : Path.IsName name) : (t.erase l).isDirectory (p.join name) = t.isDirectory (p.join name) := by
  rw [Bool.eq_iff_iff, isDirectory_iff, isDirectory_iff]
  refine exists_congr fun j => ?_
  rw [ht.locate_join_erase hfile hname, isDirectoryAt_erase hfile, and_assoc]
  refine and_congr_right fun _ => and_iff_right_of_imp ?_
  rintro hdir rfl
  rw [isDirectoryAt_iff, hfile] at hdir
  cases hdir

end

end FileTree

/-! ## Look-ups -/

theorem TextureIndex.lookup_filterMap_eq_some {f : Path → Option Archive} {files : List Path} {name : String}
    {r : Reader} : (ofArchives (files.filterMap f)).lookup name = some r ↔
      ∃ before q after a, files = before ++ q :: after ∧ (f q = some a ∧ a.contains name = true) ∧
        (∀ q' ∈ before, ∀ a', f q' = some a' → a'.contains name = false) ∧ r = .ofArchive a := by
  rw [lookup_ofArchives, List.find?_filterMap, Option.map_eq_some_iff]
  simp only [Option.bind_eq_some_iff, List.find?_eq_some_iff_append]
  constructor
  · rintro ⟨a, ⟨q, ⟨hq, before, after, rfl, hbefore⟩, ha⟩, rfl⟩
    rw [ha] at hq
    refine ⟨before, q, after, a, rfl, ⟨ha, hq⟩, fun q' hq' a' ha' => ?_, rfl⟩
    simpa [ha'] using hbefore q' hq'
  · rintro ⟨before, q, after, a, rfl, ⟨ha, hname⟩, hbefore, rfl⟩
    refine ⟨a, ⟨q, ⟨by simpa [ha] using hname, before, after, rfl, fun q' hq' => ?_⟩, ha⟩, rfl⟩
    cases ha' : f q' with
    | none => simp
    | some a' => simp [hbefore q' hq' a' ha']

theorem TextureIndex.lookup_filterMap_eq_none {f : Path → Option Archive} {files : List Path} {name : String} :
    (ofArchives (files.filterMap f)).lookup name = none ↔
      ∀ q ∈ files, ∀ a, f q = some a → a.contains name = false := by
  rw [lookup_ofArchives, Option.map_eq_none_iff, List.find?_eq_none]
  simp only [List.mem_filterMap, forall_exists_index, and_imp, Bool.not_eq_true]
  exact ⟨fun h q hq a ha => h a q hq ha, fun h a q hq ha => h q hq a ha⟩

/-- Archives that come again provide nothing. -/
theorem TextureIndex.find?_or_of_subset {archives more : List Archive} (h : ∀ a ∈ more, a ∈ archives)
    (test : Archive → Bool) : (archives.find? test).or (more.find? test) = archives.find? test := by
  cases hfirst : archives.find? test with
  | some a => rfl
  | none =>
    rw [Option.none_or, List.find?_eq_none]
    exact fun a ha => List.find?_eq_none.1 hfirst a (h a ha)

namespace CommandLine
variable {s : Session} {t : FileTree} {index : TextureIndex} {inclusions exclusions : List String} {dirs : List Path}

/-- What the archives of a tree are indexed as; there is no index if a directory is searched with a malformed
glob. -/
def IndexedAs (t : FileTree) (dirs : List Path) (inclusions exclusions : List String) (index : TextureIndex) : Prop :=
  match PathFilter.ofTexts inclusions exclusions with
  | .ok filter => index = .ofArchives ((t.textureSources filter dirs).filterMap TextureSource.archive?)
  | .error _ => (∀ d ∈ dirs, t.isDirectory (d.join "textures") = false) ∧ index = {}

theorem leaves_indexTextures : Run.Leaves (indexTextures dirs inclusions exclusions) s index t ↔
    IndexedAs s.files dirs inclusions exclusions index ∧ t = s.files := by
  rw [indexTextures, Run.leaves_files_bind, IndexedAs]
  cases PathFilter.ofTexts inclusions exclusions with
  | ok filter => exact Run.leaves_reportAll_bind.trans Run.leaves_pure
  | error g =>
    refine Run.leaves_reports_bind.trans ?_
    rw [List.any_map]
    cases hany : dirs.any (s.files.isDirectory ∘ (·.join "textures")) with
    | true =>
      obtain ⟨d, hd, hdir⟩ := List.any_eq_true.1 hany
      rw [if_pos rfl]
      constructor
      · rintro ⟨s', hrun, -⟩
        cases hrun
      · rintro ⟨⟨hall, -⟩, -⟩
        cases (hall d hd).symm.trans hdir
    | false =>
      have hall : ∀ d ∈ dirs, s.files.isDirectory (d.join "textures") = false := fun d hd => by
        simpa using List.any_eq_false.1 hany d hd
      rw [if_neg Bool.false_ne_true, Run.leaves_pure]
      exact ⟨fun h => ⟨⟨hall, h.1⟩, h.2⟩, fun h => ⟨h.1.2, h.2⟩⟩

/-- Archives are indexed if the globs can be read or no directory is searched with them. -/
theorem indexedAs_iff (ht : t.WellFormed) : IndexedAs t dirs inclusions exclusions index ↔
    ((∃ filter, PathFilter.ofTexts inclusions exclusions = .ok filter) ∨
      ∀ d ∈ dirs, t.isDirectory (d.join "textures") = false) ∧
    index = .ofArchives ((t.textureFiles dirs).filterMap (t.yield? inclusions exclusions)) := by
  rw [IndexedAs]
  cases hfilter : PathFilter.ofTexts inclusions exclusions with
  | ok filter => simp [ht.filterMap_textureSources hfilter]
  | error g =>
    simp only [reduceCtorEq, exists_false, false_or]
    refine and_congr_right fun hall => ?_
    rw [ht.textureFiles_eq_nil hall]
    rfl

/-- **A texture belongs to the first file that yields an entry of its name.** If indexing the data directories
ends well, a look-up finds a reader iff some file below the `textures` of the directories, in their order and in
that of the walks, is taken for an archive, can be read and has an entry of the name, and then it is the archive
of the first such file. So a file that yields no archive may be deleted, and a directory may be given again
behind itself: indexing still ends well, and every look-up gives what it gave. -/
theorem lookup_is_first_provider (ht : s.files.WellFormed)
    (h : Run.Leaves (indexTextures dirs inclusions exclusions) s index t) :
    (∀ name r, index.lookup name = some r ↔ ∃ before q after a, s.files.textureFiles dirs = before ++ q :: after ∧
      (s.files.Yields inclusions exclusions q a ∧ a.contains name = true) ∧
      (∀ q' ∈ before, ∀ a', s.files.Yields inclusions exclusions q' a' → a'.contains name = false) ∧
      r = .ofArchive a) ∧
    (∀ name, index.lookup name = none ↔ ∀ q ∈ s.files.textureFiles dirs, ∀ a,
      s.files.Yields inclusions exclusions q a → a.contains name = false) ∧
    (∀ l content, s.files.node? l = some (.file content) →
      (∀ q ∈ s.files.textureFiles dirs, s.files.locate q = .ok l →
        ∀ a, ¬ s.files.Yields inclusions exclusions q a) →
      Run.Leaves (indexTextures dirs inclusions exclusions) { s with files := s.files.erase l } index
        (s.files.erase l)) ∧
    ∀ before d after, dirs = before ++ after → d ∈ before →
      ∃ index', Run.Leaves (indexTextures (before ++ d :: after) inclusions exclusions) s index' t ∧
        ∀ name, index'.lookup name = index.lookup name := by
  obtain ⟨hindexed, rfl⟩ := leaves_indexTextures.1 h
  obtain ⟨hglobs, rfl⟩ := (indexedAs_iff ht).1 hindexed
  refine ⟨fun name r => ?_, fun name => ?_, fun l content hfile hidle => ?_, fun before d after hdirs hd => ?_⟩
  · simp only [TextureIndex.lookup_filterMap_eq_some, FileTree.yield?_eq_some]
  · simp only [TextureIndex.lookup_filterMap_eq_none, FileTree.yield?_eq_some]
  · refine leaves_indexTextures.2 ⟨(indexedAs_iff (ht.erase hfile)).2 ⟨?_, ?_⟩, rfl⟩
    · simp only [ht.isDirectory_join_erase hfile FileTree.isName_textures]
      exact hglobs
    · rw [ht.filterMap_yield?_erase hfile hidle]
  · subst hdirs
    refine ⟨_, leaves_indexTextures.2 ⟨(indexedAs_iff ht).2 ⟨?_, rfl⟩, rfl⟩, fun name => ?_⟩
    · refine hglobs.imp_right fun hall e he => hall e ?_
      rw [List.mem_append, List.mem_cons] at he
      rcases he with he | rfl | he
      · exact List.mem_append_left _ he
      · exact List.mem_append_left _ hd
      · exact List.mem_append_right _ he
    · rw [List.append_cons]
      simp only [FileTree.textureFiles_append, List.filterMap_append, TextureIndex.lookup_ofArchives, List.find?_append]
      rw [TextureIndex.find?_or_of_subset fun a ha => ?_]
      obtain ⟨q, hq, hyield⟩ := List.mem_filterMap.1 ha
      exact List.mem_filterMap.2 ⟨q, s.files.textureFiles_subset hd hq, hyield⟩

/-- Below `textures` a file that is no archive, one with a texture `plate`, and one with `plate` and `wood`. -/
def texturesTree : FileTree where
  nodes := .ofList [(["d"], .directory), (["d", "textures"], .directory),
    (["d", "textures", "a.json"], .file (.ofText "[")),
    (["d", "textures", "b.json"], .file (.ofText r#"["b.gaf",[["plate",[]]]]"#)),
    (["d", "textures", "c.json"], .file (.ofText r#"["c.gaf",[["plate",[]],["wood",[]]]]"#))]

/-- The second file provides `plate`. -/
theorem lookup_skips_unreadable_file : texturesTree.WellFormed ∧ ∃ index,
    Run.Leaves (indexTextures [⟨"d"⟩] [] []) { files := texturesTree } index texturesTree ∧
      index.lookup "plate" = some (.ofArchive ⟨"b.gaf", [⟨"plate", []⟩]⟩) := by
  have ht : texturesTree.WellFormed := by decide
  have hleaves : Run.Leaves (indexTextures [⟨"d"⟩] [] []) { files := texturesTree }
      (.ofArchives ((texturesTree.textureFiles [⟨"d"⟩]).filterMap (texturesTree.yield? [] []))) texturesTree :=
    leaves_indexTextures.2 ⟨(indexedAs_iff ht).2 ⟨.inl ⟨_, rfl⟩, rfl⟩, rfl⟩
  have hfirst : texturesTree.loadArchive ⟨"d/textures/a.json"⟩ = .error .json := by
    have hparse : Json.parse? "[" = none := by
      simp [Json.parse?, Json.value?, Json.items?, Json.skipBlanks, Json.isBlank]
    have hread : texturesTree.readText ⟨"d/textures/a.json"⟩ = .ok "[" := FileTree.readText_of_read rfl
    rw [FileTree.loadArchive, hread]
    simp [bind, Except.bind, Except.mapError, Archive.ofText, hparse]
  have hsecond : texturesTree.loadArchive ⟨"d/textures/b.json"⟩ = .ok ⟨"b.gaf", [⟨"plate", []⟩]⟩ := by
    have hparse : Json.parse? r#"["b.gaf",[["plate",[]]]]"# = some (.array [.string "b.gaf".toList,
        .array [.array [.string "plate".toList, .array []]]]) := by
      simp [Json.parse?, Json.value?, Json.items?, Json.skipBlanks, Json.isBlank, Json.quoted?]
    have hread : texturesTree.readText ⟨"d/textures/b.json"⟩ = .ok r#"["b.gaf",[["plate",[]]]]"# :=
      FileTree.readText_of_read rfl
    rw [FileTree.loadArchive, hread]
    simp only [bind, Except.bind, Except.mapError, Archive.ofText, hparse]
    rfl
  refine ⟨ht, _, hleaves, ((lookup_is_first_provider ht hleaves).1 "plate" _).2 ⟨[⟨"d/textures/a.json"⟩],
    ⟨"d/textures/b.json"⟩, [⟨"d/textures/c.json"⟩], _, rfl, ⟨⟨rfl, hsecond⟩, rfl⟩, ?_, rfl⟩⟩
  intro q hq a ha
  obtain rfl := List.mem_singleton.1 hq
  cases hfirst.symm.trans ha.loaded

end CommandLine
end TextureAtlas
