import Mathlib.Data.List.Find
import TextureAtlas.Proofs.Directories
import TextureAtlas.Proofs.Discovery
import TextureAtlas.Proofs.Textures

/-!
# What is seen of a tree

Meshes, palettes and archives are read by paths below the data directories. Such paths see the ways to these
directories and what is in them, and nothing else (`FileTree.Sees`). Trees that look the same there give the
same meshes, palettes and archives.
-/

namespace TextureAtlas.FileTree
variable {t u : FileTree} {l l' j b : Location} {p d q : Path} {dirs : List Path} {name : String}
  {names : List String}

/-! ## Following names -/

/-- The locations that are looked at when names are followed. -/
def asked (t : FileTree) : Location → List String → List Location
  | l, [] => [l]
  | l, name :: rest =>
    l :: if !t.isDirectoryAt l then []
      else if name = "." then t.asked l rest
      else if name = ".." then t.asked l.dropLast rest
      else if (t.node? (l ++ [name])).isSome then t.asked (l ++ [name]) rest
      else [l ++ [name]]

theorem mem_asked_self : l ∈ t.asked l names := by
  cases names with
  | nil => exact List.mem_cons_self
  | cons name names => exact List.mem_cons_self

theorem follow_congr (h : ∀ j ∈ t.asked l names, u.node? j = t.node? j) : u.follow l names = t.follow l names := by
  induction names generalizing l with
  | nil => rfl
  | cons name names ih =>
    have hl : u.isDirectoryAt l = t.isDirectoryAt l := by rw [isDirectoryAt, isDirectoryAt, h l mem_asked_self]
    rw [asked, List.forall_mem_cons] at h
    replace h := h.2
    rw [follow, follow, hl]
    split_ifs at h with hdir hdot hup hfound
    · rw [if_pos hdir, if_pos hdir]
    · rw [if_neg hdir, if_neg hdir, if_pos hdot, if_pos hdot, ih h]
    · rw [if_neg hdir, if_neg hdir, if_neg hdot, if_neg hdot, if_pos hup, if_pos hup, ih h]
    · have hnext := h (l ++ [name]) mem_asked_self
      rw [if_neg hdir, if_neg hdir, if_neg hdot, if_neg hdot, if_neg hup, if_neg hup, hnext, if_pos hfound,
        if_pos hfound, ih h]
    · have hnext := h (l ++ [name]) List.mem_cons_self
      rw [if_neg hdir, if_neg hdir, if_neg hdot, if_neg hdot, if_neg hup, if_neg hup, hnext, if_neg hfound,
        if_neg hfound]

theorem asked_names (hnames : ∀ name ∈ names, Path.IsName name) (hj : j ∈ t.asked l names) : l <+: j := by
  induction names generalizing l with
  | nil =>
    rw [asked, List.mem_singleton] at hj
    subst hj
    exact List.prefix_rfl
  | cons name names ih =>
    rw [List.forall_mem_cons] at hnames
    rw [asked, if_neg hnames.1.2.2.1, if_neg hnames.1.2.2.2, List.mem_cons] at hj
    rcases hj with rfl | hj
    · exact List.prefix_rfl
    · split_ifs at hj
      · cases hj
      · exact (List.prefix_append l [name]).trans (ih hnames.2 hj)
      · rw [List.mem_singleton.1 hj]
        exact List.prefix_append l [name]

/-- What is looked at is there, or missing in something that is there. -/
theorem WellFormed.isSome_dropLast_of_asked (ht : t.WellFormed) (hl : (t.node? l).isSome = true)
    (hj : j ∈ t.asked l names) : (t.node? j.dropLast).isSome = true := by
  have habove : ∀ {k}, (t.node? k).isSome = true → (t.node? k.dropLast).isSome = true := fun hk =>
    isSome_of_isDirectoryAt (ht.isDirectoryAt_dropLast hk)
  induction names generalizing l with
  | nil =>
    rw [asked, List.mem_singleton] at hj
    rw [hj]
    exact habove hl
  | cons name names ih =>
    rw [asked, List.mem_cons] at hj
    rcases hj with rfl | hj
    · exact habove hl
    · split_ifs at hj with hdir hdot hup hfound
      · cases hj
      · exact ih hl hj
      · exact ih (habove hl) hj
      · exact ih hfound hj
      · rw [List.mem_singleton.1 hj, List.dropLast_concat]
        exact hl

theorem WellFormed.isSome_of_follow (ht : t.WellFormed) (hl : (t.node? l).isSome = true)
    (h : t.follow l names = .ok l') : (t.node? l').isSome = true := by
  induction names generalizing l with
  | nil =>
    cases h
    exact hl
  | cons name names ih =>
    rw [follow] at h
    split_ifs at h with hdir hdot hup hfound
    · exact ih hl h
    · exact ih (isSome_of_isDirectoryAt (ht.isDirectoryAt_dropLast hl)) h
    · exact ih hfound h

/-! ## Sight -/

/-- Paths below the directories look here: on the way to one of them, or in it. -/
def Sees (t : FileTree) (dirs : List Path) (j : Location) : Prop :=
  ∃ d ∈ dirs, j ∈ t.asked (t.start d) d.steps ∨ ∃ l, t.Leads d l ∧ l <+: j

/-- The trees look the same from the directories. -/
structure LooksLike (u t : FileTree) (dirs : List Path) : Prop where
  cwd : u.workingDirectory = t.workingDirectory
  node?_eq : ∀ {j}, t.Sees dirs j → u.node? j = t.node? j

/-- Below a place that was missing and is not seen, nothing is seen. -/
theorem WellFormed.not_sees_below (ht : t.WellFormed) (hcwd : t.isDirectoryAt t.workingDirectory = true)
    (hnone : t.node? l = none) (hl : ¬ t.Sees dirs l) (hj : l <+: j) : ¬ t.Sees dirs j := by
  have habsent : ∀ {k}, l <+: k → (t.node? k).isSome = true → False := by
    rintro k ⟨more, rfl⟩ hsome
    by_cases hmore : more = []
    · simp [hmore, hnone] at hsome
    · have := ht.isDirectoryAt hsome hmore
      simp [FileTree.isDirectoryAt, hnone] at this
  have hstart : ∀ d, (t.node? (t.start d)).isSome = true := by
    intro d
    rw [start]
    split
    · simp [t.node?_nil]
    · exact isSome_of_isDirectoryAt hcwd
  rintro ⟨d, hd, hasked | ⟨k, hk, hkj⟩⟩
  · by_cases hjl : j = l
    · exact hl ⟨d, hd, .inl (hjl ▸ hasked)⟩
    · -- What is strictly below `l` is below it without its last name too.
      refine habsent ?_ (ht.isSome_dropLast_of_asked (hstart d) hasked)
      obtain ⟨more, rfl⟩ := hj
      have hmore : more ≠ [] := by
        rintro rfl
        simp at hjl
      rw [List.dropLast_append_of_ne_nil hmore]
      exact List.prefix_append ..
  · have hsome := ht.isSome_of_follow (hstart d) hk
    rcases List.prefix_or_prefix_of_prefix hj hkj with hlk | hkl
    · exact habsent hlk hsome
    · exact hl ⟨d, hd, .inr ⟨k, hk, hkl⟩⟩

/-! ## Paths below the directories -/

theorem locate_joinAll_eq (hnames : ∀ name ∈ names, Path.IsName name) (hne : names ≠ []) (t : FileTree) (d : Path) :
    t.locate (d.joinAll names) = t.follow (t.start d) (d.steps ++ names) := by
  have hstart : t.start (d.joinAll names) = t.start d := by rw [start, start, Path.isAbsolute_joinAll hnames]
  have hsteps := Path.steps_joinAll hnames d
  rcases List.eq_nil_or_concat names with rfl | ⟨init, name, hconcat⟩
  · exact absurd rfl hne
  · rw [List.concat_eq_append] at hconcat
    have hname : Path.IsName name := hnames name (by simp [hconcat])
    rw [locate, hstart, hsteps, hconcat, Path.joinAll_concat, Path.isEmpty_join hname,
      Path.endsWithSeparator_join hname]
    simp

section
variable (h : u.LooksLike t dirs)
include h

theorem LooksLike.follow_eq (hd : d ∈ dirs) : u.follow (u.start d) d.steps = t.follow (t.start d) d.steps := by
  have hstart : u.start d = t.start d := by rw [start, start, h.cwd]
  rw [hstart]
  exact follow_congr fun j hj => h.node?_eq ⟨d, hd, .inl hj⟩

theorem LooksLike.locate_eq (hd : d ∈ dirs) (hnames : ∀ name ∈ names, Path.IsName name) (hne : names ≠ []) :
    u.locate (d.joinAll names) = t.locate (d.joinAll names) := by
  rw [locate_joinAll_eq hnames hne, locate_joinAll_eq hnames hne, follow_append, follow_append, h.follow_eq hd]
  cases hb : t.follow (t.start d) d.steps with
  | error e => rfl
  | ok b => exact follow_congr fun j hj => h.node?_eq ⟨d, hd, .inr ⟨b, hb, asked_names hnames hj⟩⟩

variable (ht : t.WellFormed)
include ht

theorem LooksLike.node?_eq_of_locate (hd : d ∈ dirs) (hnames : ∀ name ∈ names, Path.IsName name) (hne : names ≠ [])
    (hl : t.locate (d.joinAll names) = .ok l) (hj : l <+: j) : u.node? j = t.node? j := by
  obtain ⟨b, hb, rfl, -⟩ := (ht.leads_joinAll hnames hne).1 (leads_of_locate hl)
  exact h.node?_eq ⟨d, hd, .inr ⟨b, hb, (List.prefix_append ..).trans hj⟩⟩

theorem LooksLike.find?_eq (hd : d ∈ dirs) (hnames : ∀ name ∈ names, Path.IsName name) (hne : names ≠ []) :
    u.find? (d.joinAll names) = t.find? (d.joinAll names) := by
  rw [find?, find?, h.locate_eq hd hnames hne]
  cases hl : t.locate (d.joinAll names) with
  | error e => rfl
  | ok l => exact h.node?_eq_of_locate ht hd hnames hne hl List.prefix_rfl

theorem LooksLike.read_eq (hd : d ∈ dirs) (hnames : ∀ name ∈ names, Path.IsName name) (hne : names ≠ []) :
    u.read (d.joinAll names) = t.read (d.joinAll names) := by
  rw [read, read, h.locate_eq hd hnames hne]
  cases hl : t.locate (d.joinAll names) with
  | error e => rfl
  | ok l =>
    simp only [bind, Except.bind]
    rw [h.node?_eq_of_locate ht hd hnames hne hl List.prefix_rfl]

theorem LooksLike.isFile_eq (hd : d ∈ dirs) (hnames : ∀ name ∈ names, Path.IsName name) (hne : names ≠ []) :
    u.isFile (d.joinAll names) = t.isFile (d.joinAll names) := by
  rw [isFile, isFile, h.find?_eq ht hd hnames hne]

theorem LooksLike.isDirectory_eq (hd : d ∈ dirs) (hnames : ∀ name ∈ names, Path.IsName name) (hne : names ≠ []) :
    u.isDirectory (d.joinAll names) = t.isDirectory (d.joinAll names) := by
  rw [isDirectory, isDirectory, h.find?_eq ht hd hnames hne]

theorem LooksLike.listing_eq (hd : d ∈ dirs) (hnames : ∀ name ∈ names, Path.IsName name) (hne : names ≠ []) :
    u.listing (d.joinAll names) = t.listing (d.joinAll names) := by
  have hirrefl : Std.Irrefl fun e e' : List String × FileNode => e.1 < e'.1 := ⟨fun e => Std.lt_irrefl⟩
  have hantisymm : Std.Antisymm fun e e' : List String × FileNode => e.1 < e'.1 :=
    ⟨fun e e' hlt hlt' => absurd (Std.lt_trans hlt hlt') Std.lt_irrefl⟩
  refine List.Pairwise.eq_of_mem_iff (u.pairwise_listing _) (t.pairwise_listing _) fun ⟨more, n⟩ => ?_
  rw [mem_listing, mem_listing, h.locate_eq hd hnames hne]
  refine exists_congr fun l => and_congr_right fun hl => ?_
  have hnode : ∀ {j}, l <+: j → u.node? j = t.node? j := h.node?_eq_of_locate ht hd hnames hne hl
  rw [isDirectoryAt, isDirectoryAt, hnode List.prefix_rfl, hnode (List.prefix_append l more)]

/-! ## Meshes, palettes and archives -/

theorem LooksLike.firstFile_eq (hnames : ∀ name ∈ names, Path.IsName name) (hne : names ≠ []) :
    u.firstFile dirs names = t.firstFile dirs names := by
  rw [firstFile, firstFile]
  refine List.find?_congr fun q hq => ?_
  obtain ⟨d, hd, rfl⟩ := List.mem_map.1 hq
  exact h.isFile_eq ht hd hnames hne

theorem LooksLike.findPalette_eq : u.findPalette dirs = t.findPalette dirs :=
  h.firstFile_eq ht (by decide) (by decide)

theorem LooksLike.archiveFiles_eq (hd : d ∈ dirs) (filter : PathFilter) :
    u.archiveFiles filter (d.join "textures") = t.archiveFiles filter (d.join "textures") := by
  have hnames : ∀ name ∈ ["textures"], Path.IsName name := by decide
  have hfile : u.isFile (d.join "textures") = t.isFile (d.join "textures") :=
    h.isFile_eq ht hd hnames (List.cons_ne_nil _ _)
  have hlisting : u.listing (d.join "textures") = t.listing (d.join "textures") :=
    h.listing_eq ht hd hnames (List.cons_ne_nil _ _)
  rw [archiveFiles, archiveFiles, hfile, filesBelow, filesBelow, hlisting]

theorem LooksLike.loadArchive_eq (hd : d ∈ dirs) {filter : PathFilter}
    (hq : q ∈ t.archiveFiles filter (d.join "textures")) : u.loadArchive q = t.loadArchive q := by
  have hread : ∃ names, (∀ name ∈ names, Path.IsName name) ∧ names ≠ [] ∧ q = d.joinAll names := by
    have hq' := List.mem_of_mem_filter hq
    split at hq'
    · obtain rfl := List.mem_singleton.1 hq'
      exact ⟨["textures"], by decide, List.cons_ne_nil _ _, rfl⟩
    · obtain ⟨⟨names, n⟩, hmem, he⟩ := List.mem_filterMap.1 hq'
      cases n with
      | directory => cases he
      | file content =>
        obtain rfl := Option.some.inj he
        obtain ⟨l, -, hne, hn⟩ := ht.mem_listing.1 hmem
        refine ⟨"textures" :: names, ?_, List.cons_ne_nil _ _, rfl⟩
        rw [List.forall_mem_cons]
        exact ⟨by decide, fun name hname => ht.isName (by rw [hn]; rfl) (List.mem_append_right l hname)⟩
  obtain ⟨names, hnames, hne, rfl⟩ := hread
  rw [loadArchive, loadArchive, readText, readText, readBytes, readBytes, h.read_eq ht hd hnames hne]

theorem LooksLike.textureSources_eq (filter : PathFilter) :
    u.textureSources filter dirs = t.textureSources filter dirs := by
  rw [textureSources, textureSources]
  refine List.flatMap_congr fun d hd => ?_
  have hnames : ∀ name ∈ ["textures"], Path.IsName name := by decide
  have hdir : u.isDirectory (d.join "textures") = t.isDirectory (d.join "textures") :=
    h.isDirectory_eq ht hd hnames (List.cons_ne_nil _ _)
  rw [textureSourcesIn, textureSourcesIn, hdir, h.archiveFiles_eq ht hd]
  split
  · refine List.map_congr_left fun q hq => ?_
    rw [textureSource, textureSource, h.loadArchive_eq ht hd hq]
  · rfl

variable {unit : String} (hunit : '/' ∉ unit.toList)
include hunit

omit h ht in
theorem isName_meshNames : ∀ name ∈ ["objects3d", unit ++ ".json"], Path.IsName name := by
  rintro name hname
  rcases List.mem_pair.1 hname with rfl | rfl
  · exact Path.isName_objects3d
  · exact Path.isName_json hunit

theorem LooksLike.findMesh_eq : u.findMesh dirs unit = t.findMesh dirs unit :=
  h.firstFile_eq ht (isName_meshNames hunit) (List.cons_ne_nil _ _)

theorem LooksLike.loadMesh_eq {path : Path} (hpath : t.findMesh dirs unit = some path) :
    u.loadMesh path = t.loadMesh path := by
  obtain ⟨-, d, hd, rfl⟩ := findMesh_eq_some hpath
  rw [← joinAll_meshFile, loadMesh, loadMesh, readText, readText, readBytes, readBytes,
    h.read_eq ht hd (isName_meshNames hunit) (List.cons_ne_nil _ _)]

end

end TextureAtlas.FileTree
