import TextureAtlas.CommandLine.Batch
import TextureAtlas.Proofs.Conversion
import TextureAtlas.Proofs.Sight

/-!
# Conversions keep to their directory

Two trees that look the same from the data directories and below a directory are alike for a conversion into
that directory (`FileTree.Alike`). It ends the same way in both, leaves trees that are alike again, and changes
nothing outside of the directory (`Run.Confined`). This holds of each step, so it holds of chains of them.
-/

namespace TextureAtlas

theorem Path.isName_append {unit tail : String} (hunit : '/' ∉ unit.toList) (h : IsTail tail) :
    IsName (unit ++ tail) := by
  have hmarked : '_' ∈ (unit ++ tail).toList := by simp [h.marked]
  have hne : ∀ other : String, '_' ∉ other.toList → unit ++ tail ≠ other := by
    rintro other hnot rfl
    exact hnot hmarked
  exact ⟨hne _ (by decide), by simp [hunit, h.inside], hne _ (by decide), hne _ (by decide)⟩

namespace FileTree
variable {t u v : FileTree} {p q : Path} {l j : Location} {name : String} {dirs : List Path} {content : FileContent}

/-! ## Writing into a directory -/

/-- The path leads to a directory. -/
structure Enters (t : FileTree) (p : Path) (l : Location) : Prop where
  leads : t.Leads p l
  isDirectoryAt : t.isDirectoryAt l = true

theorem Enters.store_file (h : t.Enters p l) (hj : j ≠ []) (hnot : t.node? j ≠ some .directory)
    (content : FileContent) : (t.store j (.file content)).Enters p l where
  leads := follow_store_file hj hnot content h.leads
  isDirectoryAt := by rw [isDirectoryAt_store_file hj hnot, h.isDirectoryAt]

theorem Keeps.enters (h : t.Keeps u) (hp : t.Enters p l) : u.Enters p l where
  leads := by rw [Leads, h.start_eq]; exact h.follow hp.leads
  isDirectoryAt := h.isDirectoryAt hp.isDirectoryAt

/-- The files whose names begin with a unit's go right into the directory. -/
theorem Enters.opens_join {unit : String} (h : t.Enters p l) (hunit : '/' ∉ unit.toList) : t.Opens (p.join unit) l := by
  have htail : Path.IsTail "_" := ⟨by decide, by decide⟩
  have hname := Path.isName_append hunit htail
  have hstart := start_extended t (p.join unit) htail
  have hsteps := Path.steps_extended (p := p.join unit) htail
  rw [← Path.join_append htail, start_join hname] at hstart
  rw [← Path.join_append htail, Path.steps_join hname] at hsteps
  refine ⟨?_, h.isDirectoryAt⟩
  rw [← hstart, ← (List.append_inj' hsteps rfl).1]
  exact h.leads

/-- Writing files keeps directories and the ways to them. -/
theorem Enters.writeAll {files : List (String × FileContent)} (h : t.Enters p l)
    (htails : ∀ f ∈ files, Path.IsTail f.1) (hw : t.writeAll q files = .ok u) :
    u.Enters p l ∧ ∀ j, u.isDirectoryAt j = t.isDirectoryAt j := by
  induction files generalizing t with
  | nil =>
    cases hw
    exact ⟨h, fun _ => rfl⟩
  | cons f files ih =>
    rw [List.forall_mem_cons] at htails
    obtain ⟨next, hf, hrest⟩ := writeAll_cons.1 hw
    obtain ⟨parent, -, hnot, rfl⟩ := (write_extended htails.1).1 hf
    obtain ⟨henters, hsame⟩ := ih (h.store_file (by simp) hnot f.2) htails.2 hrest
    exact ⟨henters, fun j => (hsame j).trans (isDirectoryAt_store_file (by simp) hnot f.2 j)⟩

theorem Enters.join (h : t.Enters p l) (hname : Path.IsName name) (hdir : t.isDirectoryAt (l ++ [name]) = true) :
    t.Enters (p.join name) (l ++ [name]) where
  leads := by
    rw [Leads, Path.steps_join hname, start_join hname, follow_append, h.leads, Except.bind, follow_cons hname,
      h.isDirectoryAt, isSome_of_isDirectoryAt hdir]
    rfl
  isDirectoryAt := hdir

theorem Enters.of_join (h : t.Enters (p.join name) (l ++ [name])) (hname : Path.IsName name) : t.Enters p l := by
  have hlead := h.leads
  rw [Leads, Path.steps_join hname, start_join hname, follow_append] at hlead
  cases hb : t.follow (t.start p) p.steps with
  | error e =>
    rw [hb] at hlead
    cases hlead
  | ok b =>
    rw [hb, Except.bind, follow_cons hname] at hlead
    split_ifs at hlead with hdir hsome
    obtain rfl := (List.append_inj' (Except.ok.inj hlead) rfl).1
    exact ⟨hb, by simpa using hdir⟩

/-- A name is made in a directory that is there. -/
theorem Enters.createAll_join (h : t.Enters p l) (hname : Path.IsName name)
    (hfile : ∀ content, t.node? (l ++ [name]) ≠ some (.file content)) :
    t.createAll (p.join name) = (.ok (), t.ensureDirectory (l ++ [name])) := by
  have hsteps := Path.steps_join hname p
  have hne : (p.join name).steps ≠ [] := by simp [hsteps]
  have hlead : t.follow (t.start p) p.steps = .ok l := h.leads
  have hcreate : t.createDirectory (p.join name) =
      if (t.node? (l ++ [name])).isSome then .error .alreadyExists else .ok (t.store (l ++ [name]) .directory) := by
    rw [createDirectory_eq hsteps, start_join hname, hlead]
    simp [Except.bind, h.isDirectoryAt, hname.2.2.1, hname.2.2.2]
  rw [ensureDirectory]
  split
  · rename_i hsome
    obtain ⟨n, hn⟩ := Option.isSome_iff_exists.1 hsome
    cases n with
    | directory =>
      have hjoin := h.join hname (isDirectoryAt_iff.2 hn)
      rw [if_pos hsome] at hcreate
      exact createDirectories_of_exists hne hcreate
        ((isDirectory_iff_leads hne).2 ⟨_, hjoin.leads, hjoin.isDirectoryAt⟩)
    | file content => exact absurd hn (hfile content)
  · rename_i hnone
    rw [if_neg hnone] at hcreate
    exact createDirectories_of_ok hne hcreate

theorem write_join (h : t.Enters p l) (hname : Path.IsName name) (content : FileContent) :
    t.write (p.join name) content =
      if t.node? (l ++ [name]) = some .directory then .error .isDirectory
      else .ok (t.store (l ++ [name]) (.file content)) := by
  have hplace : t.place? (p.join name) = .ok (some (l ++ [name])) := by
    rw [place?, Path.isEmpty_join hname, if_neg Bool.false_ne_true, Path.steps_join hname, start_join hname]
    simp only [List.getLast?_append, List.getLast?_singleton, Option.some_or, List.dropLast_concat]
    have hlead : t.follow (t.start p) p.steps = .ok l := h.leads
    simp only [hlead, bind, Except.bind, h.isDirectoryAt, Bool.not_true, Bool.false_eq_true, if_false,
      hname.2.2.1, hname.2.2.2, or_self]
    rfl
  rw [write, hplace]
  simp only [bind, Except.bind, Path.endsWithSeparator_join hname, Bool.false_eq_true, if_false]
  cases hn : t.node? (l ++ [name]) with
  | none => rfl
  | some n =>
    cases n with
    | directory => rfl
    | file old => rfl

/-! ## Trees that are alike for a conversion -/

/-- The trees look like `t` from the directories, and the same below the place that the path enters. -/
structure Alike (t : FileTree) (dirs : List Path) (p : Path) (l : Location) (u v : FileTree) : Prop where
  looks : u.LooksLike t dirs
  looks' : v.LooksLike t dirs
  enters : u.Enters p l
  enters' : v.Enters p l
  below : ∀ {j}, l <+: j → u.node? j = v.node? j

/-- Nothing has changed but what is below the location. -/
structure ChangesBelow (l : Location) (t u : FileTree) : Prop where
  cwd : u.workingDirectory = t.workingDirectory
  node?_eq : ∀ {j}, ¬ l <+: j → u.node? j = t.node? j

theorem ChangesBelow.refl (l : Location) (t : FileTree) : ChangesBelow l t t := ⟨rfl, fun _ => rfl⟩

theorem ChangesBelow.trans (h : ChangesBelow l t u) (h' : ChangesBelow l u v) : ChangesBelow l t v :=
  ⟨h'.cwd.trans h.cwd, fun hj => (h'.node?_eq hj).trans (h.node?_eq hj)⟩

theorem changesBelow_store (hl : l <+: j) (hj : j ≠ []) (n : FileNode) : ChangesBelow l t (t.store j n) where
  cwd := rfl
  node?_eq {k} hk := by
    rw [node?_store t hj, if_neg]
    rintro rfl
    exact hk hl

theorem changesBelow_ensureDirectory (l : Location) (t : FileTree) : ChangesBelow l t (t.ensureDirectory l) := by
  rw [ensureDirectory]
  split
  · exact .refl l t
  · rename_i hnone
    refine changesBelow_store List.prefix_rfl ?_ _
    rintro rfl
    exact hnone (by rw [t.node?_nil]; rfl)

theorem LooksLike.of_changesBelow (h : u.LooksLike t dirs) (hblind : ∀ {j}, l <+: j → ¬ t.Sees dirs j)
    (hchange : ChangesBelow l u v) : v.LooksLike t dirs where
  cwd := hchange.cwd.trans h.cwd
  node?_eq hj := (hchange.node?_eq fun hl => hblind hl hj).trans (h.node?_eq hj)

theorem Alike.symm (h : Alike t dirs p l u v) : Alike t dirs p l v u :=
  ⟨h.looks', h.looks, h.enters', h.enters, fun hj => (h.below hj).symm⟩

theorem Alike.store_file (h : Alike t dirs p l u v) (hblind : ∀ {j}, l <+: j → ¬ t.Sees dirs j)
    (hnot : u.node? (l ++ [name]) ≠ some .directory) (content : FileContent) :
    Alike t dirs p l (u.store (l ++ [name]) (.file content)) (v.store (l ++ [name]) (.file content)) where
  looks := h.looks.of_changesBelow hblind (changesBelow_store (List.prefix_append ..) (by simp) _)
  looks' := h.looks'.of_changesBelow hblind (changesBelow_store (List.prefix_append ..) (by simp) _)
  enters := h.enters.store_file (by simp) hnot content
  enters' := h.enters'.store_file (by simp) (h.below (List.prefix_append l [name]) ▸ hnot) content
  below hj := by rw [node?_store u (by simp), node?_store v (by simp), h.below hj]

end FileTree

namespace CommandLine
variable {α β γ ε : Type} {t : FileTree} {dirs : List Path} {p : Path} {l : Location} {name : String}

/-! ## Confined runs -/

namespace Run

/-- On alike trees the run ends the same way and leaves alike trees, and it changes nothing outside. -/
def Confined (t : FileTree) (dirs : List Path) (p : Path) (l : Location) (x : Run α) : Prop :=
  ∀ s r : Session, FileTree.Alike t dirs p l s.files r.files →
    (outcome x s).1 = (outcome x r).1 ∧ FileTree.Alike t dirs p l (outcome x s).2.files (outcome x r).2.files ∧
      FileTree.ChangesBelow l s.files (outcome x s).2.files

theorem outcome_write_join {content : FileContent} {s : Session} (h : s.files.Enters p l) (hname : Path.IsName name)
    (hnot : s.files.node? (l ++ [name]) ≠ some .directory) : outcome (write (p.join name) content) s =
      (.ok (), { s with files := s.files.store (l ++ [name]) (.file content) }) := by
  rw [outcome_write, FileTree.write_join h hname, if_neg hnot]

theorem confined_pure (a : α) : Confined t dirs p l (pure a : Run α) := fun _ _ h => ⟨rfl, h, .refl ..⟩

theorem confined_throw (trouble : Trouble) : Confined t dirs p l (throw trouble : Run α) :=
  fun _ _ h => ⟨rfl, h, .refl ..⟩

theorem confined_report (event : LogEvent) : Confined t dirs p l (report event) := fun _ _ h => ⟨rfl, h, .refl ..⟩

theorem Confined.bind {x : Run α} {f : α → Run β} (hx : Confined t dirs p l x) (hf : ∀ a, Confined t dirs p l (f a)) :
    Confined t dirs p l (x >>= f) := by
  intro s r h
  obtain ⟨hresult, halike, hchange⟩ := hx s r h
  rw [outcome_bind, outcome_bind]
  cases hs : outcome x s with
  | mk result s' =>
    cases hr : outcome x r with
    | mk result' r' =>
      simp only [hs, hr] at hresult halike hchange
      subst hresult
      cases result with
      | error e => exact ⟨rfl, halike, hchange⟩
      | ok a =>
        obtain ⟨hresult, halike', hchange'⟩ := hf a s' r' halike
        exact ⟨hresult, halike', hchange.trans hchange'⟩

theorem confined_lift_bind {result : Except ε α} {trouble : ε → Trouble} {f : α → Run β}
    (hf : ∀ a, Confined t dirs p l (f a)) : Confined t dirs p l (lift trouble result >>= f) := by
  cases result with
  | ok a => exact (confined_pure a).bind hf
  | error e => exact (confined_throw _).bind hf

theorem Confined.attempt {x : Run α} (hx : Confined t dirs p l x) : Confined t dirs p l (attempt x) := by
  intro s r h
  obtain ⟨hresult, halike, hchange⟩ := hx s r h
  rw [outcome_attempt, outcome_attempt, hresult]
  exact ⟨rfl, halike, hchange⟩

/-- What is read of the tree has to be the same in alike trees. -/
theorem confined_files_bind {f : FileTree → Run β} (hsame : ∀ {u v}, FileTree.Alike t dirs p l u v → f u = f v)
    (hf : ∀ u, Confined t dirs p l (f u)) : Confined t dirs p l (files >>= f) := by
  intro s r h
  rw [outcome_files_bind, outcome_files_bind, ← hsame h]
  exact hf s.files s r h

theorem confined_mapM {f : α → Run β} {items : List α} (hf : ∀ a ∈ items, Confined t dirs p l (f a)) :
    Confined t dirs p l (items.mapM f) := by
  induction items with
  | nil => exact confined_pure []
  | cons a items ih =>
    rw [List.forall_mem_cons] at hf
    rw [List.mapM_cons]
    exact hf.1.bind fun b => (ih hf.2).bind fun bs => confined_pure (b :: bs)

theorem confined_forM {f : α → Run Unit} {items : List α} (hf : ∀ a ∈ items, Confined t dirs p l (f a)) :
    Confined t dirs p l (items.forM f) := by
  induction items with
  | nil => exact confined_pure ()
  | cons a items ih =>
    rw [List.forall_mem_cons] at hf
    simp only [List.forM_eq_forM, List.forM_cons] at ih ⊢
    exact hf.1.bind fun _ => ih hf.2

section
variable (hblind : ∀ {j}, l <+: j → ¬ t.Sees dirs j)
include hblind

theorem confined_write (hname : Path.IsName name) (content : FileContent) :
    Confined t dirs p l (write (p.join name) content) := by
  intro s r h
  rw [outcome_write, outcome_write, FileTree.write_join h.enters hname, FileTree.write_join h.enters' hname,
    ← h.below (List.prefix_append l [name])]
  by_cases hdir : s.files.node? (l ++ [name]) = some .directory
  · rw [if_pos hdir, if_pos hdir]
    exact ⟨rfl, h, .refl ..⟩
  · rw [if_neg hdir, if_neg hdir]
    exact ⟨rfl, h.store_file hblind hdir content, FileTree.changesBelow_store (List.prefix_append ..) (by simp) _⟩

end

end Run

/-! ## The steps of a conversion -/

section
variable {ws : Workspace} {unit : String} (ht : t.WellFormed) (hblind : ∀ {j}, l <+: j → ¬ t.Sees ws.dataDirs j)
  (hunit : '/' ∉ unit.toList)

section
include ht hunit

theorem confined_loadUnit : Run.Confined t ws.dataDirs p l (loadUnit ws unit) := by
  refine Run.confined_files_bind (fun {u v} h => ?_) fun u => ?_
  · rw [h.looks.findMesh_eq ht hunit, h.looks'.findMesh_eq ht hunit]
    cases hpath : t.findMesh ws.dataDirs unit with
    | none => rfl
    | some path =>
      simp only
      rw [h.looks.loadMesh_eq ht hunit hpath, h.looks'.loadMesh_eq ht hunit hpath]
  · cases u.findMesh ws.dataDirs unit with
    | none => exact Run.confined_throw _
    | some path =>
      refine Run.confined_lift_bind fun roots => ?_
      split
      · exact (Run.confined_throw _).bind fun _ => Run.confined_pure _
      · exact Run.confined_pure _

end

theorem confined_composeRoot (root : MeshObject) : Run.Confined t dirs p l (composeRoot ws unit root) := by
  refine Run.confined_lift_bind fun result => ?_
  cases result with
  | some a => exact (Run.confined_report _).bind fun _ => Run.confined_pure a
  | none => exact (Run.confined_report _).bind fun _ => Run.confined_throw _

section
include hblind hunit

theorem confined_writeAtlasFiles (a : Atlas) : Run.Confined t ws.dataDirs p l (writeAtlasFiles ws unit a p) := by
  rw [writeAtlasFiles_eq]
  refine (Run.confined_forM fun file hfile => ?_).bind fun _ => Run.confined_report _
  have htail := isTail_of_mem_atlasFiles hfile
  rw [← Path.join_append htail]
  exact Run.confined_write hblind (Path.isName_append hunit htail) _

theorem confined_convertRoot (root : MeshObject) : Run.Confined t ws.dataDirs p l (convertRoot ws unit p root) :=
  (confined_composeRoot root).bind fun a => (Run.confined_report _).bind fun _ =>
    (confined_writeAtlasFiles hblind hunit a).bind fun _ => Run.confined_pure (root, a)

include ht

theorem confined_convertUnit : Run.Confined t ws.dataDirs p l (convertUnit ws unit p) :=
  (confined_loadUnit ht hunit).bind fun _ =>
    (Run.confined_mapM fun root _ => confined_convertRoot hblind hunit root).bind fun _ =>
      (Run.confined_forM fun _ _ => Run.confined_report _).bind fun _ => Run.confined_pure _

end

end

end CommandLine
end TextureAtlas
