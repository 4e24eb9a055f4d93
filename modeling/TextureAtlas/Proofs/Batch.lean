import Mathlib.Data.Bool.Count
import TextureAtlas.CommandLine.Commands
import TextureAtlas.Proofs.Confined
import TextureAtlas.Proofs.Preparation
import TextureAtlas.Proofs.UnitRasters

/-!
# Batches

A batch converts every unit into a directory of its own. It comes to the same as conversions that know nothing
of each other, each told to put everything into that directory (`batch_equals_single_conversions`).
-/

namespace TextureAtlas.CommandLine
variable {s r : Session} {t t₁ u v : FileTree} {o : AtlasOptions} {settings : Settings} {ws : Workspace}
  {out l : Location} {unit name : String}

/-! ## Conversions on their own -/

/-- The conversion of a name that is told to put everything into the directory of the unit. -/
def convertAlone (o : AtlasOptions) (unit name : String) : Run Unit :=
  let unitDir := o.outDir.join unit
  runConvert name (some (unitDir.join s!"{name}.json")) { o with outDir := unitDir }

/-- The conversion of a unit, followed by that of its wreck if there is one: which went well, and what is left. -/
def aloneUnit (o : AtlasOptions) (unit : String) (t : FileTree) : List Bool × FileTree :=
  let whole := (convertAlone o unit unit).on t
  let wreck := unit ++ FileTree.wreckSuffix
  if (t.findMesh o.dataDirs wreck).isSome then
    let dead := (convertAlone o unit wreck).on whole.2.files
    ([whole.1.isOk, dead.1.isOk], dead.2.files)
  else ([whole.1.isOk], whole.2.files)

/-- Which of the conversions on their own go well. -/
def outcomesAlone (o : AtlasOptions) (units : List String) (t : FileTree) : List Bool :=
  units.flatMap fun unit => (aloneUnit o unit t).1

/-- There is one conversion for each unit and one for each wreck. -/
theorem length_outcomesAlone (o : AtlasOptions) (units : List String) (t : FileTree) :
    (outcomesAlone o units t).length = units.length +
      (units.filter fun unit => (t.findMesh o.dataDirs (unit ++ FileTree.wreckSuffix)).isSome).length := by
  induction units with
  | nil => rfl
  | cons unit units ih =>
    rw [outcomesAlone] at ih ⊢
    rw [List.flatMap_cons, List.length_append, ih, aloneUnit, List.filter_cons, List.length_cons]
    split
    · simp only [List.length_cons, List.length_nil]
      omega
    · simp only [List.length_cons, List.length_nil]
      omega

/-- What a batch attempts under each name. -/
def convertInto (ws : Workspace) (unitDir : Path) (name : String) : Run Unit := do
  let json ← convertUnit ws name unitDir
  Run.write (unitDir.join s!"{name}.json") (.ofText json.pretty)

theorem outcome_batchName (ws : Workspace) (unitDir : Path) (name : String) (s : Session) :
    (Run.outcome (batchName ws unitDir name) s).1 =
      .ok (Run.outcome (convertInto ws unitDir name) s).1.isOk ∧
    (Run.outcome (batchName ws unitDir name) s).2.files =
      (Run.outcome (convertInto ws unitDir name) s).2.files := by
  have hbody : (do
      let json ← convertUnit ws name unitDir
      Run.write (unitDir.join s!"{name}.json") (.ofText json.pretty)) = convertInto ws unitDir name := rfl
  rw [batchName, hbody, Run.outcome_bind, Run.outcome_attempt]
  cases Run.outcome (convertInto ws unitDir name) s with
  | mk result s' =>
    cases result with
    | ok a => exact ⟨rfl, rfl⟩
    | error e => exact ⟨rfl, rfl⟩

theorem confined_convertInto {p : Path} (ht : t.WellFormed) (hblind : ∀ {j}, l <+: j → ¬ t.Sees ws.dataDirs j)
    (hname : '/' ∉ name.toList) : Run.Confined t ws.dataDirs p l (convertInto ws p name) :=
  (confined_convertUnit ht hblind hname).bind fun _ => Run.confined_write hblind (Path.isName_json hname) _

/-- A conversion goes well if the mesh is there, each of its roots fits on an atlas and nothing is in the way of
the files. It leaves the files of the atlases, and the description. -/
theorem exists_leaves_convertInto {p path : Path} {composed : List (MeshObject × Atlas)}
    (henters : s.files.Enters p l) (hfree : ∀ file : String, s.files.isDirectoryAt (l ++ [file]) = false)
    (hunit : '/' ∉ unit.toList) (hpath : s.files.findMesh ws.dataDirs unit = some path)
    (hload : s.files.loadMesh path = .ok (composed.map (·.1))) (hne : composed ≠ [])
    (hcomposed : ∀ p ∈ composed, compose p.1.referencedFragments ws.index ws.settings = .ok (some p.2)) :
    ∃ v json, s.files.writeAll (p.join unit) (composed.flatMap fun p => atlasFiles ws p.2) = .ok v ∧
      Run.Leaves (convertInto ws p unit) s () (v.store (l ++ [unit ++ ".json"]) (.file json)) := by
  have htails := isTail_of_mem_flatMap ws composed
  have hnot : ∀ file : String, s.files.node? (l ++ [file]) ≠ some .directory := by
    intro file hdir
    rw [← FileTree.isDirectoryAt_iff, hfree] at hdir
    cases hdir
  obtain ⟨t, ht⟩ := FileTree.exists_writeAll htails (henters.opens_join hunit) fun f _ => hnot _
  obtain ⟨henters', hsame⟩ := henters.writeAll htails ht
  obtain ⟨s', hrun, rfl⟩ := leaves_convertUnit.2 ⟨path, composed, hpath, hload, hne, hcomposed, ht, rfl⟩
  have hjson : s'.files.node? (l ++ [unit ++ ".json"]) ≠ some .directory := by
    intro hdir
    rw [← FileTree.isDirectoryAt_iff, hsame, hfree] at hdir
    cases hdir
  exact ⟨_, _, ht, Run.leaves_bind.2 ⟨_, s', hrun, _, Run.outcome_write_join henters' (Path.isName_json hunit) hjson, rfl⟩⟩

/-- A file of the last atlas is there after all of them are written. -/
theorem node?_of_mem_atlasFiles {p : Path} (before : List (MeshObject × Atlas)) {root : MeshObject} {a : Atlas}
    (henters : t.Enters p l) (hunit : '/' ∉ unit.toList)
    (hwritten : t.writeAll (p.join unit) ((before ++ [(root, a)]).flatMap fun q => atlasFiles ws q.2) = .ok v)
    {f : String × FileContent} (hf : f ∈ atlasFiles ws a) :
    v.node? (l ++ [(p.join unit).lastPart ++ f.1]) = some (.file f.2) := by
  have hread := read_of_mem_atlasFiles hwritten hf fun q hq => absurd hq List.not_mem_nil
  obtain ⟨parent, hopens, hnode⟩ := (FileTree.read_extended (isTail_of_mem_atlasFiles hf)).1 hread
  have henters' := (henters.writeAll (isTail_of_mem_flatMap _ _) hwritten).1
  obtain rfl := (henters'.opens_join hunit).unique hopens
  exact hnode

/-- A mesh without roots ends a conversion before anything is written. -/
theorem outcome_convertInto_rootless {p path : Path} (hpath : s.files.findMesh ws.dataDirs name = some path)
    (hload : s.files.loadMesh path = .ok []) : Run.outcome (convertInto ws p name) s = (.error (.noRoots path), s) := by
  have hunit : Run.outcome (loadUnit ws name) s = (.error (.noRoots path), s) := by
    rw [loadUnit, Run.outcome_files_bind, hpath]
    simp only [Run.outcome_lift_bind, hload]
    rfl
  simp only [convertInto, convertUnit, Run.outcome_bind, hunit]

/-! ## The output directory -/

/-- An output directory that can be made where nothing is. Making it adds nothing that is seen from the data
directories. -/
structure BatchSite (o : AtlasOptions) (t t₁ : FileTree) (out : Location) : Prop where
  wellFormed : t.WellFormed
  homed : t.isDirectoryAt t.workingDirectory = true
  made : t.createAll o.outDir = (.ok (), t₁)
  leads : t₁.locate o.outDir = .ok out
  absent : t.node? out = none
  apart : ∀ j, t.node? j = none → (t₁.node? j).isSome = true → ¬ t.Sees o.dataDirs j

/-- What holds of the tree all along a batch: the output directory is there, the data directories look as they
did, and nothing is lost. -/
structure Reached (o : AtlasOptions) (t : FileTree) (out : Location) (u : FileTree) : Prop where
  enters : u.Enters o.outDir out
  looks : u.LooksLike t o.dataDirs
  keeps : t.Keeps u

/-- The directories of different units have nothing in common. -/
theorem not_below_of_ne {unit unit' : String} {j : Location} (hne : unit ≠ unit') (hj : out ++ [unit] <+: j) :
    ¬ out ++ [unit'] <+: j := by
  intro hj'
  have hsame : out ++ [unit] = out ++ [unit'] :=
    (List.prefix_of_prefix_length_le hj hj' (by simp)).eq_of_length (by simp)
  exact hne (by simpa using hsame)

section
variable (hsite : BatchSite o t t₁ out)
include hsite

theorem BatchSite.make : t.make (t.start o.outDir) o.outDir.components = some (out, t₁) ∧ t₁.WellFormed ∧
    t.Grows t₁ ∧ t₁.isDirectoryAt out = true :=
  hsite.wellFormed.make_of_createAll hsite.homed hsite.made hsite.leads hsite.absent

theorem BatchSite.absent_below {j : Location} (hj : out <+: j) : t.node? j = none := by
  rw [Option.eq_none_iff_forall_not_mem]
  intro n hn
  obtain ⟨more, rfl⟩ := hj
  by_cases hmore : more = []
  · rw [hmore, List.append_nil, hsite.absent] at hn
    cases hn
  · have hdir := hsite.wellFormed.isDirectoryAt (by rw [hn]; rfl) hmore
    rw [FileTree.isDirectoryAt_iff, hsite.absent] at hdir
    cases hdir

theorem BatchSite.blind {j : Location} (hj : out <+: j) : ¬ t.Sees o.dataDirs j := by
  obtain ⟨-, -, -, hdir⟩ := hsite.make
  exact hsite.wellFormed.not_sees_below hsite.homed hsite.absent
    (hsite.apart out hsite.absent (FileTree.isSome_of_isDirectoryAt hdir)) hj

theorem BatchSite.reached : Reached o t out t₁ := by
  obtain ⟨-, -, hgrows, hdir⟩ := hsite.make
  refine ⟨⟨FileTree.leads_of_locate hsite.leads, hdir⟩, ⟨hgrows.cwd, fun {j} hj => ?_⟩, hgrows.toKeeps⟩
  cases hn : t.node? j with
  | some n => exact hgrows.node?_eq hn
  | none =>
    rw [← Option.not_isSome_iff_eq_none]
    exact fun hsome => hsite.apart j hn hsome hj

/-- Only directories are made, so there is no file in the way of a unit's directory. -/
theorem BatchSite.not_file (unit : String) (content : FileContent) :
    t₁.node? (out ++ [unit]) ≠ some (.file content) := by
  intro hfile
  obtain ⟨-, -, hgrows, -⟩ := hsite.make
  rcases hgrows.added hfile with hn | ⟨-, hn⟩
  · rw [hsite.absent_below (List.prefix_append ..)] at hn
    cases hn
  · cases hn

theorem BatchSite.createAll_join (hunit : Path.IsName unit) :
    t.createAll (o.outDir.join unit) = (.ok (), t₁.ensureDirectory (out ++ [unit])) := by
  obtain ⟨hmake, -, -, hdir⟩ := hsite.make
  exact hsite.wellFormed.createAll_join hunit hmake hdir (hsite.not_file unit)

theorem Reached.of_changesBelow (h : Reached o t out u) (hunit : Path.IsName unit)
    (hchange : FileTree.ChangesBelow (out ++ [unit]) u v) (henters : v.Enters (o.outDir.join unit) (out ++ [unit])) :
    Reached o t out v where
  enters := henters.of_join hunit
  looks := h.looks.of_changesBelow (fun hj => hsite.blind ((List.prefix_append ..).trans hj)) hchange
  keeps := by
    refine ⟨hchange.cwd.trans h.keeps.cwd, fun {j n} hn => ?_⟩
    rw [hchange.node?_eq, h.keeps.node?_eq hn]
    intro hj
    rw [hsite.absent_below ((List.prefix_append ..).trans hj)] at hn
    cases hn

/-- The directory of a unit is made where no file is in its way. -/
theorem Reached.ensureDirectory (h : Reached o t out u) (hunit : Path.IsName unit)
    (hfile : ∀ content, u.node? (out ++ [unit]) ≠ some (.file content)) :
    u.createAll (o.outDir.join unit) = (.ok (), u.ensureDirectory (out ++ [unit])) ∧
      Reached o t out (u.ensureDirectory (out ++ [unit])) ∧
      (u.ensureDirectory (out ++ [unit])).Enters (o.outDir.join unit) (out ++ [unit]) := by
  have hne : out ++ [unit] ≠ [] := by simp
  have henters : (u.ensureDirectory (out ++ [unit])).Enters (o.outDir.join unit) (out ++ [unit]) :=
    ((FileTree.grows_ensureDirectory hne).toKeeps.enters h.enters).join hunit
      (FileTree.isDirectoryAt_ensureDirectory hne hfile)
  exact ⟨h.enters.createAll_join hunit hfile,
    h.of_changesBelow hsite hunit (FileTree.changesBelow_ensureDirectory ..) henters, henters⟩

end

/-! ## One unit -/

section
variable (hsite : BatchSite o t t₁ out) (hprint : o.printConfig = false)
  (hsettings : Run.Leaves (settleSettings o) { files := t } settings t)
  (hws : Run.Leaves (prepareWorkspace o settings) { files := t } ws t)
include hsite hprint hsettings hws

/-- A conversion on its own settles the same settings and prepares the same workspace as the batch. -/
theorem outcome_convertAlone (hs : t.Keeps s.files)
    (hmade : s.files.createAll (o.outDir.join unit) = (.ok (), v)) (hv : Reached o t out v) :
    ∃ s', s'.files = v ∧ ∀ name, Run.outcome (convertAlone o unit name) s =
      Run.outcome (convertInto ws (o.outDir.join unit) name >>= fun _ =>
        Run.report (.unitWritten ((o.outDir.join unit).join s!"{name}.json"))) s' := by
  obtain ⟨s₁, hfirst, hs₁⟩ := leaves_settleSettings_of_keeps (s := { files := t }) hs hsettings
  have hsecond := leaves_prepareWorkspace_of_looksLike (s := { files := t }) (r := { s₁ with files := v })
    hsite.wellFormed hv.keeps hv.looks hws
  obtain ⟨s₂, hsecond, hs₂⟩ := hsecond
  refine ⟨s₂, hs₂, fun name => ?_⟩
  have halone : convertAlone o unit name = (do
      let settings ← settleSettings o
      if o.printConfig then showSettings settings o.printConfigFormat
      else
        Run.createAll (o.outDir.join unit) (.outDirNotCreated (o.outDir.join unit))
        let ws ← prepareWorkspace o settings
        let json ← convertUnit ws name (o.outDir.join unit)
        Run.write ((o.outDir.join unit).join s!"{name}.json") (.ofText json.pretty)
        Run.report (.unitWritten ((o.outDir.join unit).join s!"{name}.json"))) := rfl
  rw [← hs₁] at hmade
  rw [halone, Run.outcome_bind, hfirst]
  simp only [hprint, Bool.false_eq_true, if_false]
  rw [Run.outcome_createAll_bind hmade, Run.outcome_bind, hsecond, convertInto, bind_assoc]

/-- Where a conversion on its own and a batch start from alike trees, they do the same under a name. -/
theorem outcome_batchName_of_convertAlone (hname : '/' ∉ name.toList)
    (hs : t.Keeps s.files) (hmade : s.files.createAll (o.outDir.join unit) = (.ok (), v)) (hv : Reached o t out v)
    (halike : FileTree.Alike t o.dataDirs (o.outDir.join unit) (out ++ [unit]) v r.files) :
    ∃ r', Run.outcome (batchName ws (o.outDir.join unit) name) r =
        (.ok (Run.outcome (convertAlone o unit name) s).1.isOk, r') ∧
      FileTree.Alike t o.dataDirs (o.outDir.join unit) (out ++ [unit])
        (Run.outcome (convertAlone o unit name) s).2.files r'.files ∧
      FileTree.ChangesBelow (out ++ [unit]) v (Run.outcome (convertAlone o unit name) s).2.files ∧
      FileTree.ChangesBelow (out ++ [unit]) r.files r'.files := by
  have hdirs := dataDirs_of_prepareWorkspace hws
  obtain ⟨s', rfl, halone⟩ := outcome_convertAlone hsite hprint hsettings hws hs hmade hv
  have hblind : ∀ {j}, out ++ [unit] <+: j → ¬ t.Sees ws.dataDirs j := by
    intro j hj
    rw [hdirs]
    exact hsite.blind ((List.prefix_append ..).trans hj)
  -- Both run the same steps below the unit's directory, so one comparison serves for either.
  have hconfined := confined_convertInto (p := o.outDir.join unit) hsite.wellFormed hblind hname
  rw [hdirs] at hconfined
  obtain ⟨hresult, halike', hchange⟩ := hconfined s' r halike
  obtain ⟨-, -, hchange'⟩ := hconfined r s' halike.symm
  obtain ⟨hbatch, hfiles⟩ := outcome_batchName ws (o.outDir.join unit) name r
  obtain ⟨hok, hleft⟩ := Run.outcome_bind_report (convertInto ws (o.outDir.join unit) name)
    (.unitWritten ((o.outDir.join unit).join s!"{name}.json")) s'
  rw [halone, hok, hleft, hresult]
  refine ⟨_, Prod.ext hbatch rfl, ?_, hchange, ?_⟩
  · rw [hfiles]
    exact halike'
  · rw [hfiles]
    exact hchange'

/-- The step of a batch: the unit's directory is as after the unit's conversions on their own, and the rest is
untouched. -/
theorem outcome_batchUnit (hunit : Path.IsName unit) (h : Reached o t out s.files)
    (hfresh : ∀ {j}, out ++ [unit] <+: j → s.files.node? j = t₁.node? j) :
    ∃ s', Run.outcome (batchUnit ws o.outDir unit) s = (.ok (aloneUnit o unit t).1, s') ∧
      Reached o t out s'.files ∧ FileTree.ChangesBelow (out ++ [unit]) s.files s'.files ∧
      ∀ {j}, out ++ [unit] <+: j → s'.files.node? j = (aloneUnit o unit t).2.node? j := by
  have hwreck : '/' ∉ (unit ++ FileTree.wreckSuffix).toList := by
    have hsuffix : '/' ∉ FileTree.wreckSuffix.toList := by decide
    simp [hunit.2.1, hsuffix]
  have hdirs := dataDirs_of_prepareWorkspace hws
  have hfile : ∀ content, s.files.node? (out ++ [unit]) ≠ some (.file content) := by
    intro content
    rw [hfresh List.prefix_rfl]
    exact hsite.not_file unit content
  obtain ⟨hmade, hready, henters⟩ := h.ensureDirectory hsite hunit hfile
  obtain ⟨-, hready₁, henters₁⟩ := hsite.reached.ensureDirectory hsite hunit (hsite.not_file unit)
  have halike : FileTree.Alike t o.dataDirs (o.outDir.join unit) (out ++ [unit])
      (t₁.ensureDirectory (out ++ [unit])) (s.files.ensureDirectory (out ++ [unit])) := by
    refine ⟨hready₁.looks, hready.looks, henters₁, henters, fun {j} hj => ?_⟩
    rw [FileTree.node?_ensureDirectory (by simp) (hsite.not_file unit), FileTree.node?_ensureDirectory (by simp) hfile,
      hfresh hj]
  obtain ⟨s₁, hfirst, halike₁, hchange₁, hchanges₁⟩ := outcome_batchName_of_convertAlone hsite hprint hsettings hws
    (s := { files := t }) (r := { s with files := s.files.ensureDirectory (out ++ [unit]) }) hunit.2.1
    ⟨rfl, id⟩ (hsite.createAll_join hunit) hready₁ halike
  have hon : ∀ (x : Run Unit) (u : FileTree), x.on u = Run.outcome x { files := u } := fun _ _ => rfl
  rw [batchUnit, Run.outcome_createAll_bind hmade, Run.outcome_bind, hfirst]
  simp only [Run.outcome_files_bind, hdirs, halike₁.looks'.findMesh_eq hsite.wellFormed hwreck, aloneUnit, hon]
  by_cases hmesh : (t.findMesh o.dataDirs (unit ++ FileTree.wreckSuffix)).isSome = true
  · -- On its own, the wreck's conversion begins by making a directory that the unit's has already made.
    have hagain := hready₁.of_changesBelow hsite hunit hchange₁ halike₁.enters
    have hthere := hagain.enters.createAll_join hunit fun content hfile => by
      simp [FileTree.isDirectoryAt_iff.1 halike₁.enters.isDirectoryAt] at hfile
    rw [FileTree.ensureDirectory_of_isDirectoryAt halike₁.enters.isDirectoryAt] at hthere
    obtain ⟨s₂, hsecond, halike₂, -, hchanges₂⟩ := outcome_batchName_of_convertAlone hsite hprint hsettings hws
      (s := { files := _ }) (r := s₁) hwreck hagain.keeps hthere hagain halike₁
    have hchanges := hchanges₁.trans hchanges₂
    rw [if_pos hmesh, if_pos hmesh, Run.outcome_bind, hsecond]
    exact ⟨s₂, rfl, hready.of_changesBelow hsite hunit hchanges halike₂.enters',
      (FileTree.changesBelow_ensureDirectory ..).trans hchanges, fun hj => (halike₂.below hj).symm⟩
  · rw [if_neg hmesh, if_neg hmesh]
    exact ⟨s₁, rfl, hready.of_changesBelow hsite hunit hchanges₁ halike₁.enters',
      (FileTree.changesBelow_ensureDirectory ..).trans hchanges₁, fun hj => (halike₁.below hj).symm⟩

/-! ## All units -/

/-- What holds of a run over units: each finished unit's directory is as after the conversions on their own,
and the directories of the others are as they were. -/
theorem outcome_batchUnits {units : List String} (hunits : ∀ unit ∈ units, Path.IsName unit) (hnodup : units.Nodup)
    (h : Reached o t out s.files)
    (hfresh : ∀ unit ∈ units, ∀ {j}, out ++ [unit] <+: j → s.files.node? j = t₁.node? j) :
    ∃ s', Run.outcome (units.mapM (batchUnit ws o.outDir)) s =
        (.ok (units.map fun unit => (aloneUnit o unit t).1), s') ∧
      (∀ unit ∈ units, ∀ {j}, out ++ [unit] <+: j → s'.files.node? j = (aloneUnit o unit t).2.node? j) ∧
      ∀ {j}, (∀ unit ∈ units, ¬ out ++ [unit] <+: j) → s'.files.node? j = s.files.node? j := by
  induction units generalizing s with
  | nil => exact ⟨s, rfl, by simp, fun _ => rfl⟩
  | cons unit units ih =>
    rw [List.forall_mem_cons] at hunits hfresh
    obtain ⟨hnotin, hnodup⟩ := List.nodup_cons.1 hnodup
    have hne : ∀ unit' ∈ units, unit' ≠ unit := by
      rintro unit' hunit' rfl
      exact hnotin hunit'
    obtain ⟨s₁, hfirst, hreached, hchange, hdone⟩ :=
      outcome_batchUnit hsite hprint hsettings hws hunits.1 h hfresh.1
    -- The first unit has changed nothing but its own directory, so the others still find theirs as it was made.
    have hfresh₁ : ∀ unit' ∈ units, ∀ {j}, out ++ [unit'] <+: j → s₁.files.node? j = t₁.node? j := by
      intro unit' hunit' j hj
      rw [hchange.node?_eq (not_below_of_ne (hne unit' hunit') hj), hfresh.2 unit' hunit' hj]
    obtain ⟨s₂, hrest, hdone₂, hkept⟩ := ih hunits.2 hnodup hreached hfresh₁
    refine ⟨s₂, ?_, ?_, fun {j} hj => ?_⟩
    · rw [List.mapM_cons, Run.outcome_bind, hfirst]
      simp only [Run.outcome_bind, hrest]
      rfl
    · rw [List.forall_mem_cons]
      refine ⟨fun {j} hj => ?_, hdone₂⟩
      rw [hkept fun unit' hunit' => not_below_of_ne (hne unit' hunit').symm hj, hdone hj]
    · rw [List.forall_mem_cons] at hj
      rw [hkept hj.2, hchange.node?_eq hj.1]

omit hprint hsettings hws in
/-- The first unit makes the output directory, so the batch might as well start with it. -/
theorem outcome_batchUnits_cons {units : List String} (hunit : Path.IsName unit) (hs : s.files = t) :
    Run.outcome ((unit :: units).mapM (batchUnit ws o.outDir)) s =
      Run.outcome ((unit :: units).mapM (batchUnit ws o.outDir)) { s with files := t₁ } := by
  obtain ⟨hmade, -⟩ := hsite.reached.ensureDirectory hsite hunit (hsite.not_file unit)
  have hmade₁ := hsite.createAll_join hunit
  rw [← hs] at hmade₁
  have hfirst : Run.outcome (batchUnit ws o.outDir unit) s =
      Run.outcome (batchUnit ws o.outDir unit) { s with files := t₁ } := by
    rw [batchUnit, Run.outcome_createAll_bind hmade₁, Run.outcome_createAll_bind hmade]
  rw [List.mapM_cons, Run.outcome_bind, Run.outcome_bind, hfirst]

/-- A batch over any units from the tree in which nothing has been made yet. -/
theorem outcome_batchUnits_on {units : List String} (hunits : ∀ unit ∈ units, Path.IsName unit)
    (hnodup : units.Nodup) (hs : s.files = t) :
    ∃ s', Run.outcome (units.mapM (batchUnit ws o.outDir)) s =
        (.ok (units.map fun unit => (aloneUnit o unit t).1), s') ∧
      (∀ unit ∈ units, ∀ {j}, out ++ [unit] <+: j → s'.files.node? j = (aloneUnit o unit t).2.node? j) ∧
      ∀ {j content}, (∀ unit ∈ units, ¬ out ++ [unit] <+: j) →
        (s'.files.node? j = some (.file content) ↔ t.node? j = some (.file content)) := by
  cases units with
  | nil => exact ⟨s, rfl, by simp, fun _ => by rw [hs]⟩
  | cons unit units =>
    obtain ⟨s', hrun, hdone, hkept⟩ := outcome_batchUnits hsite hprint hsettings hws (s := { s with files := t₁ })
      hunits hnodup hsite.reached fun _ _ _ _ => rfl
    rw [← outcome_batchUnits_cons hsite (hunits unit List.mem_cons_self) hs] at hrun
    refine ⟨s', hrun, hdone, fun {j content} hj => ?_⟩
    obtain ⟨-, -, hgrows, -⟩ := hsite.make
    rw [hkept hj]
    constructor
    · intro hfile
      rcases hgrows.added hfile with hn | ⟨-, hn⟩
      · exact hn
      · cases hn
    · exact fun hfile => hgrows.node?_eq hfile

omit hsite in
/-- The units are converted in a session that has the tree as it was, and then they are counted. -/
theorem outcome_runBatch {pattern : String} {glob : Glob} (hglob : Glob.ofText? pattern = some glob) :
    ∃ s, s.files = t ∧ ∀ outcomes s',
      Run.outcome ((t.units glob o.dataDirs).names.mapM (batchUnit ws o.outDir)) s = (.ok outcomes, s') →
        (runBatch pattern o).on t = (.ok (), { s' with
          log := s'.log ++ [.batchFinished (outcomes.flatten.count true) (outcomes.flatten.count false)] }) := by
  obtain ⟨s₁, hfirst, hs₁⟩ := hsettings
  have hdiscover : Run.Leaves (discoverUnits o.dataDirs pattern) s₁ (t.units glob o.dataDirs) t :=
    leaves_discoverUnits.2 ⟨glob, hglob, by rw [hs₁], hs₁.symm⟩
  obtain ⟨s₂, hsecond, hs₂⟩ := hdiscover
  have hprepare : Run.Leaves (prepareWorkspace o settings) { s₂ with
      log := s₂.log ++ [.unitsMatched (t.units glob o.dataDirs).names.length pattern] } ws t := by
    refine leaves_prepareWorkspace.2 ?_
    rw [hs₂]
    exact leaves_prepareWorkspace.1 hws
  obtain ⟨s₃, hthird, hs₃⟩ := hprepare
  have hbatch : (runBatch pattern o).on t = Run.outcome (runBatch pattern o) { files := t } := rfl
  refine ⟨s₃, hs₃, fun outcomes s' hrun => ?_⟩
  rw [hbatch, runBatch, Run.outcome_bind, hfirst]
  simp only [hprint, Bool.false_eq_true, if_false]
  rw [Run.outcome_bind, hsecond]
  simp only [Run.outcome_report_bind]
  rw [Run.outcome_bind, hthird]
  simp only [Run.outcome_bind, hrun]
  rfl

/-- **A batch comes to single conversions.** If the settings, the glob and the workspace are in order, and the
output directory can be made where nothing is and out of sight of the data directories, a batch ends well. In the
end the directory of each unit holds what the unit's conversion on its own, followed by that of the wreck if there
is one, leaves there; elsewhere there are the files that have been there before. The last line of the log counts
the conversions that go well and those that do not, one for each unit and one for each wreck. -/
theorem batch_equals_single_conversions {pattern : String} {glob : Glob} (hglob : Glob.ofText? pattern = some glob)
    (hnames : ∀ unit ∈ (t.units glob o.dataDirs).names, unit ≠ "." ∧ unit ≠ "..") :
    ∃ s, (runBatch pattern o).on t = (.ok (), s) ∧
      (∀ unit ∈ (t.units glob o.dataDirs).names, ∀ j, out ++ [unit] <+: j →
        s.files.node? j = (aloneUnit o unit t).2.node? j) ∧
      (∀ j content, (∀ unit ∈ (t.units glob o.dataDirs).names, ¬ out ++ [unit] <+: j) →
        (s.files.node? j = some (.file content) ↔ t.node? j = some (.file content))) ∧
      (∃ log, s.log = log ++ [.batchFinished
        ((outcomesAlone o (t.units glob o.dataDirs).names t).count true)
        ((outcomesAlone o (t.units glob o.dataDirs).names t).count false)]) ∧
      (outcomesAlone o (t.units glob o.dataDirs).names t).count true +
          (outcomesAlone o (t.units glob o.dataDirs).names t).count false =
        (t.units glob o.dataDirs).names.length + ((t.units glob o.dataDirs).names.filter fun unit =>
          (t.findMesh o.dataDirs (unit ++ FileTree.wreckSuffix)).isSome).length := by
  have hunits : ∀ unit ∈ (t.units glob o.dataDirs).names, Path.IsName unit := by
    intro unit hunit
    obtain ⟨d, -, hin⟩ := FileTree.mem_units.1 hunit
    obtain ⟨⟨-, -, hne, hslash⟩, -⟩ := hsite.wellFormed.mem_unitsIn.1 hin
    exact ⟨hne, hslash, hnames unit hunit⟩
  obtain ⟨s₁, hs₁, hbatch⟩ := outcome_runBatch hprint hsettings hws hglob
  obtain ⟨s₂, hrun, hdone, hkept⟩ :=
    outcome_batchUnits_on hsite hprint hsettings hws hunits (NameTable.nodup_names _) hs₁
  refine ⟨_, hbatch _ _ hrun, fun unit hunit j => hdone unit hunit, fun j content => hkept, ⟨s₂.log, rfl⟩, ?_⟩
  rw [List.count_true_add_count_false, length_outcomesAlone]

end

/-! ## A unit with its wreck -/

/-- Small canvases, and neither pictures nor tables. -/
def tinyOptions (dirs : List Path) : AtlasOptions where
  dataDirs := dirs
  outDir := ⟨"out"⟩
  minWidth := 1
  maxWidth := 2
  tallVariants := false
  swatchSize := 1
  png := false
  metadata := false

theorem leaves_settleSettings_tiny (dirs : List Path) (t : FileTree) :
    Run.Leaves (settleSettings (tinyOptions dirs)) { files := t } tinySettings t := by
  have horder : ChannelOrder.ofText? "bgrx" = some .bgrx := rfl
  exact leaves_settleSettings.2 ⟨⟨.bgrx, horder, rfl, rfl⟩, rfl⟩

/-- The workspace of these options, with a palette of one colour. -/
def tinyBatch (dirs : List Path) : Workspace := ⟨dirs, tinySettings, ⟨#[0]⟩, .ofArchives [], false, false⟩

/-- A workspace is prepared where a palette of one colour is the first to be found and no textures are. -/
theorem leaves_prepareWorkspace_tiny {dirs : List Path} {path : Path} (hpath : t.findPalette dirs = some path)
    (hbytes : t.readBytes path = .ok ⟨#[0, 0, 0, 0]⟩)
    (hsources : (t.textureSources ⟨none, []⟩ dirs).filterMap TextureSource.archive? = []) :
    Run.Leaves (prepareWorkspace (tinyOptions dirs) tinySettings) { files := t } (tinyBatch dirs) t := by
  have hlist : ByteArray.toList ⟨#[0, 0, 0, 0]⟩ = [0, 0, 0, 0] := by decide +kernel
  have hpalette : t.loadPalette path .bgrx = .ok ⟨#[0]⟩ := by
    rw [FileTree.loadPalette, hbytes]
    simp only [bind, Except.bind, Except.mapError, hlist]
    rfl
  refine leaves_prepareWorkspace.2 ⟨⟨path, ⟨#[0]⟩, .ofArchives [], hpath, hpalette, ?_, rfl⟩, rfl⟩
  have hfilter : PathFilter.ofTexts [] [] = .ok ⟨none, []⟩ := rfl
  simp only [IndexedAs, tinyOptions, hfilter, hsources]

/-- One root, as the list of its fields, with a face in colour 1. -/
def oneRoot : String := r#"[["a",0,0,0,null,[],[[null,1]]]]"#

theorem rootsOfText_oneRoot : MeshObject.rootsOfText oneRoot = .ok [coloredNode "a" [1]] := by
  have hparse : Json.parse? oneRoot = some (.array [
      .array [.string ['a'], .number ['0'], .number ['0'], .number ['0'], .null, .array [],
        .array [.array [.null, .number ['1']]]]]) := by
    simp [oneRoot, Json.parse?, Json.value?, Json.items?, Json.skipBlanks, Json.isBlank, Json.quoted?, Json.literal?,
      Json.numeral?, Json.unsigned?, Json.wholePart?, Json.digits1?, Json.isDigit, Json.fractionPart?,
      Json.exponentPart?]
  rw [MeshObject.rootsOfText, hparse]
  rfl

section
variable {dirs : List Path} (ht : t.WellFormed) (hblind : ∀ {j}, ["out", "u"] <+: j → ¬ t.Sees dirs j)
  (hpath : t.findMesh dirs "u" = some ⟨"d/objects3d/u.json"⟩)
  (htext : t.readText ⟨"d/objects3d/u.json"⟩ = .ok oneRoot) (hlooks : s.files.LooksLike t dirs)
  (henters : s.files.Enters ⟨"out/u"⟩ ["out", "u"])
  (hroom : ∀ e ∈ s.files.nodes.entries, e.1.dropLast ≠ ["out", "u"])
include ht hpath htext hlooks henters hroom

/-- The conversion of such a root goes well, and its one pixel is in the file that is named for its size. -/
theorem leaves_convertInto_oneRoot : ∃ u, Run.Leaves (convertInto (tinyBatch dirs) ⟨"out/u"⟩ "u") s () u ∧
    u.node? ["out", "u", "u_Albedo1x1.data"] = some (.file (.bytes ⟨#[1]⟩)) := by
  obtain ⟨a, ha, hw, hh, hindices⟩ := exists_compose_one (n := 1) (by decide) "a"
  have hunit : '/' ∉ "u".toList := by decide
  have hfree : ∀ file : String, s.files.isDirectoryAt (["out", "u"] ++ [file]) = false := by
    intro file
    rw [← Bool.not_eq_true]
    intro hdir
    exact hroom _ (FileTree.mem_entries_of_node? (FileTree.isDirectoryAt_iff.1 hdir) (by simp)) (by simp)
  have hload : s.files.loadMesh ⟨"d/objects3d/u.json"⟩ = .ok ([(coloredNode "a" [1], a)].map (·.1)) := by
    rw [hlooks.loadMesh_eq ht hunit hpath, FileTree.loadMesh_of_readText htext, rootsOfText_oneRoot]
    rfl
  have hcomposed : ∀ p ∈ [(coloredNode "a" [1], a)],
      compose p.1.referencedFragments (tinyBatch dirs).index (tinyBatch dirs).settings = .ok (some p.2) := by
    intro p hp
    obtain rfl := List.mem_singleton.1 hp
    exact ha
  obtain ⟨v, json, hwritten, hleaves⟩ := exists_leaves_convertInto henters hfree hunit
    ((hlooks.findMesh_eq ht hunit).trans hpath) hload (List.cons_ne_nil _ _) hcomposed
  refine ⟨_, hleaves, ?_⟩
  have hfile : (rasterTail "Albedo" 1 1 "data", FileContent.bytes ⟨#[1]⟩) ∈ atlasFiles (tinyBatch dirs) a := by
    simp [atlasFiles, Atlas.exportAll, hw, hh, hindices]
  have hnode := node?_of_mem_atlasFiles [] henters hunit hwritten hfile
  have hname : ((Path.mk "out/u").join "u").lastPart ++ rasterTail "Albedo" 1 1 "data" = "u_Albedo1x1.data" := by
    decide
  rw [hname] at hnode
  rw [FileTree.node?_store _ (by simp), if_neg (by decide)]
  exact hnode

include hblind in
/-- In a batch the data directories look the same afterwards. -/
theorem outcome_batchName_oneRoot : ∃ s', Run.outcome (batchName (tinyBatch dirs) ⟨"out/u"⟩ "u") s = (.ok true, s') ∧
    s'.files.LooksLike t dirs ∧ s'.files.node? ["out", "u", "u_Albedo1x1.data"] = some (.file (.bytes ⟨#[1]⟩)) := by
  obtain ⟨u, ⟨s₁, hrun, rfl⟩, hraster⟩ := leaves_convertInto_oneRoot ht hpath htext hlooks henters hroom
  obtain ⟨hbatch, hfiles⟩ := outcome_batchName (tinyBatch dirs) ⟨"out/u"⟩ "u" s
  have hconfined : Run.Confined t (tinyBatch dirs).dataDirs ⟨"out/u"⟩ ["out", "u"]
      (convertInto (tinyBatch dirs) ⟨"out/u"⟩ "u") := confined_convertInto ht hblind (by decide)
  obtain ⟨-, halike, -⟩ := hconfined s s ⟨hlooks, hlooks, henters, henters, fun _ => rfl⟩
  rw [hrun] at hbatch hfiles halike
  refine ⟨_, Prod.ext hbatch rfl, ?_, ?_⟩
  · rw [hfiles]
    exact halike.looks
  · rw [hfiles]
    exact hraster

end

/-- A data directory `d` with the mesh of a unit and that of its wreck, which has no root. -/
def wreckTree : FileTree where
  nodes := .ofList [(["d"], .directory), (["d", "objects3d"], .directory),
    (["d", "objects3d", "u.json"], .file (.ofText oneRoot)), (["d", "objects3d", "u_dead.json"], .file (.ofText "[]")),
    (["d", "palettes"], .directory), (["d", "palettes", "PALETTE.PAL"], .file (.bytes ⟨#[0, 0, 0, 0]⟩))]

theorem batchSite_wreckTree :
    BatchSite (tinyOptions [⟨"d"⟩]) wreckTree (wreckTree.store ["out"] .directory) ["out"] where
  wellFormed := by decide
  homed := rfl
  made := rfl
  leads := rfl
  absent := rfl
  apart := by
    intro j hnone hsome hsees
    have hj : j = ["out"] := by
      by_contra hne
      rw [FileTree.node?_store _ (List.cons_ne_nil _ _), if_neg hne, hnone] at hsome
      cases hsome
    subst hj
    obtain ⟨d, hd, hasked | ⟨l, hl, hprefix⟩⟩ := hsees
    · obtain rfl := List.mem_singleton.1 hd
      exact absurd hasked (by decide)
    · obtain rfl := List.mem_singleton.1 hd
      cases hl
      exact absurd hprefix (by decide)

theorem loadMesh_wreck : wreckTree.loadMesh ⟨"d/objects3d/u_dead.json"⟩ = .ok [] := by
  have hparse : Json.parse? "[]" = some (.array []) := by
    simp [Json.parse?, Json.value?, Json.skipBlanks, Json.isBlank]
  rw [FileTree.loadMesh_of_readText (FileTree.readText_of_read rfl), MeshObject.rootsOfText, hparse]
  rfl

theorem isName_unit : Path.IsName "u" := ⟨by decide, by decide, by decide, by decide⟩

/-- The unit is converted, and its wreck is not. -/
theorem outcome_batchUnit_wreckTree (hs : s.files = wreckTree.store ["out"] .directory) :
    ∃ s', Run.outcome (batchUnit (tinyBatch [⟨"d"⟩]) ⟨"out"⟩ "u") s = (.ok [true, false], s') ∧
      s'.files.node? ["out", "u", "u_Albedo1x1.data"] = some (.file (.bytes ⟨#[1]⟩)) := by
  have hsite := batchSite_wreckTree
  have hunit : Path.IsName "u" := isName_unit
  have hwreck : '/' ∉ ("u" ++ FileTree.wreckSuffix).toList := by decide
  have hmesh : wreckTree.findMesh [⟨"d"⟩] ("u" ++ FileTree.wreckSuffix) = some ⟨"d/objects3d/u_dead.json"⟩ := rfl
  have hpath : (Path.mk "out").join "u" = ⟨"out/u"⟩ := rfl
  have houtDir : (tinyOptions [⟨"d"⟩]).outDir = ⟨"out"⟩ := rfl
  obtain ⟨hmade, hready, henters⟩ := hsite.reached.ensureDirectory hsite hunit (hsite.not_file "u")
  rw [← hs, houtDir] at hmade henters
  rw [← hs] at hready
  rw [hpath] at henters
  have hroom : ∀ e ∈ (s.files.ensureDirectory (["out"] ++ ["u"])).nodes.entries, e.1.dropLast ≠ ["out", "u"] := by
    rw [hs]
    decide
  have hblind : ∀ {j}, ["out", "u"] <+: j → ¬ wreckTree.Sees [⟨"d"⟩] j :=
    fun hj => hsite.blind ((List.prefix_append ["out"] ["u"]).trans hj)
  obtain ⟨s₁, hfirst, hlooks, hraster⟩ := outcome_batchName_oneRoot hsite.wellFormed
    (s := { s with files := s.files.ensureDirectory (["out"] ++ ["u"]) }) hblind rfl
    (FileTree.readText_of_read rfl) hready.looks henters hroom
  have hfound : s₁.files.findMesh (tinyBatch [⟨"d"⟩]).dataDirs ("u" ++ FileTree.wreckSuffix) =
      some ⟨"d/objects3d/u_dead.json"⟩ := (hlooks.findMesh_eq hsite.wellFormed hwreck).trans hmesh
  have hload := (hlooks.loadMesh_eq hsite.wellFormed hwreck hmesh).trans loadMesh_wreck
  have hrootless : Run.outcome (convertInto (tinyBatch [⟨"d"⟩]) ⟨"out/u"⟩ ("u" ++ FileTree.wreckSuffix)) s₁ =
      (.error (.noRoots ⟨"d/objects3d/u_dead.json"⟩), s₁) := outcome_convertInto_rootless hfound hload
  obtain ⟨s₂, hdead, hfiles⟩ : ∃ s₂, Run.outcome (batchName (tinyBatch [⟨"d"⟩]) ⟨"out/u"⟩
      ("u" ++ FileTree.wreckSuffix)) s₁ = (.ok false, s₂) ∧ s₂.files = s₁.files := by
    obtain ⟨hbatch, hfiles⟩ := outcome_batchName (tinyBatch [⟨"d"⟩]) ⟨"out/u"⟩ ("u" ++ FileTree.wreckSuffix) s₁
    rw [hrootless] at hbatch hfiles
    exact ⟨_, Prod.ext hbatch rfl, hfiles⟩
  refine ⟨s₂, ?_, by rw [hfiles]; exact hraster⟩
  rw [batchUnit, Run.outcome_createAll_bind hmade, hpath, Run.outcome_bind, hfirst]
  simp only [Run.outcome_files_bind, hfound, Option.isSome_some, if_true]
  rw [Run.outcome_bind, hdead]
  rfl

/-- One of two conversions goes well: the unit has its raster, and its wreck is counted as failed. -/
theorem batch_counts_wreck : BatchSite (tinyOptions [⟨"d"⟩]) wreckTree (wreckTree.store ["out"] .directory) ["out"] ∧
    ∃ s, (runBatch "**" (tinyOptions [⟨"d"⟩])).on wreckTree = (.ok (), s) ∧
      (∃ log, s.log = log ++ [.batchFinished 1 1]) ∧
      s.files.node? ["out", "u", "u_Albedo1x1.data"] = some (.file (.bytes ⟨#[1]⟩)) ∧
      s.files.node? ["d", "objects3d", "u.json"] = some (.file (.ofText oneRoot)) := by
  have hsettings := leaves_settleSettings_tiny [⟨"d"⟩] wreckTree
  have hws : Run.Leaves (prepareWorkspace (tinyOptions [⟨"d"⟩]) tinySettings) { files := wreckTree }
      (tinyBatch [⟨"d"⟩]) wreckTree := leaves_prepareWorkspace_tiny rfl rfl rfl
  have hglob : Glob.ofText? "**" = some ⟨[.anyPrefix]⟩ := rfl
  have hunits : (wreckTree.units ⟨[.anyPrefix]⟩ (tinyOptions [⟨"d"⟩]).dataDirs).names = ["u"] := rfl
  obtain ⟨s, hrun, hdone, hkept, ⟨log, hlog⟩, -⟩ := batch_equals_single_conversions batchSite_wreckTree rfl
    hsettings hws hglob (by decide)
  rw [hunits] at hdone hkept hlog
  -- What the conversions on their own come to is read off the batch of the one unit.
  obtain ⟨s₁, hunit, hraster⟩ := outcome_batchUnit_wreckTree
    (s := { files := wreckTree.store ["out"] .directory }) rfl
  obtain ⟨s₂, hunit', -, -, halone⟩ := outcome_batchUnit batchSite_wreckTree rfl hsettings hws
    (s := { files := wreckTree.store ["out"] .directory }) isName_unit batchSite_wreckTree.reached fun _ => rfl
  obtain ⟨houtcomes, rfl⟩ := Prod.mk.inj (hunit.symm.trans hunit')
  have hcounts : outcomesAlone (tinyOptions [⟨"d"⟩]) ["u"] wreckTree = [true, false] := by
    rw [outcomesAlone, List.flatMap_singleton, ← Except.ok.inj houtcomes]
  have hbelow : ["out"] ++ ["u"] <+: ["out", "u", "u_Albedo1x1.data"] := ⟨["u_Albedo1x1.data"], rfl⟩
  rw [hcounts] at hlog
  refine ⟨batchSite_wreckTree, s, hrun, ⟨log, hlog⟩, ?_, (hkept _ _ (by decide)).2 rfl⟩
  rw [hdone "u" List.mem_cons_self _ hbelow, ← halone hbelow]
  exact hraster

/-! ## An output directory on the way to a data directory -/

/-- A data directory `e` with a palette file that is empty, and a sound one `d`. -/
def strayTree : FileTree where
  nodes := .ofList [(["d"], .directory), (["d", "objects3d"], .directory),
    (["d", "objects3d", "u.json"], .file (.ofText oneRoot)), (["d", "palettes"], .directory),
    (["d", "palettes", "PALETTE.PAL"], .file (.bytes ⟨#[0, 0, 0, 0]⟩)), (["e"], .directory),
    (["e", "palettes"], .directory), (["e", "palettes", "PALETTE.PAL"], .file (.bytes ⟨#[]⟩))]

/-- The way to the first directory goes through the output directory and back. -/
def strayDirs : List Path := [⟨"out/../e"⟩, ⟨"d"⟩]

/-- The tree once the directory of the unit has been made. -/
def strayUnitTree : FileTree := (strayTree.store ["out"] .directory).store ["out", "u"] .directory

theorem stray_blind {j : Location} (hj : ["out", "u"] <+: j) : ¬ strayUnitTree.Sees strayDirs j := by
  have hasked : ∀ d ∈ strayDirs, ∀ j ∈ strayUnitTree.asked (strayUnitTree.start d) d.steps,
      ¬ ["out", "u"] <+: j := by decide
  have hleads : ∀ d ∈ strayDirs, ∀ l, strayUnitTree.Leads d l → l ∈ [["e"], ["d"]] := by
    intro d hd l hl
    rcases List.mem_pair.1 hd with rfl | rfl
    · cases hl
      decide
    · cases hl
      decide
  rintro ⟨d, hd, h | ⟨l, hl, hlj⟩⟩
  · exact hasked d hd j h hj
  · have hnot : ∀ l ∈ [["e"], ["d"]], ¬ l <+: ["out", "u"] ∧ ¬ ["out", "u"] <+: l := by decide
    obtain ⟨hup, hdown⟩ := hnot l (hleads d hd l hl)
    rcases List.prefix_or_prefix_of_prefix hlj hj with h | h
    · exact hup h
    · exact hdown h

theorem outcome_batchUnit_stray (hs : s.files = strayTree) :
    ∃ s', Run.outcome (batchUnit (tinyBatch strayDirs) ⟨"out"⟩ "u") s = (.ok [true], s') := by
  have ht : strayUnitTree.WellFormed := by decide
  have hmade : s.files.createAll ((Path.mk "out").join "u") = (.ok (), strayUnitTree) := by
    rw [hs]
    rfl
  have hroom : ∀ e ∈ strayUnitTree.nodes.entries, e.1.dropLast ≠ ["out", "u"] := by decide
  have hpath : (Path.mk "out").join "u" = ⟨"out/u"⟩ := rfl
  obtain ⟨s', hname, hlooks, -⟩ := outcome_batchName_oneRoot (s := { s with files := strayUnitTree }) ht stray_blind
    rfl (FileTree.readText_of_read rfl) ⟨rfl, fun _ => rfl⟩ ⟨rfl, rfl⟩ hroom
  have hwreck : s'.files.findMesh strayDirs ("u" ++ FileTree.wreckSuffix) = none :=
    hlooks.findMesh_eq ht (by decide)
  refine ⟨s', ?_⟩
  rw [batchUnit, Run.outcome_createAll_bind hmade, hpath, Run.outcome_bind, hname]
  simp only [Run.outcome_files_bind, tinyBatch, hwreck]
  rfl

/-- It is not enough that the output directory lies outside of the data directories. A batch takes its palette
before it makes the output directory, from `d`. A conversion on its own makes the directory first; then the way to
`e` is open, and the palette there is empty. -/
theorem batch_differs_where_output_opens_data :
    ¬ ∀ (o : AtlasOptions) (t t₁ : FileTree) (out : Location) (settings : Settings) (ws : Workspace) (pattern : String)
      (glob : Glob), t.WellFormed → t.isDirectoryAt t.workingDirectory = true → t.createAll o.outDir = (.ok (), t₁) →
      t₁.locate o.outDir = .ok out → t.node? out = none → (∀ d ∈ o.dataDirs, ∀ l, t₁.Leads d l → ¬ l <+: out) →
      o.printConfig = false → Run.Leaves (settleSettings o) { files := t } settings t →
      Run.Leaves (prepareWorkspace o settings) { files := t } ws t → Glob.ofText? pattern = some glob →
      (∀ unit ∈ (t.units glob o.dataDirs).names, unit ≠ "." ∧ unit ≠ "..") →
        ∃ log, ((runBatch pattern o).on t).2.log = log ++ [.batchFinished
          ((outcomesAlone o (t.units glob o.dataDirs).names t).count true)
          ((outcomesAlone o (t.units glob o.dataDirs).names t).count false)] := by
  intro h
  have hglob : Glob.ofText? "**" = some ⟨[.anyPrefix]⟩ := rfl
  have hunits : (strayTree.units ⟨[.anyPrefix]⟩ (tinyOptions strayDirs).dataDirs).names = ["u"] := rfl
  have hsettings := leaves_settleSettings_tiny strayDirs strayTree
  have hpath : strayTree.findPalette strayDirs = some ⟨"d/palettes/PALETTE.PAL"⟩ := rfl
  have hws := leaves_prepareWorkspace_tiny hpath rfl rfl
  have houtside : ∀ d ∈ strayDirs, ∀ l, (strayTree.store ["out"] .directory).Leads d l → ¬ l <+: ["out"] := by
    intro d hd l hl
    rcases List.mem_pair.1 hd with rfl | rfl
    · cases hl
      decide
    · cases hl
      decide
  obtain ⟨log, hlog⟩ := h (tinyOptions strayDirs) strayTree (strayTree.store ["out"] .directory) ["out"] _ _ "**" _
    (by decide) rfl rfl rfl rfl houtside rfl hsettings hws hglob (by decide)
  have halone : outcomesAlone (tinyOptions strayDirs) ["u"] strayTree = [false] := by decide +kernel
  obtain ⟨s₁, hs₁, hbatch⟩ := outcome_runBatch rfl hsettings hws hglob
  obtain ⟨s₂, hunit⟩ := outcome_batchUnit_stray hs₁
  have hrun : Run.outcome ((strayTree.units ⟨[.anyPrefix]⟩ (tinyOptions strayDirs).dataDirs).names.mapM
      (batchUnit (tinyBatch strayDirs) ⟨"out"⟩)) s₁ = (.ok [[true]], s₂) := by
    rw [hunits, List.mapM_cons, Run.outcome_bind, hunit]
    rfl
  rw [hbatch _ _ hrun, hunits, halone] at hlog
  exact absurd (List.append_inj' hlog rfl).2 (by decide)

end TextureAtlas.CommandLine
