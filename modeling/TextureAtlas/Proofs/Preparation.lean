import TextureAtlas.CommandLine.Workspace
import TextureAtlas.Proofs.Sight

/-!
# Settings and workspaces

The settings come from the switches and a settings file, and the workspace from a palette and the archives.
A tree that keeps all files and looks the same from the data directories gives the same settings and the same
workspace (`leaves_prepareWorkspace_of_looksLike`).
-/

namespace TextureAtlas

namespace FileTree
variable {t u : FileTree} {p : Path} {content : FileContent}

theorem Keeps.locate (h : t.Keeps u) {l : Location} (hl : t.locate p = .ok l) : u.locate p = .ok l := by
  rw [FileTree.locate] at hl ⊢
  split at hl
  · cases hl
  · rename_i hempty
    rw [if_neg hempty, h.start_eq]
    exact h.follow hl

theorem Keeps.read (h : t.Keeps u) (hread : t.read p = .ok content) : u.read p = .ok content := by
  obtain ⟨l, hl, hfile⟩ := read_eq_ok.1 hread
  exact read_eq_ok.2 ⟨l, h.locate hl, h.node?_eq hfile⟩

theorem read_of_readBytes {bytes : ByteArray} (h : t.readBytes p = .ok bytes) : ∃ content, t.read p = .ok content := by
  rw [readBytes] at h
  cases hread : t.read p with
  | error e =>
    rw [hread] at h
    cases h
  | ok content => exact ⟨content, rfl⟩

theorem Keeps.readBytes (h : t.Keeps u) {bytes : ByteArray} (hread : t.readBytes p = .ok bytes) :
    u.readBytes p = .ok bytes := by
  obtain ⟨content, hcontent⟩ := read_of_readBytes hread
  rw [← hread, FileTree.readBytes, FileTree.readBytes, h.read hcontent, hcontent]

theorem Keeps.readText (h : t.Keeps u) {text : String} (hread : t.readText p = .ok text) : u.readText p = .ok text := by
  have hbytes : ∃ bytes, t.readBytes p = .ok bytes := by
    rw [FileTree.readText] at hread
    cases hbytes : t.readBytes p with
    | error e =>
      rw [hbytes] at hread
      cases hread
    | ok bytes => exact ⟨bytes, rfl⟩
  obtain ⟨bytes, hbytes⟩ := hbytes
  rw [← hread, FileTree.readText, FileTree.readText, h.readBytes hbytes, hbytes]

theorem Keeps.loadPalette (h : t.Keeps u) {order : ChannelOrder} {palette : Palette}
    (hload : t.loadPalette p order = .ok palette) : u.loadPalette p order = .ok palette := by
  have hbytes : ∃ bytes, t.readBytes p = .ok bytes := by
    rw [FileTree.loadPalette] at hload
    cases hbytes : t.readBytes p with
    | error e =>
      rw [hbytes] at hload
      cases hload
    | ok bytes => exact ⟨bytes, rfl⟩
  obtain ⟨bytes, hbytes⟩ := hbytes
  rw [← hload, FileTree.loadPalette, FileTree.loadPalette, h.readBytes hbytes, hbytes]

end FileTree

namespace CommandLine
variable {s r : Session} {t : FileTree} {o : AtlasOptions} {settings : Settings} {ws : Workspace}

/-! ## Settings -/

/-- What the switches state, changed by the settings file if there is one. -/
def Stated (t : FileTree) (o : AtlasOptions) (order : ChannelOrder) (settings : Settings) : Prop :=
  match o.config with
  | none => settings = o.settings order
  | some p => ∃ text overrides, t.readText p = .ok text ∧ Overrides.ofYaml? text = some overrides ∧
      settings = (o.settings order).overridden overrides

section
variable {β : Type} {b : β}

theorem leaves_orderNamed_bind {given : String} {f : ChannelOrder → Run β} :
    Run.Leaves (orderNamed given >>= f) s b t ↔
      ∃ order, ChannelOrder.ofText? given = some order ∧ Run.Leaves (f order) s b t := by
  rw [orderNamed]
  cases ChannelOrder.ofText? given with
  | none =>
    constructor
    · exact fun h => absurd h Run.leaves_throw_bind
    · rintro ⟨order, ⟨⟩, -⟩
  | some order => simp

theorem leaves_readOverrides_bind {p : Path} {f : Overrides → Run β} :
    Run.Leaves (readOverrides p >>= f) s b t ↔
      ∃ text overrides, s.files.readText p = .ok text ∧ Overrides.ofYaml? text = some overrides ∧
        Run.Leaves (f overrides) s b t := by
  rw [readOverrides, bind_assoc, Run.leaves_files_bind, bind_assoc, Run.leaves_lift_bind]
  refine exists_congr fun text => ?_
  cases Overrides.ofYaml? text with
  | none =>
    constructor
    · exact fun h => absurd h.2 Run.leaves_throw_bind
    · rintro ⟨overrides, -, ⟨⟩, -⟩
  | some overrides => simp

end

theorem leaves_settleSettings : Run.Leaves (settleSettings o) s settings t ↔
    (∃ order, ChannelOrder.ofText? o.channelOrder = some order ∧ Stated s.files o order settings ∧
      settings.validate = .ok ()) ∧ t = s.files := by
  have hend : ∀ stated : Settings, Run.Leaves (do
      Run.lift .settingsInvalid stated.validate
      return stated) s settings t ↔ (settings = stated ∧ settings.validate = .ok ()) ∧ t = s.files := by
    intro stated
    rw [Run.leaves_lift_bind]
    simp only [Run.leaves_pure]
    constructor
    · rintro ⟨_, hvalid, rfl, ht⟩
      exact ⟨⟨rfl, hvalid⟩, ht⟩
    · rintro ⟨⟨rfl, hvalid⟩, ht⟩
      exact ⟨(), hvalid, rfl, ht⟩
  rw [settleSettings, leaves_orderNamed_bind]
  cases hconfig : o.config with
  | none =>
    simp only [pure_bind, hend, Stated, hconfig]
    constructor
    · rintro ⟨order, horder, hstated, ht⟩
      exact ⟨⟨order, horder, hstated⟩, ht⟩
    · rintro ⟨⟨order, horder, hstated⟩, ht⟩
      exact ⟨order, horder, hstated, ht⟩
  | some p =>
    simp only [pure_bind, leaves_readOverrides_bind, hend, Stated, hconfig]
    constructor
    · rintro ⟨order, horder, text, overrides, htext, hyaml, ⟨hsettings, hvalid⟩, ht⟩
      exact ⟨⟨order, horder, ⟨text, overrides, htext, hyaml, hsettings⟩, hvalid⟩, ht⟩
    · rintro ⟨⟨order, horder, ⟨text, overrides, htext, hyaml, hsettings⟩, hvalid⟩, ht⟩
      exact ⟨order, horder, text, overrides, htext, hyaml, ⟨hsettings, hvalid⟩, ht⟩

/-- A tree that keeps the files gives the same settings. -/
theorem leaves_settleSettings_of_keeps (hkeeps : s.files.Keeps r.files)
    (h : Run.Leaves (settleSettings o) s settings t) : Run.Leaves (settleSettings o) r settings r.files := by
  obtain ⟨⟨order, horder, hstated, hvalid⟩, -⟩ := leaves_settleSettings.1 h
  refine leaves_settleSettings.2 ⟨⟨order, horder, ?_, hvalid⟩, rfl⟩
  unfold Stated at hstated ⊢
  cases hconfig : o.config with
  | none =>
    rw [hconfig] at hstated
    exact hstated
  | some p =>
    rw [hconfig] at hstated
    obtain ⟨text, overrides, htext, hrest⟩ := hstated
    exact ⟨text, overrides, hkeeps.readText htext, hrest⟩

/-! ## The workspace -/

theorem leaves_prepareWorkspace : Run.Leaves (prepareWorkspace o settings) s ws t ↔
    (∃ path palette index, (o.palette <|> s.files.findPalette o.dataDirs) = some path ∧
      s.files.loadPalette path settings.channelOrder = .ok palette ∧
      IndexedAs s.files o.dataDirs o.includes o.excludes index ∧
      ws = ⟨o.dataDirs, settings, palette, index, o.png, o.metadata⟩) ∧ t = s.files := by
  rw [prepareWorkspace, Run.leaves_files_bind]
  cases hpath : (o.palette <|> s.files.findPalette o.dataDirs) with
  | none =>
    constructor
    · exact fun h => absurd h Run.leaves_throw_bind
    · rintro ⟨⟨path, palette, index, ⟨⟩, -⟩, -⟩
  | some path =>
    simp only [pure_bind, Run.leaves_lift_bind, Run.leaves_report_bind, Run.leaves_bind_report_pure,
      leaves_indexTextures]
    constructor
    · rintro ⟨palette, hpalette, index, ⟨hindex, ht⟩, hws⟩
      exact ⟨⟨path, palette, index, rfl, hpalette, hindex, hws⟩, ht⟩
    · rintro ⟨⟨path', palette, index, hpath', hpalette, hindex, hws⟩, ht⟩
      cases hpath'
      exact ⟨palette, hpalette, index, ⟨hindex, ht⟩, hws⟩

theorem dataDirs_of_prepareWorkspace (h : Run.Leaves (prepareWorkspace o settings) s ws t) :
    ws.dataDirs = o.dataDirs := by
  obtain ⟨⟨path, palette, index, -, -, -, rfl⟩, -⟩ := leaves_prepareWorkspace.1 h
  rfl

/-- A tree that keeps the files and looks the same from the data directories gives the same workspace. -/
theorem leaves_prepareWorkspace_of_looksLike (ht : s.files.WellFormed) (hkeeps : s.files.Keeps r.files)
    (hlooks : r.files.LooksLike s.files o.dataDirs) (h : Run.Leaves (prepareWorkspace o settings) s ws t) :
    Run.Leaves (prepareWorkspace o settings) r ws r.files := by
  obtain ⟨⟨path, palette, index, hpath, hpalette, hindex, rfl⟩, -⟩ := leaves_prepareWorkspace.1 h
  refine leaves_prepareWorkspace.2 ⟨⟨path, palette, index, ?_, hkeeps.loadPalette hpalette, ?_, rfl⟩, rfl⟩
  · rw [hlooks.findPalette_eq ht]
    exact hpath
  · unfold IndexedAs at hindex ⊢
    have hdirectory : ∀ d ∈ o.dataDirs,
        r.files.isDirectory (d.join "textures") = s.files.isDirectory (d.join "textures") := by
      intro d hd
      have hnames : ∀ name ∈ ["textures"], Path.IsName name := by decide
      exact hlooks.isDirectory_eq ht hd hnames (List.cons_ne_nil _ _)
    cases hfilter : PathFilter.ofTexts o.includes o.excludes with
    | ok filter =>
      rw [hfilter] at hindex
      simp only [hlooks.textureSources_eq ht]
      exact hindex
    | error g =>
      rw [hfilter] at hindex
      exact ⟨fun d hd => (hdirectory d hd).trans (hindex.1 d hd), hindex.2⟩

end CommandLine
end TextureAtlas
