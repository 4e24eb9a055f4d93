import TextureAtlas.CommandLine.Commands
import TextureAtlas.Proofs.Palette
import TextureAtlas.Proofs.Preparation

/-!
# Palette files converted

The palette command reads a palette file in one channel order and writes it in another. It works on files of whole
entries, and what it writes can be converted back to the file it came from, byte for byte
(`palette_files_convert_back`).
-/

namespace TextureAtlas

/-! ## Bytes of a file -/

theorem bytes_toList_loop (bytes : ByteArray) (i : Nat) (before : List UInt8) :
    ByteArray.toList.loop bytes i before = before.reverse ++ bytes.data.toList.drop i := by
  induction i, before using ByteArray.toList.loop.induct bytes with
  | case1 i before hi ih =>
    have hlist : i < bytes.data.toList.length := by simpa using hi
    have hget : bytes.get! i = bytes.data.toList[i] := by
      rw [Array.getElem_toList]
      exact getElem!_pos bytes.data i (by simpa using hi)
    rw [ByteArray.toList.loop, if_pos hi, ih, List.drop_eq_getElem_cons hlist, hget]
    simp
  | case2 i before hi =>
    have hend : bytes.data.toList.length ≤ i := by simpa using hi
    rw [ByteArray.toList.loop, if_neg hi, List.drop_eq_nil_of_le hend, List.append_nil]

theorem bytes_toList_eq (bytes : ByteArray) : bytes.toList = bytes.data.toList := by
  rw [ByteArray.toList, bytes_toList_loop]
  rfl

theorem bytes_toList_ofList (b : List UInt8) : (ByteArray.mk b.toArray).toList = b := by rw [bytes_toList_eq]

theorem bytes_ofList_toList (bytes : ByteArray) : ByteArray.mk bytes.toList.toArray = bytes := by rw [bytes_toList_eq]

namespace FileTree
variable {t u : FileTree} {p : Path} {bytes : ByteArray} {o : ChannelOrder} {palette : Palette}

theorem readBytes_write (hw : t.write p (.bytes bytes) = .ok u) : u.readBytes p = .ok bytes := by
  rw [readBytes, read_write hw]
  rfl

theorem loadPalette_eq_ok : t.loadPalette p o = .ok palette ↔
    ∃ bytes, t.readBytes p = .ok bytes ∧ Palette.ofBytes bytes.toList o = .ok palette := by
  rw [loadPalette]
  cases t.readBytes p with
  | error e => simp [Except.mapError, bind, Except.bind]
  | ok bytes => simp [Except.mapError, bind, Except.bind]

end FileTree

namespace CommandLine
variable {s : Session} {t : FileTree} {input output : Path} {source target : String}

theorem leaves_runPalette : Run.Leaves (runPalette input output source target) s () t ↔
    ∃ o o' bytes palette, ChannelOrder.ofText? source = some o ∧ ChannelOrder.ofText? target = some o' ∧
      s.files.readBytes input = .ok bytes ∧ Palette.ofBytes bytes.toList o = .ok palette ∧
      s.files.write output (.bytes ⟨(palette.toBytes o').toArray⟩) = .ok t := by
  have hreport : ∀ (event : LogEvent) (s : Session), Run.Leaves (Run.report event) s () t ↔ t = s.files := by
    intro event s
    constructor
    · rintro ⟨s', hrun, rfl⟩
      cases hrun
      rfl
    · rintro rfl
      exact ⟨_, rfl, rfl⟩
  simp only [runPalette, leaves_orderNamed_bind, Run.leaves_files_bind, Run.leaves_lift_bind, Run.leaves_write_bind,
    hreport, FileTree.loadPalette_eq_ok]
  constructor
  · rintro ⟨o, ho, o', ho', palette, ⟨bytes, hread, hpalette⟩, u, hwrite, rfl⟩
    exact ⟨o, o', bytes, palette, ho, ho', hread, hpalette, hwrite⟩
  · rintro ⟨o, o', bytes, palette, ho, ho', hread, hpalette, hwrite⟩
    exact ⟨o, ho, o', ho', palette, ⟨bytes, hread, hpalette⟩, t, hwrite, rfl⟩

/-- A palette file in one order is written in another one. -/
theorem leaves_runPalette_iff_recoded : Run.Leaves (runPalette input output source target) s () t ↔
    ∃ o o' bytes out, ChannelOrder.ofText? source = some o ∧ ChannelOrder.ofText? target = some o' ∧
      s.files.readBytes input = .ok bytes ∧ Palette.WholeEntries bytes.toList ∧
      Palette.Recoded o o' bytes.toList out ∧ s.files.write output (.bytes ⟨out.toArray⟩) = .ok t := by
  rw [leaves_runPalette]
  constructor
  · rintro ⟨o, o', bytes, palette, ho, ho', hread, hpalette, hwrite⟩
    exact ⟨o, o', bytes, _, ho, ho', hread, (Palette.ofBytes_eq_ok.1 hpalette).1,
      Palette.recoded_ofBytes hpalette o', hwrite⟩
  · rintro ⟨o, o', bytes, out, ho, ho', hread, hwhole, hrecoded, hwrite⟩
    obtain ⟨palette, hpalette⟩ := Palette.exists_ofBytes_iff.2 hwhole
    obtain rfl := hrecoded.unique (Palette.recoded_ofBytes hpalette o')
    exact ⟨o, o', bytes, palette, ho, ho', hread, hpalette, hwrite⟩

/-- Converted back, the file is what it was. -/
theorem leaves_runPalette_back {s' : Session} {back : Path} {u : FileTree} {bytes : ByteArray}
    (h : Run.Leaves (runPalette input output source target) s () t) (hread : s.files.readBytes input = .ok bytes)
    (hs' : s'.files = t) :
    Run.Leaves (runPalette output back target source) s' () u ↔ t.write back (.bytes bytes) = .ok u := by
  obtain ⟨o, o', _, out, ho, ho', hread', hwhole, hrecoded, hwrite⟩ := leaves_runPalette_iff_recoded.1 h
  cases hread.symm.trans hread'
  have hout := FileTree.readBytes_write hwrite
  rw [leaves_runPalette_iff_recoded, hs']
  constructor
  · rintro ⟨_, _, _, again, hto', hto, hreadOut, -, hagain, hback⟩
    cases ho.symm.trans hto
    cases ho'.symm.trans hto'
    cases hout.symm.trans hreadOut
    rw [bytes_toList_ofList] at hagain
    rwa [hagain.unique hrecoded.symm, bytes_ofList_toList] at hback
  · intro hback
    refine ⟨o', o, ⟨out.toArray⟩, bytes.toList, ho', ho, hout, ?_, ?_, by rwa [bytes_ofList_toList]⟩
    · rw [bytes_toList_ofList]
      exact hwhole.recoded hrecoded
    · rw [bytes_toList_ofList]
      exact hrecoded.symm

/-- **Palette files convert both ways.** Whole entries, and at least one, are a palette file in either order. It decodes
to a table with one colour for each entry, which shows the colours of the file and encodes to the same file; a table
is decoded from its own bytes. The palette command ends well iff the file it reads is a palette file and the place it
writes to is free for a file; then every second byte stays and the other bytes of each entry change places between
two orders, and the command the other way writes the original file wherever it can write. -/
theorem palette_files_convert_back (o o' : ChannelOrder) (b : List UInt8) :
    ((∃ p, Palette.ofBytes b o = .ok p) ↔ b ≠ [] ∧ b.length % 4 = 0) ∧
    (∀ p, Palette.ofBytes b o = .ok p →
      p.toBytes o = b ∧ p.size = b.length / 4 ∧ p.Shows o b ∧ Palette.Recoded o o' b (p.toBytes o') ∧
      ∃ q, Palette.ofBytes (p.toBytes o') o' = .ok q ∧ q.toBytes o = b) ∧
    (∀ words p, Palette.ofWords words = .ok p → Palette.ofBytes (p.toBytes o) o = .ok p) ∧
    (∀ (s : Session) (input output : Path) (source target : String) (t : FileTree),
      (Run.Leaves (runPalette input output source target) s () t ↔
        ∃ o o' bytes out, ChannelOrder.ofText? source = some o ∧ ChannelOrder.ofText? target = some o' ∧
          s.files.readBytes input = .ok bytes ∧ Palette.WholeEntries bytes.toList ∧
          Palette.Recoded o o' bytes.toList out ∧ s.files.write output (.bytes ⟨out.toArray⟩) = .ok t) ∧
      (Run.Leaves (runPalette input output source target) s () t →
        ∃ bytes, s.files.readBytes input = .ok bytes ∧ ∀ (s' : Session) (back : Path) (u : FileTree), s'.files = t →
          (Run.Leaves (runPalette output back target source) s' () u ↔ t.write back (.bytes bytes) = .ok u) ∧
          (t.write back (.bytes bytes) = .ok u → u.readBytes back = .ok bytes))) := by
  refine ⟨Palette.exists_ofBytes_iff, ?_, ?_,
    fun s input output source target t => ⟨leaves_runPalette_iff_recoded, fun hrun => ?_⟩⟩
  · intro p hp
    have hrecoded := Palette.recoded_ofBytes hp o'
    obtain ⟨q, hq⟩ := (Palette.exists_ofBytes_iff (o := o')).2 ((Palette.ofBytes_eq_ok.1 hp).1.recoded hrecoded)
    exact ⟨Palette.toBytes_ofBytes hp, Palette.size_ofBytes hp, Palette.shows_ofBytes hp, hrecoded, q, hq,
      (Palette.recoded_ofBytes hq o).unique hrecoded.symm⟩
  · intro words p hp
    obtain ⟨hwords, rfl⟩ := Palette.ofWords_eq_ok.1 hp
    exact Palette.ofBytes_toBytes hwords o
  · obtain ⟨_, _, bytes, _, _, _, hread, _⟩ := leaves_runPalette_iff_recoded.1 hrun
    exact ⟨bytes, hread, fun s' back u hs' =>
      ⟨leaves_runPalette_back hrun hread hs', FileTree.readBytes_write⟩⟩

/-- A palette file of two entries. -/
def paletteTree : FileTree where
  nodes := .ofList [(["a.pal"], .file (.bytes ⟨#[1, 2, 3, 4, 250, 251, 252, 253]⟩))]

/-- The tree with the file in the other order. -/
def convertedTree : FileTree :=
  paletteTree.store ["b.pal"] (.file (.bytes ⟨#[3, 2, 1, 4, 252, 251, 250, 253]⟩))

/-- Converted and converted back, two entries are read as they were. -/
theorem palette_of_two_entries_converts_back :
    Run.Leaves (runPalette ⟨"a.pal"⟩ ⟨"b.pal"⟩ "bgrx" "rgbx") { files := paletteTree } () convertedTree ∧
    ∃ u, Run.Leaves (runPalette ⟨"b.pal"⟩ ⟨"c.pal"⟩ "rgbx" "bgrx") { files := convertedTree } () u ∧
      u.readBytes ⟨"c.pal"⟩ = .ok ⟨#[1, 2, 3, 4, 250, 251, 252, 253]⟩ := by
  have hread : paletteTree.readBytes ⟨"a.pal"⟩ = .ok ⟨#[1, 2, 3, 4, 250, 251, 252, 253]⟩ := by
    rfl
  obtain ⟨-, -, -, hcommand⟩ := palette_files_convert_back .bgrx .rgbx []
  obtain ⟨hleaves, hback⟩ := hcommand { files := paletteTree } ⟨"a.pal"⟩ ⟨"b.pal"⟩ "bgrx" "rgbx" convertedTree
  have hrun : Run.Leaves (runPalette ⟨"a.pal"⟩ ⟨"b.pal"⟩ "bgrx" "rgbx") { files := paletteTree } () convertedTree := by
    refine hleaves.2 ⟨.bgrx, .rgbx, _, [3, 2, 1, 4, 252, 251, 250, 253], by decide, by decide, hread, ?_, ?_, by rfl⟩
    · rw [bytes_toList_eq]
      decide
    · rw [bytes_toList_eq]
      exact (Palette.Recoded.nil.entry 250 251 252 253).entry 1 2 3 4
  obtain ⟨bytes, hbytes, hrest⟩ := hback hrun
  cases hread.symm.trans hbytes
  have hwrite : convertedTree.write ⟨"c.pal"⟩ (.bytes ⟨#[1, 2, 3, 4, 250, 251, 252, 253]⟩) = .ok
      (convertedTree.store ["c.pal"] (.file (.bytes ⟨#[1, 2, 3, 4, 250, 251, 252, 253]⟩))) := by rfl
  obtain ⟨hagain, hsame⟩ := hrest { files := convertedTree } ⟨"c.pal"⟩ _ rfl
  exact ⟨hrun, _, hagain.2 hwrite, hsame hwrite⟩

end CommandLine
end TextureAtlas
