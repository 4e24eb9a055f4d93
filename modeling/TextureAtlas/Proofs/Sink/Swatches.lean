import TextureAtlas.Proofs.Paint
import TextureAtlas.Proofs.Sink.Entries

/-!
# Swatches

A swatch shows the low byte of its palette index, while its key is the whole index less one; so the two go together
only for indices that have one byte (`Sink.swatch_shows_low_byte`).

A swatch is placed and painted in one go, an entry of an archive event by event. For the entry whose one frame is
that swatch (`ArchiveEntry.swatch`) both ways are one: they succeed on the same sinks and leave the same canvas,
fragments and painted names (`Sink.swatch_like_entry`).
-/

namespace TextureAtlas

namespace Sink
variable {s t : Sink} {n : UInt32}

/-! ## Paint and key -/

theorem synthesize_placed {r : Rect} (hn : s.contains (ColorIndex.name n) = false)
    (hr : s.canvas.grid.find s.swatchSize.toNat s.swatchSize.toNat = .ok r) :
    s.synthesize n = (.ok (), s.withSwatch n r) := by
  rw [synthesize_new hn, hr]

theorem pixel_withSwatch {r : Rect} {px py : Nat} (hr : r.Fits s.canvas.width s.canvas.height)
    (hp : r.HasPixel px py) : (s.withSwatch n r).canvas.pixel px py = n.toUInt8 := by
  rw [withSwatch, Canvas.pixel_paint]
  exact if_pos ⟨hr.lt hp, hp⟩

/-- **A swatch shows the low byte of its palette index.** When the swatch of a name that is not registered has been
placed, its key is the index less one, and each of its pixels holds the index modulo 256. So the pixels hold the
index itself iff that is below 256. -/
theorem swatch_shows_low_byte (hside : 0 < s.swatchSize) (hn : s.contains (ColorIndex.name n) = false)
    (ht : s.synthesize n = (.ok (), t)) :
    ∃ r, t.fragment? (ColorIndex.name n) = some ⟨r, n - 1, false, true⟩ ∧
      r.w = s.swatchSize.toNat ∧ r.h = s.swatchSize.toNat ∧ r.Fits s.canvas.width s.canvas.height ∧
      (∀ px py, r.HasPixel px py → (t.canvas.pixel px py).toNat = n.toNat % 256) ∧
      ((∀ px py, r.HasPixel px py → (t.canvas.pixel px py).toNat = n.toNat) ↔ n.toNat < 256) := by
  rw [synthesize_new hn] at ht
  cases hr : s.canvas.grid.find s.swatchSize.toNat s.swatchSize.toNat with
  | error refusal => rw [hr] at ht; cases ht
  | ok r =>
    rw [hr] at ht
    cases ht
    obtain ⟨hw, hh, hfit⟩ := Grid.find_firstFit hr
    have hbyte : ∀ px py, r.HasPixel px py → ((s.withSwatch n r).canvas.pixel px py).toNat = n.toNat % 256 := by
      intro px py hp
      rw [pixel_withSwatch hfit.fits hp]
      exact UInt32.toNat_toUInt8 n
    refine ⟨r, (Table.get?_insert ..).trans (if_pos rfl), hw, hh, hfit.fits, hbyte, ?_⟩
    constructor
    · intro hall
      have hpos : 0 < s.swatchSize.toNat := UInt32.lt_iff_toNat_lt.1 hside
      have hcorner : r.HasPixel r.x r.y := by simp only [Rect.HasPixel]; omega
      have heq := (hbyte r.x r.y hcorner).symm.trans (hall r.x r.y hcorner)
      omega
    · intro hlt px py hp
      rw [hbyte px py hp, Nat.mod_eq_of_lt hlt]

/-- Beside an open entity, the swatch of 300 is painted with 44. -/
theorem swatch_of_300_shows_44 : ∃ (s t : Sink) (r : Rect), s.contains (ColorIndex.name 300) = false ∧
    0 < s.swatchSize ∧ s.synthesize 300 = (.ok (), t) ∧
    t.fragment? (ColorIndex.name 300) = some ⟨r, 299, false, true⟩ ∧
    ∀ px py, r.HasPixel px py → (t.canvas.pixel px py).toNat = 44 := by
  obtain ⟨start, hstart⟩ : ∃ start, blank? 3 2 = .ok start := exists_blank? (by decide) (by decide)
  have hroom : start.canvas.grid.find 2 2 = .ok ⟨0, 0, 2, 2⟩ :=
    find_of_blank? hstart (by decide) (by decide) (by decide) (by decide)
  obtain ⟨c, rfl, -⟩ := eq_of_blank? hstart
  obtain ⟨s, hs⟩ : ∃ s, s = run { canvas := c, swatchSize := 2 } [.setLogo true, .beginEntity "hull"] := ⟨_, rfl⟩
  have hnew : s.contains (ColorIndex.name 300) = false := by rw [hs]; rfl
  have hsize : s.swatchSize = 2 := by rw [hs]; rfl
  have hside : 0 < s.swatchSize := by rw [hsize]; decide
  have hplaced : s.synthesize 300 = (.ok (), s.withSwatch 300 ⟨0, 0, 2, 2⟩) := by
    refine synthesize_placed hnew ?_
    rw [hsize, hs]
    exact hroom
  obtain ⟨r, hr, -, -, -, hbyte, -⟩ := swatch_shows_low_byte hside hnew hplaced
  exact ⟨s, _, r, hnew, hside, hplaced, hr, hbyte⟩

/-- The swatch of 256 is painted with 0, which its key 255 does not go with. -/
theorem swatch_of_256_shows_0 : ¬ ∀ (s t : Sink) (n : UInt32), s.Reachable → 0 < s.swatchSize →
    s.contains (ColorIndex.name n) = false → s.synthesize n = (.ok (), t) →
      ∃ f, t.fragment? (ColorIndex.name n) = some f ∧ f.transparencyKey = n - 1 ∧
        ∀ px py, f.rect.HasPixel px py → (t.canvas.pixel px py).toNat = n.toNat := by
  intro hall
  obtain ⟨start, hstart⟩ : ∃ start, blank? 4 4 = .ok start := exists_blank? (by decide) (by decide)
  have hreach := reachable_of_blank? hstart
  have hroom : start.canvas.grid.find 4 4 = .ok ⟨0, 0, 4, 4⟩ :=
    find_of_blank? hstart (by decide) (by decide) (by decide) (by decide)
  obtain ⟨c, rfl, -⟩ := eq_of_blank? hstart
  obtain ⟨f, hf, -, hpixels⟩ := hall _ _ 256 hreach (show 0 < (4 : UInt32) by decide) rfl
    (synthesize_placed rfl hroom)
  obtain rfl : (⟨⟨0, 0, 4, 4⟩, 255, false, true⟩ : Fragment) = f := Option.some.inj (Eq.trans rfl hf)
  have hcorner : Rect.HasPixel ⟨0, 0, 4, 4⟩ 0 0 := by decide
  have hfits : Rect.Fits ⟨0, 0, 4, 4⟩ c.width c.height := (Grid.find_firstFit hroom).2.2.fits
  have hzero := hpixels 0 0 hcorner
  rw [pixel_withSwatch hfits hcorner] at hzero
  exact absurd hzero (by decide)

end Sink

/-! ## The entry of a swatch -/

/-- The swatch of palette index `n` as an entry of an archive. -/
def ArchiveEntry.swatch (n side : UInt32) : ArchiveEntry :=
  ⟨ColorIndex.name n, [{ ArchiveFrame.solid side side n.toUInt8 with transparencyIndex := n - 1 }]⟩

namespace Sink
variable {s : Sink} {n : UInt32}

/-- The sink after the swatch has been streamed to `r`. -/
def withStreamedSwatch (s : Sink) (n : UInt32) (r : Rect) : Sink :=
  (((s.awaiting (ColorIndex.name n)).placing (ColorIndex.name n) r (n - 1) s.logoActive).shown (ColorIndex.name n) r
    (some (.replicate (s.swatchSize.toNat * s.swatchSize.toNat) n.toUInt8))).endEntity

/-- A streamed swatch takes the first fit, or it is reported that there is none. -/
theorem deliver_swatch (hn : s.contains (ColorIndex.name n) = false) (hf : ¬ s.Filled (ColorIndex.name n)) :
    (ArchiveEntry.swatch n s.swatchSize).deliver receiver s =
      match s.canvas.grid.find s.swatchSize.toNat s.swatchSize.toNat with
      | .ok r => (.ok (), s.withStreamedSwatch n r)
      | .error e => (.error (e.reported s.canvas.width s.canvas.height s.swatchSize.toNat s.swatchSize.toNat),
          s.awaiting (ColorIndex.name n)) :=
  deliver_new (e := .swatch n s.swatchSize) hn hf

/-- The rows of a streamed swatch fill its square. -/
theorem canvas_withStreamedSwatch {r : Rect} (hr : s.canvas.grid.find s.swatchSize.toNat s.swatchSize.toNat = .ok r) :
    (s.withStreamedSwatch n r).canvas = (s.canvas.reserve r s.logoActive).paint r n.toUInt8 := by
  obtain ⟨hw, hh, -⟩ := Grid.find_firstFit hr
  rw [Canvas.paint_eq_writeRows, hw, hh]
  rfl

/-- Of the registration at its beginning nothing is left once the swatch has its place. -/
theorem fragments_withStreamedSwatch (s : Sink) (n : UInt32) (r : Rect) :
    (s.withStreamedSwatch n r).fragments =
      s.fragments.insert (ColorIndex.name n) ⟨r, n - 1, s.logoActive, true⟩ :=
  Table.insert_insert s.fragments (ColorIndex.name n) {} _

/-- **A swatch is like an entry of one solid frame.** Where its name is not registered, placing the swatch and
extracting an entry that consists of it, as an entity that is no team colour, have the same outcome. If they succeed,
they leave the same pixels, reservations, fragments and painted names; if not, both report the canvas full for the
swatch and leave it as it was. On a canvas too large for the sums of the search both may end the program instead, and
leave the canvas alone as well. -/
theorem swatch_like_entry (hs : s.Reachable) (hn : s.contains (ColorIndex.name n) = false) {a : Archive}
    (ha : a.entry? (ColorIndex.name n) = some (.swatch n s.swatchSize)) :
    (∃ t u, s.synthesize n = (.ok (), t) ∧
      a.extract (ColorIndex.name n) receiver (s.setLogo false) = (.ok (), u) ∧
      t.canvas = u.canvas ∧ t.fragments = u.fragments ∧ t.filled = u.filled) ∨
    ∃ t u e, s.synthesize n = (.error e, t) ∧
      a.extract (ColorIndex.name n) receiver (s.setLogo false) = (.error e, u) ∧
      (e = .bufferFull s.canvas.width s.canvas.height s.swatchSize.toNat s.swatchSize.toNat ∨
        e = .overflow ∧ ¬ Grid.SumsFit s.canvas.width s.canvas.height) ∧
      t.canvas = s.canvas ∧ u.canvas = s.canvas := by
  obtain ⟨W, H, hsound⟩ := hs.sound
  have hstreamed := deliver_swatch (s := s.setLogo false) (n := n) hn (hsound.not_filled hn)
  rw [Archive.extract_eq_deliver ha, synthesize_new hn]
  cases hr : s.canvas.grid.find s.swatchSize.toNat s.swatchSize.toNat with
  | ok r =>
    refine .inl ⟨s.withSwatch n r, (s.setLogo false).withStreamedSwatch n r, rfl, ?_, ?_, ?_, rfl⟩
    · exact hstreamed.trans (by simp only [setLogo, hr])
    · exact (canvas_withStreamedSwatch (s := s.setLogo false) hr).symm
    · exact (fragments_withStreamedSwatch (s.setLogo false) n r).symm
  | error refusal =>
    refine .inr ⟨s, (s.setLogo false).awaiting (ColorIndex.name n), _, rfl, ?_, reported_cases hr, rfl, rfl⟩
    exact hstreamed.trans (by simp only [setLogo, hr])

/-- A swatch of two pixels a side. -/
def paints : Archive := ⟨"paints", [.swatch 7 2]⟩

theorem swatch_like_entry_in_open_entity : ∃ start s, blank? 3 2 = .ok start ∧
    s = run { start with swatchSize := 2 } [.setLogo true, .beginEntity "hull"] ∧ s.Reachable ∧
    s.contains (ColorIndex.name 7) = false ∧ paints.entry? (ColorIndex.name 7) = some (.swatch 7 s.swatchSize) ∧
    ∃ t u, s.synthesize 7 = (.ok (), t) ∧
      paints.extract (ColorIndex.name 7) receiver (s.setLogo false) = (.ok (), u) ∧
      t.canvas = u.canvas ∧ t.fragments = u.fragments ∧ t.filled = u.filled := by
  obtain ⟨start, hstart⟩ : ∃ start, blank? 3 2 = .ok start := exists_blank? (by decide) (by decide)
  obtain ⟨s, hs⟩ : ∃ s, s = run { start with swatchSize := 2 } [.setLogo true, .beginEntity "hull"] := ⟨_, rfl⟩
  have hreach : s.Reachable := ⟨3, 2, 2, _, start, hstart, hs⟩
  have hroom : s.canvas.grid.find s.swatchSize.toNat s.swatchSize.toNat = .ok ⟨0, 0, 2, 2⟩ := by
    rw [hs]
    exact find_of_blank? hstart (w := 2) (v := 2) (by decide) (by decide) (by decide) (by decide)
  have hnew : s.contains (ColorIndex.name 7) = false := by
    obtain ⟨c, rfl, -⟩ := eq_of_blank? hstart
    rw [hs]
    rfl
  have hentry : paints.entry? (ColorIndex.name 7) = some (.swatch 7 s.swatchSize) := by
    rw [hs]
    rfl
  refine ⟨start, s, hstart, hs, hreach, hnew, hentry, ?_⟩
  rcases swatch_like_entry hreach hnew hentry with hok | ⟨_, _, _, herr, -⟩
  · exact hok
  · rw [synthesize_new hnew, hroom] at herr
    cases herr

end Sink
end TextureAtlas
