import TextureAtlas.Export
import TextureAtlas.Proofs.Atlas

/-!
# What the rasters show

The pass that shades every pixel once gives the images that are made one by one (`Atlas.albedo_exportAll`,
`Atlas.teamMask_exportAll`): it goes by offset and finds column and row, they go by column and row and find the
offset, and the two orders agree on a full plane. Pixel for pixel a raster shows the palette colour, or team colour
inside a placed fragment of team-colour paint (`rasters_show_palette_or_team`).
-/

namespace TextureAtlas

/-! ## Images -/

namespace Raster
variable {r : Raster} {width height x y : Nat}

/-- The pixel in column `x` of row `y`, if the image has it. -/
def pixel? (r : Raster) (x y : Nat) : Option Rgba :=
  if x < r.width ∧ y < r.height then r.pixels[y * r.width + x]? else none

theorem pixel?_ofFn (hx : x < width) (hy : y < height) (f : Nat → Nat → Rgba) :
    (ofFn width height f).pixel? x y = some (f x y) := by
  rw [pixel?, if_pos ⟨hx, hy⟩]
  simp only [ofFn, Array.getElem?_ofFn, dif_pos (Plane.cell_lt hx hy), Plane.cell_mod hx, Plane.cell_div hx]

theorem eq_of_parts {r' : Raster} (hw : r.width = r'.width) (hh : r.height = r'.height)
    (hpixels : r.pixels = r'.pixels) : r = r' := by
  cases r
  cases r'
  simp_all

/-- The image with the `n` pixels from offset `i` on taken from `f`, each in its column and row. -/
def paintRun (f : Nat → Rgba) (i : Nat) : Nat → Raster → Raster
  | 0, r => r
  | n + 1, r => paintRun f (i + 1) n (r.setPixel (i % r.width) (i / r.width) (f i))

@[simp] theorem width_setPixel (r : Raster) (x y : Nat) (c : Rgba) : (r.setPixel x y c).width = r.width := rfl

theorem setPixel_cell (r : Raster) (i : Nat) (c : Rgba) :
    r.setPixel (i % r.width) (i / r.width) c = { r with pixels := r.pixels.setIfInBounds i c } := by
  rw [setPixel, Nat.div_add_mod']

/-- By column and row the run paints the offsets from `i` on. -/
theorem paintRun_spec (f : Nat → Rgba) (i n : Nat) (r : Raster) :
    (paintRun f i n r).width = r.width ∧ (paintRun f i n r).height = r.height ∧
      ∀ k, (paintRun f i n r).pixels[k]? =
        if i ≤ k ∧ k < i + n ∧ k < r.pixels.size then some (f k) else r.pixels[k]? := by
  induction n generalizing i r with
  | zero => exact ⟨rfl, rfl, fun k => by rw [if_neg (by omega)]; rfl⟩
  | succ n ih =>
    obtain ⟨hw, hh, hpixels⟩ := ih (i + 1) (r.setPixel (i % r.width) (i / r.width) (f i))
    rw [setPixel_cell] at hw hh hpixels
    rw [paintRun, setPixel_cell]
    refine ⟨hw, hh, fun k => ?_⟩
    rw [hpixels k, Array.size_setIfInBounds, Array.getElem?_setIfInBounds]
    by_cases hk : i = k
    · subst hk
      rw [if_neg (by omega), if_pos rfl]
      by_cases hsize : i < r.pixels.size
      · rw [if_pos hsize, if_pos (by omega)]
      · rw [if_neg hsize, if_neg (by omega), Array.getElem?_eq_none (Nat.le_of_not_lt hsize)]
    · rw [if_neg hk]
      exact if_congr (by omega) rfl rfl

/-- Painted from end to end, an image shows what `f` has at the offset of each column and row. -/
theorem paintRun_blank (f : Nat → Rgba) (width height : Nat) :
    paintRun f 0 (width * height) (blank width height) = ofFn width height fun x y => f (y * width + x) := by
  obtain ⟨hw, hh, hpixels⟩ := paintRun_spec f 0 (width * height) (blank width height)
  have hall : (paintRun f 0 (width * height) (blank width height)).pixels =
      (ofFn width height fun x y => f (y * width + x)).pixels := by
    refine Array.ext_getElem? fun k => ?_
    rw [hpixels k]
    simp only [blank, ofFn, Array.size_replicate, Array.getElem?_replicate, Array.getElem?_ofFn, Nat.div_add_mod']
    by_cases hk : k < width * height
    · rw [if_pos (by omega), dif_pos hk]
    · rw [if_neg (by omega), if_neg hk, dif_neg hk]
  exact eq_of_parts hw hh hall

end Raster

/-! ## One pass and pixel by pixel -/

namespace Atlas
variable (a : Atlas) (p : Palette) (threshold : Float32)

/-- The pass paints the two images side by side. -/
theorem shadeRun_eq (i n : Nat) {albedo teamMask : Raster} (ha : albedo.width = a.width)
    (hm : teamMask.width = a.width) :
    a.shadeRun p threshold i n albedo teamMask =
      (.paintRun (fun k => (a.shadeAt p threshold k).albedo) i n albedo,
        .paintRun (fun k => (a.shadeAt p threshold k).teamMask) i n teamMask) := by
  induction n generalizing i albedo teamMask with
  | zero => rfl
  | succ n ih =>
    rw [shadeRun, ih (i + 1) ((Raster.width_setPixel ..).trans ha) ((Raster.width_setPixel ..).trans hm),
      Raster.paintRun, Raster.paintRun, ha, hm]

theorem shadeRun_blank :
    a.shadeRun p threshold 0 (min a.indices.size a.logo.size) (.blank a.width a.height) (.blank a.width a.height) =
      (a.albedo p threshold, a.teamMask p threshold) := by
  rw [shadeRun_eq a p threshold 0 _ rfl rfl, a.indices_size, a.logo_size, Nat.min_self, Raster.paintRun_blank,
    Raster.paintRun_blank]
  rfl

theorem albedo_exportAll : (a.exportAll p threshold).albedo = a.albedo p threshold :=
  congrArg Prod.fst (a.shadeRun_blank p threshold)

theorem teamMask_exportAll : (a.exportAll p threshold).teamMask = a.teamMask p threshold :=
  congrArg Prod.snd (a.shadeRun_blank p threshold)

end Atlas

/-! ## Shades -/

namespace Palette
variable {p : Palette} {index : UInt8} {logo : Bool} {threshold : Float32}

/-- The colour of an index: the three low bytes of its word, and black past the end of the table. -/
structure Colors (p : Palette) (index : UInt8) (c : Rgb) : Prop where
  within : ∀ w, p.words[index.toNat]? = some w →
    c.r.toNat = w.toNat / 0x10000 % 0x100 ∧ c.g.toNat = w.toNat / 0x100 % 0x100 ∧ c.b.toNat = w.toNat % 0x100
  beyond : p.size ≤ index.toNat → c = ⟨0, 0, 0⟩

theorem colors_rgb (p : Palette) (index : UInt8) : p.Colors index (p.rgb index) where
  within := by
    intro w hw
    rw [rgb, word?, hw]
    simp [Nat.shiftRight_eq_div_pow]
  beyond := by
    intro hsize
    rw [rgb, word?, Array.getElem?_eq_none hsize]

theorem value_ofRgb (c : Rgb) : (Hsv.ofRgb c).value = max (max c.r c.g) c.b := by
  rw [Hsv.ofRgb]
  dsimp only
  split <;> rfl

/-- Team colour shows as black of an opacity that leaves the greatest channel. -/
theorem shade_team (hlogo : logo = true) (hsat : threshold < (Hsv.ofRgb (p.rgb index)).saturation) :
    p.shade index logo threshold =
      ⟨⟨0, 0, 0, 255⟩, ⟨0, 0, 0, 255 - max (max (p.rgb index).r (p.rgb index).g) (p.rgb index).b⟩⟩ := by
  rw [← value_ofRgb]
  simp only [shade, Hsv.isTeamPixel, hlogo, hsat, decide_true, Bool.and_self, if_true]
  rfl

theorem shade_plain (h : ¬ (logo = true ∧ threshold < (Hsv.ofRgb (p.rgb index)).saturation)) :
    p.shade index logo threshold =
      ⟨⟨(p.rgb index).r, (p.rgb index).g, (p.rgb index).b, 255⟩, ⟨0, 0, 0, 0⟩⟩ := by
  have hplain : (Hsv.ofRgb (p.rgb index)).isTeamPixel logo threshold = false := by
    rw [Hsv.isTeamPixel, Bool.and_eq_false_iff, decide_eq_false_iff_not]
    by_cases hlogo : logo = true
    · exact .inr fun hsat => h ⟨hlogo, hsat⟩
    · exact .inl (Bool.eq_false_iff.2 hlogo)
  simp only [shade, hplain, Bool.false_eq_true, if_false]
  rfl

end Palette

/-! ## What is seen of an atlas -/

/-- The pixel lies in a placed fragment of team-colour paint. -/
def Atlas.TeamPaintAt (a : Atlas) (px py : Nat) : Prop :=
  ∃ name f, a.placed? name = some f ∧ f.logo = true ∧ f.rect.HasPixel px py

/-- An image that has a pixel in each column of each row. -/
structure Raster.Covers (r : Raster) (width height : Nat) : Prop where
  width_eq : r.width = width
  height_eq : r.height = height
  size_eq : r.pixels.size = width * height

theorem Raster.covers_ofFn (width height : Nat) (f : Nat → Nat → Rgba) : (ofFn width height f).Covers width height :=
  ⟨rfl, rfl, Array.size_ofFn⟩

namespace Sink
variable {s : Sink}

/-- **Rasters show the palette or team colour.** One pass over a finished atlas gives the index bytes and the two
images that are made pixel by pixel, all of the size of the canvas. A pixel in a placed fragment of team-colour paint
whose colour is saturated above the threshold is black in the albedo image, and its opacity in the mask is what its
greatest channel leaves; any other pixel shows its palette colour, and the mask is clear there. -/
theorem rasters_show_palette_or_team (hs : s.Reachable) (p : Palette) (threshold : Float32) :
    (s.finish.exportAll p threshold).albedo = s.finish.albedo p threshold ∧
    (s.finish.exportAll p threshold).teamMask = s.finish.teamMask p threshold ∧
    (s.finish.exportAll p threshold).albedo.Covers s.canvas.width s.canvas.height ∧
    (s.finish.exportAll p threshold).teamMask.Covers s.canvas.width s.canvas.height ∧
    (s.finish.exportAll p threshold).indexed.size = s.canvas.width * s.canvas.height ∧
    ∀ x y, x < s.canvas.width → y < s.canvas.height →
      (s.finish.exportAll p threshold).indexed[y * s.canvas.width + x]? = some (s.canvas.pixel x y) ∧
      ∃ c, p.Colors (s.canvas.pixel x y) c ∧
        (¬ s.finish.TeamPaintAt x y →
          (s.finish.exportAll p threshold).albedo.pixel? x y = some ⟨c.r, c.g, c.b, 255⟩ ∧
          (s.finish.exportAll p threshold).teamMask.pixel? x y = some ⟨0, 0, 0, 0⟩) ∧
        (¬ (s.finish.TeamPaintAt x y ∧ threshold < (Hsv.ofRgb c).saturation) ∧
          (s.finish.exportAll p threshold).albedo.pixel? x y = some ⟨c.r, c.g, c.b, 255⟩ ∧
          (s.finish.exportAll p threshold).teamMask.pixel? x y = some ⟨0, 0, 0, 0⟩ ∨
        (s.finish.TeamPaintAt x y ∧ threshold < (Hsv.ofRgb c).saturation) ∧
          (s.finish.exportAll p threshold).albedo.pixel? x y = some ⟨0, 0, 0, 255⟩ ∧
          (s.finish.exportAll p threshold).teamMask.pixel? x y =
            some ⟨0, 0, 0, 255 - max (max c.r c.g) c.b⟩) := by
  obtain ⟨width, height, hsound⟩ := hs.sound
  rw [Atlas.albedo_exportAll, Atlas.teamMask_exportAll]
  refine ⟨rfl, rfl, Raster.covers_ofFn .., Raster.covers_ofFn .., s.finish.indices_size, fun x y hx hy => ?_⟩
  have hcell : y * s.canvas.width + x < s.canvas.indices.size :=
    Nat.lt_of_lt_of_eq (Plane.cell_lt hx hy) s.canvas.indices_size.symm
  have hindex : s.canvas.indices[y * s.canvas.width + x]? = some (s.canvas.pixel x y) := by
    rw [Canvas.pixel_eq ⟨hx, hy⟩, Array.getD_eq_getD_getElem?, Array.getElem?_eq_getElem hcell, Option.getD_some]
  have hshade : s.finish.shadeAt p threshold (y * s.canvas.width + x) =
      p.shade (s.canvas.pixel x y) (s.finish.logo.getD (y * s.canvas.width + x) false) threshold := by
    rw [Canvas.pixel_eq ⟨hx, hy⟩]
    rfl
  have halbedo : (s.finish.albedo p threshold).pixel? x y =
      some (s.finish.shadeAt p threshold (y * s.canvas.width + x)).albedo := Raster.pixel?_ofFn hx hy _
  have hmask : (s.finish.teamMask p threshold).pixel? x y =
      some (s.finish.shadeAt p threshold (y * s.canvas.width + x)).teamMask := Raster.pixel?_ofFn hx hy _
  have hteam : s.finish.logo.getD (y * s.canvas.width + x) false = true ↔ s.finish.TeamPaintAt x y :=
    hsound.logo_finish_iff (Nat.lt_of_lt_of_eq hx hsound.width_eq) (Nat.lt_of_lt_of_eq hy hsound.height_eq)
  refine ⟨hindex, p.rgb (s.canvas.pixel x y), p.colors_rgb _, ?_⟩
  rw [halbedo, hmask, hshade]
  by_cases h : s.finish.TeamPaintAt x y ∧ threshold < (Hsv.ofRgb (p.rgb (s.canvas.pixel x y))).saturation
  · rw [Palette.shade_team (hteam.2 h.1) h.2]
    exact ⟨fun hno => absurd h.1 hno, .inr ⟨h, rfl, rfl⟩⟩
  · rw [Palette.shade_plain (by rwa [hteam])]
    exact ⟨fun _ => ⟨rfl, rfl⟩, .inl ⟨h, rfl, rfl⟩⟩

/-- One pixel of team-colour paint. -/
def crestCalls : List Call := [.setLogo true, .beginEntity "crest", .beginFrame ⟨1, 1, 9⟩, .frameLayer #[1]]

/-- Paint in a saturated colour, beside a pixel in a saturated colour that no fragment covers. -/
theorem rasters_show_crest : ∃ start, blank? 2 1 = .ok start ∧
    (run { start with swatchSize := 2 } crestCalls).Reachable ∧
    ((run { start with swatchSize := 2 } crestCalls).finish.exportAll ⟨#[0xFF00, 0xC80000]⟩
      0.5).teamMask.pixel? 0 0 = some ⟨0, 0, 0, 55⟩ ∧
    ((run { start with swatchSize := 2 } crestCalls).finish.exportAll ⟨#[0xFF00, 0xC80000]⟩
      0.5).albedo.pixel? 1 0 = some ⟨0, 255, 0, 255⟩ := by
  obtain ⟨start, hstart⟩ : ∃ start, blank? 2 1 = .ok start := ⟨_, rfl⟩
  have hreach : (run { start with swatchSize := 2 } crestCalls).Reachable :=
    ⟨2, 1, 2, crestCalls, start, hstart, rfl⟩
  have hsound := (sound_of_blank? hstart 2).run crestCalls
  refine ⟨start, hstart, hreach, ?_⟩
  obtain ⟨-, -, -, -, -, hpixels⟩ := rasters_show_palette_or_team hreach ⟨#[0xFF00, 0xC80000]⟩ 0.5
  have hteam := hsound.logo_finish_iff (show 0 < 2 by decide) (show 0 < 1 by decide)
  have hbare := hsound.logo_finish_iff (show 1 < 2 by decide) (show 0 < 1 by decide)
  cases hstart
  obtain ⟨-, c, hc, -, hcrest⟩ := hpixels 0 0 (by decide +kernel) (by decide +kernel)
  obtain ⟨-, d, hd, hbeside, -⟩ := hpixels 1 0 (by decide +kernel) (by decide +kernel)
  obtain ⟨hr, hg, hb⟩ := hc.within 0xC80000 (by decide +kernel)
  obtain ⟨hr', hg', hb'⟩ := hd.within 0xFF00 (by decide +kernel)
  have hcolor : c = ⟨200, 0, 0⟩ := by
    obtain ⟨r, g, b⟩ := c
    simp_all [← UInt8.toNat_inj]
  have hcolor' : d = ⟨0, 255, 0⟩ := by
    obtain ⟨r, g, b⟩ := d
    simp_all [← UInt8.toNat_inj]
  rw [hcolor] at hcrest
  rw [hcolor'] at hbeside
  constructor
  · obtain ⟨hno, -⟩ | ⟨-, -, hmask⟩ := hcrest
    · exact absurd ⟨hteam.1 (by decide +kernel), by decide⟩ hno
    · exact hmask
  · exact (hbeside fun h => absurd (hbare.2 h) (by decide +kernel)).1

end Sink
end TextureAtlas
