import Mathlib
import TextureAtlas.Proofs.Doubles
import TextureAtlas.Proofs.Stability
import TextureAtlas.Proofs.UnitAtlas

/-!
# Texture coordinates are exact

The sides of a composed atlas are powers of two, so the texture coordinates of a fragment are fractions that
64-bit floats hold exactly. They lie between 0 and 1, recover the size of the fragment, and those of distinct
fragments have at most their edges in common: the pixel under a point inside the box of a fragment is a pixel of
that fragment (`ExactUv.hasPixel_of_mem_interior`), and fragments share none (`coordinates_exact_and_apart`).
-/

namespace TextureAtlas

/-! ## Fractions of a canvas side -/

namespace Quotient

def value (q : Quotient) : ℚ := q.num / q.den

/-- At most 1, and the denominator is a power of two among the 32-bit numbers. -/
structure Dyadic (q : Quotient) : Prop where
  num_le : q.num ≤ q.den
  den_eq : ∃ k, k < 32 ∧ q.den = 2 ^ k

theorem Dyadic.exact {q : Quotient} (h : q.Dyadic) : (doubleValue q.toFloat).toRat? = some q.value := by
  obtain ⟨k, hk, hden⟩ := h.den_eq
  have hnum : q.num < 2 ^ 53 := by
    calc q.num ≤ 2 ^ k := hden ▸ h.num_le
      _ < 2 ^ 53 := Nat.pow_lt_pow_right Nat.one_lt_two (by omega)
  rw [toFloat, value, hden, toRat?_div_two_pow hnum (by omega)]
  push_cast
  rfl

/-- The fractions at which a stretch of `size` pixels begins and ends on a canvas side of `side` pixels. -/
structure Spans (lo hi : Quotient) (size side : Nat) : Prop where
  lo_dyadic : lo.Dyadic
  hi_dyadic : hi.Dyadic
  nonneg : 0 ≤ lo.value
  le : lo.value ≤ hi.value
  le_one : hi.value ≤ 1
  lt : 0 < size → lo.value < hi.value
  length_eq : (hi.value - lo.value) * side = size

theorem spans_of_le {start size side k : Nat} (hside : side = 2 ^ k) (hk : k < 32) (hfits : start + size ≤ side) :
    Spans ⟨start, side⟩ ⟨start + size, side⟩ size side := by
  have hpos : (0 : ℚ) < side := by
    rw [hside]
    positivity
  have hlength : (value ⟨start + size, side⟩ - value ⟨start, side⟩) * side = size := by
    rw [value, value]
    push_cast
    field_simp
    ring
  have hlt : 0 < size → value ⟨start, side⟩ < value ⟨start + size, side⟩ := by
    intro hsize
    rw [← sub_pos, ← mul_pos_iff_of_pos_right hpos, hlength]
    exact_mod_cast hsize
  refine ⟨⟨?_, k, hk, hside⟩, ⟨hfits, k, hk, hside⟩, ?_, ?_, ?_, hlt, hlength⟩
  · exact Nat.le_trans (Nat.le_add_right start size) hfits
  · rw [value]
    positivity
  · rw [← sub_nonneg, ← mul_nonneg_iff_of_pos_right hpos, hlength]
    positivity
  · rw [value, div_le_one hpos]
    exact_mod_cast hfits

end Quotient

/-! ## Boxes -/

/-- Each float is the quotient, without rounding. -/
structure UvRect.IsExactly (uv : UvRect) (e : ExactUv) : Prop where
  uMin : (doubleValue uv.uMin).toRat? = some e.uMin.value
  vMin : (doubleValue uv.vMin).toRat? = some e.vMin.value
  uMax : (doubleValue uv.uMax).toRat? = some e.uMax.value
  vMax : (doubleValue uv.vMax).toRat? = some e.vMax.value

namespace ExactUv

/-- The part of the plane between the coordinates. -/
def box (e : ExactUv) : Set (ℝ × ℝ) :=
  Set.Icc (e.uMin.value : ℝ) e.uMax.value ×ˢ Set.Icc (e.vMin.value : ℝ) e.vMax.value

theorem interior_box (e : ExactUv) : interior e.box =
    Set.Ioo (e.uMin.value : ℝ) e.uMax.value ×ˢ Set.Ioo (e.vMin.value : ℝ) e.vMax.value := by
  rw [box, interior_prod_eq, interior_Icc, interior_Icc]

theorem floor_mem_of_mem_Ioo {start size side : Nat} {t : ℝ} (hside : 0 < side)
    (ht : t ∈ Set.Ioo ((Quotient.value ⟨start, side⟩ : ℚ) : ℝ) (Quotient.value ⟨start + size, side⟩ : ℚ)) :
    start ≤ ⌊t * side⌋₊ ∧ ⌊t * side⌋₊ < start + size := by
  have hpos : (0 : ℝ) < side := by exact_mod_cast hside
  obtain ⟨hlo, hhi⟩ := ht
  simp only [Quotient.value, Rat.cast_div, Rat.cast_natCast] at hlo hhi
  rw [div_lt_iff₀ hpos] at hlo
  rw [lt_div_iff₀ hpos] at hhi
  exact ⟨Nat.le_floor hlo.le, (Nat.floor_lt (start.cast_nonneg.trans hlo.le)).2 hhi⟩

/-- Inside the box of a rectangle, the pixel under a point is one of the rectangle. -/
theorem hasPixel_of_mem_interior {r : Rect} {width height : Nat} (hw : 0 < width) (hh : 0 < height) {p : ℝ × ℝ}
    (hp : p ∈ interior (ofRect r width height).box) : r.HasPixel ⌊p.1 * width⌋₊ ⌊p.2 * height⌋₊ := by
  rw [interior_box] at hp
  obtain ⟨hx, hx'⟩ := floor_mem_of_mem_Ioo hw hp.1
  obtain ⟨hy, hy'⟩ := floor_mem_of_mem_Ioo hh hp.2
  exact ⟨hx, hx', hy, hy'⟩

theorem disjoint_interior {r r' : Rect} {width height : Nat} (hw : 0 < width) (hh : 0 < height) (h : r.Apart r') :
    Disjoint (interior (ofRect r width height).box) (interior (ofRect r' width height).box) := by
  rw [Set.disjoint_left]
  intro p hp hp'
  exact h _ _ (hasPixel_of_mem_interior hw hh hp) (hasPixel_of_mem_interior hw hh hp')

end ExactUv

/-! ## The canvas and what is placed on it -/

theorem Settings.InGrid.exists_two_pow {settings : Settings} {W H : Nat} (h : settings.InGrid W H)
    (hs : settings.Valid) : (∃ i, i < 32 ∧ W = 2 ^ i) ∧ ∃ j, j < 32 ∧ H = 2 ^ j := by
  obtain ⟨m, hm⟩ := hs.minWidth_eq
  obtain ⟨k, hk⟩ := h.width_eq
  obtain ⟨hW, hH⟩ := h.sides
  have hwidth : W = 2 ^ (m + k) := by rw [hk, hm, Nat.pow_add]
  have hbound : ∀ {i}, 2 ^ i < 2 ^ 32 → i < 32 := (Nat.pow_lt_pow_iff_right Nat.one_lt_two).1
  refine ⟨⟨m + k, hbound (hwidth ▸ hW), hwidth⟩, ?_⟩
  rcases h.shape with rfl | ⟨-, rfl⟩
  · exact ⟨m + k, hbound (hwidth ▸ hH), hwidth⟩
  · have hheight : 2 * W = 2 ^ (m + k + 1) := by rw [hwidth, Nat.pow_succ']
    exact ⟨m + k + 1, hbound (hheight ▸ hH), hheight⟩

namespace Layout.Proper
variable {W H : Nat} {l : Layout} {name name' : String} {f f' : Fragment}

theorem exists_spot_of_placed (h : l.Proper W H) (hf : (l.atlas W H).placed? name = some f) :
    ∃ p ∈ l.spots, p.request.name = name ∧ p.fragment = f := by
  obtain ⟨hf, hplaced⟩ := Option.filter_eq_some_iff.1 hf
  rcases h.accounted name f hf with rfl | hspot
  · cases hplaced
  · exact hspot

theorem fits_of_placed (h : l.Proper W H) (hf : (l.atlas W H).placed? name = some f) : f.rect.Fits W H := by
  obtain ⟨p, hp, -, rfl⟩ := h.exists_spot_of_placed hf
  obtain ⟨done, rest, hsplit⟩ := List.append_of_mem hp
  exact (h.first done p rest hsplit).fits

theorem apart_of_placed (h : l.Proper W H) (hne : name ≠ name') (hf : (l.atlas W H).placed? name = some f)
    (hf' : (l.atlas W H).placed? name' = some f') : f.rect.Apart f'.rect := by
  obtain ⟨p, hp, rfl, rfl⟩ := h.exists_spot_of_placed hf
  obtain ⟨p', hp', rfl, rfl⟩ := h.exists_spot_of_placed hf'
  exact h.apart_of_ne hp hp' fun he => hne (congrArg (·.request.name) he)

end Layout.Proper

section
variable {names : NameSet} {archives : List Archive} {settings : Settings} {a : Atlas}

theorem inGrid_of_compose (ha : compose names (.ofArchives archives) settings = .ok (some a)) :
    settings.InGrid a.width a.height := by
  have hs := valid_of_compose ha
  obtain ⟨W, H, hleast⟩ := (compose_eq_some_iff hs).1 ha
  obtain ⟨hW, hH⟩ := hleast.inGrid.pos hs.minWidth_pos
  obtain ⟨hwidth, hheight⟩ := size_of_composeAtSize hW hH hleast.success
  rw [hwidth, hheight]
  exact hleast.inGrid

/-- **Texture coordinates are exact, and those of distinct fragments overlap nowhere.** The sides of a composed
atlas are powers of two. A placed fragment ends before `2 ^ 32` on both sides. Its coordinates are exact as
floats; they increase from 0 to at most 1, strictly if the fragment has pixels on that side, and their
difference times the side of the canvas is the side of the fragment. The boxes of fragments under different names
have no inner point in common. -/
theorem coordinates_exact_and_apart (ha : compose names (.ofArchives archives) settings = .ok (some a)) :
    (∃ i, i < 32 ∧ a.width = 2 ^ i) ∧
    (∃ j, j < 32 ∧ a.height = 2 ^ j) ∧
    (∀ name f, a.placed? name = some f →
      let e := ExactUv.ofRect f.rect a.width a.height
      f.rect.x + f.rect.w < 2 ^ 32 ∧ f.rect.y + f.rect.h < 2 ^ 32 ∧
        (a.uv name).IsExactly e ∧
        Quotient.Spans e.uMin e.uMax f.rect.w a.width ∧ Quotient.Spans e.vMin e.vMax f.rect.h a.height) ∧
    ∀ name name' f f', name ≠ name' → a.placed? name = some f → a.placed? name' = some f' →
      Disjoint (interior (ExactUv.ofRect f.rect a.width a.height).box)
        (interior (ExactUv.ofRect f'.rect a.width a.height).box) := by
  have hgrid := inGrid_of_compose ha
  obtain ⟨⟨i, hi, hwidth⟩, j, hj, hheight⟩ := hgrid.exists_two_pow (valid_of_compose ha)
  obtain ⟨hW, hH⟩ := hgrid.pos (valid_of_compose ha).minWidth_pos
  obtain ⟨W, H, l, -, hproper, rfl⟩ := exists_layout_of_compose ha
  refine ⟨⟨i, hi, hwidth⟩, ⟨j, hj, hheight⟩, fun name f hf => ?_, fun name name' f f' hne hf hf' => ?_⟩
  · obtain ⟨hx, hy⟩ := hproper.fits_of_placed hf
    have hu := Quotient.spans_of_le hwidth hi hx
    have hv := Quotient.spans_of_le hheight hj hy
    refine ⟨Nat.lt_of_le_of_lt hx hgrid.sides.1, Nat.lt_of_le_of_lt hy hgrid.sides.2, ?_, hu, hv⟩
    rw [Atlas.uv_of_placed? hf, UvRect.ofRect_eq]
    exact ⟨hu.lo_dyadic.exact, hv.lo_dyadic.exact, hu.hi_dyadic.exact, hv.hi_dyadic.exact⟩
  · exact ExactUv.disjoint_interior hW hH (hproper.apart_of_placed hne hf hf')

/-- A plate and a rivet on a canvas of two by two pixels. -/
theorem coordinates_of_plate_and_rivet :
    ∃ a f g, compose (.ofNames ["plate", "rivet"]) (.ofArchives [platesAndRivets])
        { minWidth := 2, maxWidth := 2, tallVariants := false } = .ok (some a) ∧
      a.placed? "plate" = some f ∧ a.placed? "rivet" = some g ∧
      (a.uv "plate").IsExactly (ExactUv.ofRect f.rect a.width a.height) ∧
      (a.uv "rivet").IsExactly (ExactUv.ofRect g.rect a.width a.height) ∧
      Disjoint (interior (ExactUv.ofRect f.rect a.width a.height).box)
        (interior (ExactUv.ofRect g.rect a.width a.height).box) := by
  have ha : ∃ a, compose (.ofNames ["plate", "rivet"]) (.ofArchives [platesAndRivets])
      { minWidth := 2, maxWidth := 2, tallVariants := false } = .ok (some a) := by
    have hvalid : ({ minWidth := 2, maxWidth := 2, tallVariants := false } : Settings).Valid := rfl
    have hsize : ∃ a, composeAtSize (.ofNames ["plate", "rivet"]) (.ofArchives [platesAndRivets])
        { minWidth := 2, maxWidth := 2, tallVariants := false } 2 2 = .ok a := by
      rw [composeAtSize_eq_layout _ _ _ Nat.two_pos Nat.two_pos (by decide)]
      exact ⟨_, rfl⟩
    obtain ⟨a, ha⟩ := hsize
    exact exists_compose_of_success hvalid ⟨⟨0, rfl⟩, by decide, .inl rfl, by decide⟩ ha
  obtain ⟨a, ha⟩ := ha
  have hf : ∃ f, a.placed? "plate" = some f :=
    exists_placed_of_provided ha (by decide) (by rw [TextureIndex.lookup_ofArchives]; rfl) rfl (by decide)
  have hg : ∃ g, a.placed? "rivet" = some g :=
    exists_placed_of_provided ha (by decide) (by rw [TextureIndex.lookup_ofArchives]; rfl) rfl (by decide)
  obtain ⟨f, hf⟩ := hf
  obtain ⟨g, hg⟩ := hg
  obtain ⟨-, -, hexact, hapart⟩ := coordinates_exact_and_apart ha
  exact ⟨a, f, g, ha, hf, hg, (hexact _ _ hf).2.2.1, (hexact _ _ hg).2.2.1, hapart _ _ _ _ (by decide) hf hg⟩

end

end TextureAtlas
