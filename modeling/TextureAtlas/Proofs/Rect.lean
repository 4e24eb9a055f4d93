import TextureAtlas.Rect

/-!
# Rectangles as sets of pixels

Rectangles overlap iff they have a common pixel (`overlaps_iff`), and being `Apart` is having none. The check
that one contains another reads an empty side as one pixel long (`contains_iff`), so it speaks about the pixels
of the two only if the outer one has any (`overlap_and_containment_by_pixels`). Within a canvas no edge
needs more than 32 bits (`Fits.inRange`).
-/

namespace TextureAtlas.Rect

/-- No pixel belongs to both rectangles. -/
def Apart (a b : Rect) : Prop := ∀ px py, a.HasPixel px py → ¬ b.HasPixel px py

theorem Apart.symm {a b : Rect} (h : a.Apart b) : b.Apart a := fun px py hb ha => h px py ha hb

theorem overlaps_iff {a b : Rect} : a.overlaps b = true ↔ ∃ px py, a.HasPixel px py ∧ b.HasPixel px py := by
  obtain ⟨ax, ay, aw, ah⟩ := a
  obtain ⟨bx, b_y, bw, bh⟩ := b
  simp only [overlaps, HasPixel]
  constructor
  · intro h
    split at h
    · simp at h
    · simp only [Bool.not_eq_true', Bool.or_eq_false_iff, decide_eq_false_iff_not] at h
      -- The later of the two left edges and the lower of the two upper ones.
      exact ⟨max ax bx, max ay b_y, by omega, by omega⟩
  · rintro ⟨px, py, ha, hb⟩
    rw [if_neg (by omega)]
    simp only [Bool.not_eq_true', Bool.or_eq_false_iff, decide_eq_false_iff_not]
    omega

theorem apart_iff {a b : Rect} : a.Apart b ↔ a.overlaps b = false := by
  rw [← Bool.not_eq_true, overlaps_iff]
  exact ⟨fun h ⟨px, py, ha, hb⟩ => h px py ha hb, fun h px py ha hb => h ⟨px, py, ha, hb⟩⟩

/-- A pixel of a rectangle that ends inside the canvas is on the canvas. -/
theorem Fits.lt {r : Rect} {width height px py : Nat} (h : r.Fits width height) (hp : r.HasPixel px py) :
    px < width ∧ py < height := by
  simp only [Fits, HasPixel] at h hp
  omega

/-- On a canvas with sides of 32 bits every edge has 32 bits. -/
theorem Fits.inRange {r : Rect} {width height : Nat} (h : r.Fits width height) (hw : width < UInt32.size)
    (hh : height < UInt32.size) : r.InRange :=
  ⟨Nat.lt_of_le_of_lt h.1 hw, Nat.lt_of_le_of_lt h.2 hh⟩

theorem InRange.right_bottom_lt {r : Rect} (h : r.InRange) : r.right < UInt32.size ∧ r.bottom < UInt32.size := by
  have hsize : 0 < UInt32.size := by decide
  simp only [InRange, right, bottom] at h ⊢
  omega

/-! ## Containment -/

theorem overlaps_comm (a b : Rect) : a.overlaps b = b.overlaps a := by
  rw [Bool.eq_iff_iff, overlaps_iff, overlaps_iff]
  simp only [and_comm]

/-- The rectangle with an empty side made one pixel long. -/
def padded (r : Rect) : Rect := ⟨r.x, r.y, max r.w 1, max r.h 1⟩

theorem padded_of_hasPixel {r : Rect} {px py : Nat} (h : r.HasPixel px py) : r.padded = r := by
  obtain ⟨x, y, w, h⟩ := r
  simp only [HasPixel] at h
  simp only [padded, mk.injEq, true_and]
  omega

theorem HasPixel.padded {r : Rect} {px py : Nat} (h : r.HasPixel px py) : r.padded.HasPixel px py := by
  rwa [padded_of_hasPixel h]

theorem contains_iff {a b : Rect} :
    a.contains b = true ↔ ∀ px py, b.padded.HasPixel px py → a.padded.HasPixel px py := by
  simp only [contains, Bool.and_eq_true, decide_eq_true_eq]
  simp only [right, bottom, padded, HasPixel]
  constructor
  · intro h px py hp
    omega
  · intro h
    -- The first and the last pixel of `b` tell all four edges.
    have hfirst := h b.x b.y (by omega)
    have hlast := h (b.x + (b.w - 1)) (b.y + (b.h - 1)) (by omega)
    omega

/-- **Overlap and containment, pixel by pixel.** Two rectangles overlap, either way round, iff they have a common
pixel. Where the check says that one contains another, the pixels of the inner one are pixels of the outer one
iff the outer one has any or the inner one has none. The pixels tell the check as soon as the inner one has any.
And an inner one that has pixels overlaps an outer one that contains it iff that one has pixels too. -/
theorem overlap_and_containment_by_pixels (a b : Rect) :
    (a.overlaps b = true ↔ ∃ px py, a.HasPixel px py ∧ b.HasPixel px py) ∧
    a.overlaps b = b.overlaps a ∧
    (a.contains b = true → ((∀ px py, b.HasPixel px py → a.HasPixel px py) ↔
      (∃ px py, a.HasPixel px py) ∨ ¬ ∃ px py, b.HasPixel px py)) ∧
    ((∃ px py, b.HasPixel px py) → (∀ px py, b.HasPixel px py → a.HasPixel px py) → a.contains b = true) ∧
    ((∃ px py, b.HasPixel px py) → a.contains b = true →
      (a.overlaps b = true ↔ ∃ px py, a.HasPixel px py)) := by
  have hinside : ∀ {qx qy}, a.contains b = true → a.HasPixel qx qy →
      ∀ px py, b.HasPixel px py → a.HasPixel px py := by
    intro qx qy hc ha px py hb
    have hp := contains_iff.1 hc px py hb.padded
    rwa [padded_of_hasPixel ha] at hp
  refine ⟨overlaps_iff, overlaps_comm a b, fun hc => ?_, ?_, ?_⟩
  · constructor
    · intro hall
      by_cases hb : ∃ px py, b.HasPixel px py
      · obtain ⟨px, py, hb⟩ := hb
        exact .inl ⟨px, py, hall px py hb⟩
      · exact .inr hb
    · rintro (⟨qx, qy, ha⟩ | hb) px py hp
      · exact hinside hc ha px py hp
      · exact absurd ⟨px, py, hp⟩ hb
  · rintro ⟨qx, qy, hb⟩ hall
    rw [contains_iff, padded_of_hasPixel hb, padded_of_hasPixel (hall qx qy hb)]
    exact hall
  · rintro ⟨qx, qy, hb⟩ hc
    rw [overlaps_iff]
    constructor
    · rintro ⟨px, py, ha, -⟩
      exact ⟨px, py, ha⟩
    · rintro ⟨px, py, ha⟩
      exact ⟨qx, qy, hinside hc ha qx qy hb, hb⟩

/-- A rectangle without pixels at the origin passes for one that contains the pixel there. -/
theorem empty_contains_pixel :
    (¬ ∀ a b : Rect, a.x + a.w < UInt32.size → a.y + a.h < UInt32.size → b.x + b.w < UInt32.size →
      b.y + b.h < UInt32.size → a.contains b = true → ∀ px py, b.HasPixel px py → a.HasPixel px py) ∧
    ¬ ∀ a b : Rect, a.x + a.w < UInt32.size → a.y + a.h < UInt32.size → b.x + b.w < UInt32.size →
      b.y + b.h < UInt32.size → (∃ px py, b.HasPixel px py) → a.contains b = true → a.overlaps b = true := by
  have hc : contains ⟨0, 0, 0, 0⟩ ⟨0, 0, 1, 1⟩ = true := by decide
  have hp : HasPixel ⟨0, 0, 1, 1⟩ 0 0 := by decide
  constructor
  · intro h
    have hnone := h ⟨0, 0, 0, 0⟩ ⟨0, 0, 1, 1⟩ (by decide) (by decide) (by decide) (by decide) hc 0 0 hp
    exact absurd hnone (by decide)
  · intro h
    have hover := h ⟨0, 0, 0, 0⟩ ⟨0, 0, 1, 1⟩ (by decide) (by decide) (by decide) (by decide) ⟨0, 0, hp⟩ hc
    exact absurd hover (by decide)

end TextureAtlas.Rect
