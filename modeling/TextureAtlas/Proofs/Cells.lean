import Mathlib.Algebra.GroupWithZero.Nat
import Mathlib.Data.Nat.Count
import Mathlib.Data.Finset.Prod
import Mathlib.Order.Interval.Finset.Nat
import TextureAtlas.Proofs.Plane
import TextureAtlas.Proofs.Rect

/-!
# Counting cells

The number of marked cells of a plane is the area of the rectangles that mark it, when these lie on the plane
and apart from each other (`Plane.count_eq_sum_area`): every marked cell is counted once on either side.
-/

namespace TextureAtlas

namespace Rect
variable {r a b : Rect} {rects : List Rect} {c : Nat × Nat}

/-- The pixels of a rectangle, as pairs of column and row. -/
def cells (r : Rect) : Finset (Nat × Nat) := Finset.Ico r.x (r.x + r.w) ×ˢ Finset.Ico r.y (r.y + r.h)

theorem mem_cells : c ∈ r.cells ↔ r.HasPixel c.1 c.2 := by
  simp only [cells, Finset.mem_product, Finset.mem_Ico, HasPixel, and_assoc]

theorem card_cells (r : Rect) : r.cells.card = r.area := by
  simp [cells, Finset.card_product, area]

/-- The pixels of all the rectangles. -/
def cellsOf (rects : List Rect) : Finset (Nat × Nat) := rects.foldr (fun r cells => r.cells ∪ cells) ∅

theorem mem_cellsOf : c ∈ cellsOf rects ↔ ∃ r ∈ rects, r.HasPixel c.1 c.2 := by
  induction rects with
  | nil => simp [cellsOf]
  | cons r rects ih =>
    rw [cellsOf, List.foldr_cons, Finset.mem_union, mem_cells, ← cellsOf, ih, List.exists_mem_cons_iff]

/-- Rectangles that are apart have as many pixels together as one by one. -/
theorem card_cellsOf (h : rects.Pairwise Apart) : (cellsOf rects).card = (rects.map area).sum := by
  induction rects with
  | nil => rfl
  | cons r rects ih =>
    obtain ⟨hr, hrest⟩ := List.pairwise_cons.1 h
    have hdisjoint : Disjoint r.cells (cellsOf rects) := by
      refine Finset.disjoint_left.2 fun c hc hmem => ?_
      obtain ⟨r', hr', hc'⟩ := mem_cellsOf.1 hmem
      exact hr r' hr' c.1 c.2 (mem_cells.1 hc) hc'
    rw [cellsOf, List.foldr_cons, ← cellsOf, Finset.card_union_of_disjoint hdisjoint, card_cells, ih hrest,
      List.map_cons, List.sum_cons]

end Rect

namespace Plane
variable {a : Array Bool} {width height : Nat} {rects : List Rect}

theorem count_eq_natCount (l : List Bool) :
    l.count true = Nat.count (fun i => l.getD i false = true) l.length := by
  induction l with
  | nil => rfl
  | cons b l ih =>
    rw [List.length_cons, Nat.count_succ', List.count_cons, ih]
    simp

/-- The marked cells of a plane, as pairs of column and row. -/
def marked (a : Array Bool) (width height : Nat) : Finset (Nat × Nat) :=
  (Finset.range width ×ˢ Finset.range height).filter fun c => a.getD (c.2 * width + c.1) false = true

theorem mem_marked {c : Nat × Nat} : c ∈ marked a width height ↔
    (c.1 < width ∧ c.2 < height) ∧ a.getD (c.2 * width + c.1) false = true := by
  simp [marked]

/-- Counted by offset or by column and row, a plane has the same number of marked cells. -/
theorem card_marked (hs : a.size = width * height) : (marked a width height).card = a.count true := by
  have hcount : a.count true = ((Finset.range a.size).filter fun i => a.getD i false = true).card := by
    rw [← Nat.count_eq_card_filter_range, ← Array.count_toList, count_eq_natCount, Array.length_toList]
    simp only [Array.getD_eq_getD_getElem?, List.getD_eq_getElem?_getD, Array.getElem?_toList]
  rw [hcount]
  refine Finset.card_nbij' (fun c => c.2 * width + c.1) (fun i => (i % width, i / width)) ?_ ?_ ?_ ?_
  · intro c hc
    obtain ⟨⟨hx, hy⟩, hmarked⟩ := mem_marked.1 (Finset.mem_coe.1 hc)
    exact Finset.mem_coe.2 (Finset.mem_filter.2 ⟨Finset.mem_range.2 (hs ▸ cell_lt hx hy), hmarked⟩)
  · intro i hi
    obtain ⟨hlt, hmarked⟩ := Finset.mem_filter.1 (Finset.mem_coe.1 hi)
    rw [Finset.mem_range, hs] at hlt
    have hwidth : 0 < width := Nat.pos_of_mul_pos_right (Nat.zero_lt_of_lt hlt)
    refine Finset.mem_coe.2 (mem_marked.2 ⟨⟨Nat.mod_lt i hwidth, Nat.div_lt_of_lt_mul hlt⟩, ?_⟩)
    rwa [Nat.div_add_mod']
  · intro c hc
    obtain ⟨⟨hx, -⟩, -⟩ := mem_marked.1 (Finset.mem_coe.1 hc)
    exact Prod.ext (cell_mod hx c.2) (cell_div hx c.2)
  · intro i hi
    exact Nat.div_add_mod' i width

/-- **Double counting.** A plane that is marked on rectangles apart from each other, and nowhere else, has as
many marked cells as the rectangles have pixels. -/
theorem count_eq_sum_area (hs : a.size = width * height) (hfits : ∀ r ∈ rects, r.Fits width height)
    (hapart : rects.Pairwise Rect.Apart)
    (hmarked : ∀ px py, px < width → py < height →
      (a.getD (py * width + px) false = true ↔ ∃ r ∈ rects, r.HasPixel px py)) :
    a.count true = (rects.map Rect.area).sum := by
  rw [← card_marked hs, ← Rect.card_cellsOf hapart]
  congr 1
  ext c
  rw [mem_marked, Rect.mem_cellsOf]
  constructor
  · rintro ⟨⟨hx, hy⟩, hc⟩
    exact (hmarked c.1 c.2 hx hy).1 hc
  · rintro ⟨r, hr, hc⟩
    obtain ⟨hx, hy⟩ := (hfits r hr).lt hc
    exact ⟨⟨hx, hy⟩, (hmarked c.1 c.2 hx hy).2 ⟨r, hr, hc⟩⟩

end Plane
end TextureAtlas
