import TextureAtlas.Canvas
import TextureAtlas.Proofs.FirstFit

/-!
# Reserving and painting

Placing reserves the first fit or leaves the canvas alone (`Canvas.place_eq`). Painting rows or one
value changes pixels of the rectangle only, and of those the ones on the canvas for which there is a
byte (`Canvas.pixel_writeRows`, `Canvas.pixel_paint`).
-/

namespace TextureAtlas.Canvas

/-! ## Reservations -/

/-- The canvas with the cells of `r` reserved. -/
def reserve (c : Canvas) (r : Rect) (isLogo : Bool) : Canvas :=
  ⟨c.indices, c.grid.mark r isLogo, c.indices_size⟩

@[simp] theorem grid_reserve (c : Canvas) (r : Rect) (b : Bool) : (c.reserve r b).grid = c.grid.mark r b := rfl

@[simp] theorem pixel_reserve (c : Canvas) (r : Rect) (b : Bool) (px py : Nat) :
    (c.reserve r b).pixel px py = c.pixel px py := rfl

/-- Placing reserves the first fit; without one it reports so and changes nothing. -/
theorem place_eq (c : Canvas) (w h : Nat) (b : Bool) :
    c.place w h b = match c.grid.find w h with
      | .ok r => (.ok r, c.reserve r b)
      | .error e => (.error (e.reported c.width c.height w h), c) := by
  obtain ⟨indices, grid, hs⟩ := c
  split
  · rename_i r hr
    simp only [place, Grid.pack, show grid.find w h = .ok r from hr]
    rfl
  · rename_i e hr
    simp only [place, Grid.pack, show grid.find w h = .error e from hr]
    rfl

theorem pixel_eq {c : Canvas} {px py : Nat} (h : px < c.width ∧ py < c.height) :
    c.pixel px py = c.indices.getD (py * c.width + px) 0 := if_pos h

theorem pixel_outside {c : Canvas} {px py : Nat} (h : ¬ (px < c.width ∧ py < c.height)) :
    c.pixel px py = 0 := if_neg h

@[simp] theorem grid_writeRows (c : Canvas) (r : Rect) (pixels : Array UInt8) :
    (c.writeRows r pixels).grid = c.grid := by
  obtain ⟨indices, grid, hs⟩ := c
  simp only [writeRows]
  split <;> rfl

@[simp] theorem grid_paint (c : Canvas) (r : Rect) (v : UInt8) : (c.paint r v).grid = c.grid := by
  obtain ⟨indices, grid, hs⟩ := c
  simp only [paint]
  split <;> rfl

@[simp] theorem width_writeRows (c : Canvas) (r : Rect) (pixels : Array UInt8) :
    (c.writeRows r pixels).width = c.width := congrArg Grid.width (grid_writeRows c r pixels)

@[simp] theorem height_writeRows (c : Canvas) (r : Rect) (pixels : Array UInt8) :
    (c.writeRows r pixels).height = c.height := congrArg Grid.height (grid_writeRows c r pixels)

@[simp] theorem width_paint (c : Canvas) (r : Rect) (v : UInt8) : (c.paint r v).width = c.width :=
  congrArg Grid.width (grid_paint c r v)

@[simp] theorem height_paint (c : Canvas) (r : Rect) (v : UInt8) : (c.paint r v).height = c.height :=
  congrArg Grid.height (grid_paint c r v)

theorem writeRows_right {c : Canvas} {r : Rect} (h : ¬ r.x < c.width) (pixels : Array UInt8) :
    c.writeRows r pixels = c := by
  obtain ⟨indices, grid, hs⟩ := c
  exact if_neg h

theorem paint_right {c : Canvas} {r : Rect} (h : ¬ r.x < c.width) (v : UInt8) : c.paint r v = c := by
  obtain ⟨indices, grid, hs⟩ := c
  exact if_neg h

/-- Rows go to the pixels of the rectangle that are on the canvas and have a byte of their own. -/
theorem pixel_writeRows (c : Canvas) (r : Rect) (pixels : Array UInt8) (px py : Nat) :
    (c.writeRows r pixels).pixel px py =
      if (px < c.width ∧ py < c.height) ∧ r.HasPixel px py ∧
          (py - r.y) * r.w + (px - r.x) < pixels.size then
        pixels.getD ((py - r.y) * r.w + (px - r.x)) 0
      else c.pixel px py := by
  by_cases hp : px < c.width ∧ py < c.height
  · by_cases hx : r.x < c.width
    · rw [pixel_eq (by simpa using hp), pixel_eq hp, width_writeRows]
      obtain ⟨indices, grid, hs⟩ := c
      simp only [width, height] at hp hx ⊢
      have hcell := Plane.getD_copyBlock indices r.w pixels r.y 0 (min r.h (grid.height - r.y))
        (show r.x + min r.w (grid.width - r.x) ≤ grid.width by omega) hp.1
        (by rw [hs]; exact Plane.cell_lt hp.1 hp.2) 0
      simp only [writeRows, if_pos hx, hcell, Nat.zero_add, Rect.HasPixel]
      exact if_congr (by omega) rfl rfl
    · rw [writeRows_right hx, if_neg (by simp only [Rect.HasPixel]; omega)]
  · rw [pixel_outside (by simpa using hp), pixel_outside hp, if_neg fun h => hp h.1]

theorem pixel_paint (c : Canvas) (r : Rect) (v : UInt8) (px py : Nat) :
    (c.paint r v).pixel px py =
      if (px < c.width ∧ py < c.height) ∧ r.HasPixel px py then v else c.pixel px py := by
  by_cases hp : px < c.width ∧ py < c.height
  · by_cases hx : r.x < c.width
    · rw [pixel_eq (by simpa using hp), pixel_eq hp, width_paint]
      obtain ⟨indices, grid, hs⟩ := c
      simp only [width, height] at hp hx ⊢
      have hcell := Plane.getD_fillBlock indices v r.y (min r.h (grid.height - r.y))
        (show r.x + min r.w (grid.width - r.x) ≤ grid.width by omega) hp.1
        (by rw [hs]; exact Plane.cell_lt hp.1 hp.2) 0
      simp only [paint, if_pos hx, hcell, Rect.HasPixel]
      exact if_congr (by omega) rfl rfl
    · rw [paint_right hx, if_neg (by simp only [Rect.HasPixel]; omega)]
  · rw [pixel_outside (by simpa using hp), pixel_outside hp, if_neg fun h => hp h.1]

/-- Pixels outside the rectangle keep their value under paint. -/
theorem pixel_writeRows_of_not {c : Canvas} {r : Rect} {pixels : Array UInt8} {px py : Nat}
    (h : ¬ r.HasPixel px py) : (c.writeRows r pixels).pixel px py = c.pixel px py := by
  rw [pixel_writeRows, if_neg fun hp => h hp.2.1]

theorem pixel_paint_of_not {c : Canvas} {r : Rect} {v : UInt8} {px py : Nat} (h : ¬ r.HasPixel px py) :
    (c.paint r v).pixel px py = c.pixel px py := by
  rw [pixel_paint, if_neg fun hp => h hp.2]

/-- On a block of zeros, bytes that are missing count as 0. -/
theorem pixel_writeRows_blank {c : Canvas} {r : Rect} (hr : r.Fits c.width c.height)
    (hblank : ∀ px py, r.HasPixel px py → c.pixel px py = 0) (pixels : Array UInt8) (px py : Nat) :
    (c.writeRows r pixels).pixel px py =
      if r.HasPixel px py then pixels.getD ((py - r.y) * r.w + (px - r.x)) 0 else c.pixel px py := by
  rw [pixel_writeRows]
  by_cases hp : r.HasPixel px py
  · rw [if_pos hp]
    split
    · rfl
    · rename_i hshort
      rw [hblank px py hp, Array.getD_eq_getD_getElem?, Array.getElem?_eq_none, Option.getD_none]
      exact Nat.not_lt.1 fun hlt => hshort ⟨hr.lt hp, hp, hlt⟩
  · rw [if_neg hp, if_neg fun h => hp h.2.1]

/-- Inside a rectangle that was found, filling stops nowhere. -/
theorem fill_of_found {c : Canvas} {w h : Nat} {r : Rect} (hr : c.grid.find w h = .ok r) (b : Bool) (v : UInt8) :
    (c.reserve r b).fill r v = (.ok (), (c.reserve r b).paint r v) :=
  if_neg fun hover => Grid.not_overflows_of_find hr hover.2

/-! ## The blank canvas -/

theorem blank?_eq {width height : Nat} (hw : 0 < width) (hh : 0 < height) :
    ∃ c, blank? width height = .ok c ∧ c.grid = .empty width height ∧ ∀ px py, c.pixel px py = 0 := by
  refine ⟨_, if_neg (by omega), rfl, fun px py => ?_⟩
  simp only [pixel, Plane.getD_replicate, ite_self]

end TextureAtlas.Canvas
