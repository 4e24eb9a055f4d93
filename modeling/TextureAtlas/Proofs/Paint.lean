import TextureAtlas.Proofs.Canvas

/-!
# Paint stays in bounds

The checked loops go row by row and give up where a row would leave its array. None ever does:
`Canvas.writeRows?` and `Canvas.paint?` give what the unchecked ones give, for every rectangle and however
many bytes there are. One value all over a rectangle is the same as a full set of rows of that value
(`Canvas.paint_eq_writeRows`), and what rows do pixel by pixel is `Canvas.writeRows_clips`. Filling is painting
as long as the lower edge of the rectangle has 32 bits (`Canvas.fill_eq_paint`).
-/

namespace TextureAtlas

namespace Plane
variable {α : Type} {a source : Array UInt8} {width x cols stride y row n : Nat}

/-! ## Checked runs and blocks -/

/-- `copyRun`, if both runs lie in their arrays. -/
def copyRun? (a : Array UInt8) (start : Nat) (source : Array UInt8) (origin n : Nat) : Option (Array UInt8) :=
  if start + n ≤ a.size ∧ origin + n ≤ source.size then some (copyRun a start source origin n) else none

/-- `copyBlock` by checked runs. It ends with the first row of which `source` has nothing. -/
def copyBlock? (a : Array UInt8) (width x cols stride : Nat) (source : Array UInt8) (y row : Nat) :
    Nat → Option (Array UInt8)
  | 0 => some a
  | n + 1 =>
    let origin := row * stride
    if source.size ≤ origin then some a
    else
      (copyRun? a (y * width + x) source origin (min cols (source.size - origin))).bind fun a =>
        copyBlock? a width x cols stride source (y + 1) (row + 1) n

/-- `fillRun`, if the run lies in the array. -/
def fillRun? (a : Array α) (start : Nat) (v : α) (n : Nat) : Option (Array α) :=
  if start + n ≤ a.size then some (fillRun a start v n) else none

/-- `fillBlock` by checked runs. -/
def fillBlock? (a : Array α) (width x w : Nat) (v : α) (y : Nat) : Nat → Option (Array α)
  | 0 => some a
  | n + 1 =>
    (fillRun? a (y * width + x) v w).bind fun a => fillBlock? a width x w v (y + 1) n

/-- A run inside its row lies in every array that has the row. -/
theorem run_le {w size : Nat} (hxw : x + w ≤ width) (hy : (y + 1) * width ≤ size) :
    y * width + x + w ≤ size := by
  rw [Nat.add_mul, Nat.one_mul] at hy
  omega

/-- Rows below the last byte change nothing. -/
theorem copyBlock_exhausted (h : source.size ≤ row * stride) :
    copyBlock a width x cols stride source y row n = a := by
  induction n generalizing y row with
  | zero => rfl
  | succ n ih =>
    have hnext : source.size ≤ (row + 1) * stride := Nat.le_trans h (Nat.mul_le_mul_right stride (Nat.le_succ row))
    rw [copyBlock, Nat.sub_eq_zero_of_le h, Nat.min_zero]
    exact ih hnext

theorem copyBlock?_eq_some (hxw : x + cols ≤ width) (hrows : ∀ i < n, (y + i + 1) * width ≤ a.size) :
    copyBlock? a width x cols stride source y row n = some (copyBlock a width x cols stride source y row n) := by
  induction n generalizing a y row with
  | zero => rfl
  | succ n ih =>
    simp only [copyBlock?]
    split
    · -- The unchecked loop goes on, but copies empty rows.
      rename_i hshort
      rw [copyBlock_exhausted hshort]
    · rename_i hbytes
      have hrun : y * width + x + min cols (source.size - row * stride) ≤ a.size :=
        run_le (by omega) (hrows 0 (Nat.succ_pos n))
      rw [copyRun?, if_pos ⟨hrun, by omega⟩, Option.bind_some, copyBlock]
      refine ih fun i hi => ?_
      rw [size_copyRun, Nat.add_right_comm y]
      exact hrows (i + 1) (Nat.succ_lt_succ hi)

theorem fillBlock?_eq_some {a : Array α} {v : α} {w : Nat} (hxw : x + w ≤ width)
    (hrows : ∀ i < n, (y + i + 1) * width ≤ a.size) :
    fillBlock? a width x w v y n = some (fillBlock a width x w v y n) := by
  induction n generalizing a y with
  | zero => rfl
  | succ n ih =>
    have hrun : y * width + x + w ≤ a.size := run_le hxw (hrows 0 (Nat.succ_pos n))
    rw [fillBlock?, fillRun?, if_pos hrun, Option.bind_some, fillBlock]
    refine ih fun i hi => ?_
    rw [size_fillRun, Nat.add_right_comm y]
    exact hrows (i + 1) (Nat.succ_lt_succ hi)

end Plane

namespace Canvas

/-! ## Checked paint -/

/-- The pixels after `writeRows`, if no access leaves the canvas or `pixels`. -/
def writeRows? (c : Canvas) (r : Rect) (pixels : Array UInt8) : Option (Array UInt8) :=
  if r.x < c.width then
    Plane.copyBlock? c.indices c.width r.x (min r.w (c.width - r.x)) r.w pixels r.y 0 (min r.h (c.height - r.y))
  else some c.indices

/-- The pixels after `paint`, if no access leaves the canvas. -/
def paint? (c : Canvas) (r : Rect) (value : UInt8) : Option (Array UInt8) :=
  if r.x < c.width then
    Plane.fillBlock? c.indices c.width r.x (min r.w (c.width - r.x)) value r.y (min r.h (c.height - r.y))
  else some c.indices

/-- The canvas has the rows of a rectangle that are above its lower edge. -/
theorem row_le (c : Canvas) (r : Rect) {i : Nat} (hi : i < min r.h (c.height - r.y)) :
    (r.y + i + 1) * c.width ≤ c.indices.size := by
  rw [c.indices_size, Nat.mul_comm c.grid.width]
  exact Nat.mul_le_mul_right c.width (by show _ ≤ c.height; omega)

theorem writeRows?_eq_some (c : Canvas) (r : Rect) (pixels : Array UInt8) :
    c.writeRows? r pixels = some (c.writeRows r pixels).indices := by
  by_cases hx : r.x < c.width
  · rw [writeRows?, if_pos hx, Plane.copyBlock?_eq_some (by omega) fun _ => c.row_le r]
    obtain ⟨indices, grid, hs⟩ := c
    simp only [writeRows, if_pos (show r.x < grid.width from hx)]
    rfl
  · rw [writeRows?, if_neg hx, writeRows_right hx]

theorem paint?_eq_some (c : Canvas) (r : Rect) (v : UInt8) : c.paint? r v = some (c.paint r v).indices := by
  by_cases hx : r.x < c.width
  · rw [paint?, if_pos hx, Plane.fillBlock?_eq_some (by omega) fun _ => c.row_le r]
    obtain ⟨indices, grid, hs⟩ := c
    simp only [paint, if_pos (show r.x < grid.width from hx)]
    rfl
  · rw [paint?, if_neg hx, paint_right hx]

/-! ## One value -/

/-- A canvas is its reservations and its pixels. -/
theorem ext_pixel {c d : Canvas} (hgrid : c.grid = d.grid) (hpixel : ∀ px py, c.pixel px py = d.pixel px py) :
    c = d := by
  have hlisted (e : Canvas) := Plane.eq_ofFn e.indices_size 0 fun px py hx hy => (pixel_eq ⟨hx, hy⟩).symm
  have hindices : c.indices = d.indices := by
    rw [hlisted c, hlisted d, hgrid]
    simp only [hpixel]
  cases c
  cases d
  simp_all

/-- Each pixel of a rectangle has its byte in a full set of rows. -/
theorem byte_lt {r : Rect} {px py : Nat} (h : r.HasPixel px py) : (py - r.y) * r.w + (px - r.x) < r.w * r.h := by
  simp only [Rect.HasPixel] at h
  exact Plane.cell_lt (by omega) (by omega)

/-- Painting is writing rows that hold nothing but the value. -/
theorem paint_eq_writeRows (c : Canvas) (r : Rect) (v : UInt8) :
    c.paint r v = c.writeRows r (.replicate (r.w * r.h) v) := by
  refine ext_pixel (by rw [grid_paint, grid_writeRows]) fun px py => ?_
  rw [pixel_paint, pixel_writeRows, Array.size_replicate]
  by_cases hp : r.HasPixel px py
  · have hbyte := byte_lt hp
    simp only [hp, hbyte, and_true, Array.getD_eq_getD_getElem?, Array.getElem?_replicate, if_true, Option.getD_some]
  · simp only [hp, false_and, and_false, if_false]

theorem fill_eq_paint {c : Canvas} {r : Rect} (h : r.y + r.h < UInt32.size) (v : UInt8) :
    c.fill r v = (.ok (), c.paint r v) :=
  if_neg fun hover => Nat.not_le.2 h hover.2.1

/-- **Rows are clipped on three sides.** Wherever the rectangle lies and however many bytes there are, writing
rows stays inside the canvas and the bytes. It gives each pixel of the rectangle that is on the canvas its byte,
row after row, as far as the bytes go, and leaves every other pixel and all reservations alone. Painting with a
value stays inside the canvas, too, and does what rows of that value do. Filling does the same as long as the
lower edge of the rectangle has 32 bits. -/
theorem writeRows_clips (c : Canvas) (r : Rect) (pixels : Array UInt8) :
    c.writeRows? r pixels = some (c.writeRows r pixels).indices ∧
    (∀ px py, (c.writeRows r pixels).pixel px py =
      if (px < c.width ∧ py < c.height) ∧ r.HasPixel px py ∧
          (py - r.y) * r.w + (px - r.x) < pixels.size then
        pixels.getD ((py - r.y) * r.w + (px - r.x)) 0
      else c.pixel px py) ∧
    (c.writeRows r pixels).grid = c.grid ∧
    ∀ value, c.paint? r value = some (c.paint r value).indices ∧
      c.paint r value = c.writeRows r (.replicate (r.w * r.h) value) ∧
      (r.y + r.h < UInt32.size → c.fill r value = (.ok (), c.writeRows r (.replicate (r.w * r.h) value))) := by
  refine ⟨writeRows?_eq_some c r pixels, pixel_writeRows c r pixels, grid_writeRows c r pixels, fun value => ?_⟩
  refine ⟨paint?_eq_some c r value, paint_eq_writeRows c r value, fun h => ?_⟩
  rw [fill_eq_paint h, paint_eq_writeRows]

/-- A square of three by three that begins two pixels before the lower right corner of a canvas of four by
four. -/
theorem writeRows_clips_at_corner : ∃ c, blank? 4 4 = .ok c ∧ 2 + 3 < UInt32.size ∧
    c.fill ⟨2, 2, 3, 3⟩ 7 = (.ok (), c.writeRows ⟨2, 2, 3, 3⟩ (.replicate (3 * 3) 7)) := by
  obtain ⟨c, hc, -⟩ := blank?_eq (show 0 < 4 by decide) (show 0 < 4 by decide)
  obtain ⟨-, -, -, hvalue⟩ := writeRows_clips c ⟨2, 2, 3, 3⟩ #[]
  exact ⟨c, hc, by decide, (hvalue 7).2.2 (by decide)⟩

/-- Four bytes for a square of three by three that begins two pixels before the lower right corner. -/
example : (blank? 4 4).map (fun c => (c.writeRows ⟨2, 2, 3, 3⟩ #[1, 2, 3, 4]).indices) =
    .ok #[0, 0, 0, 0, 0, 0, 0, 0, 0, 0, 1, 2, 0, 0, 4, 0] := rfl

end Canvas
end TextureAtlas
