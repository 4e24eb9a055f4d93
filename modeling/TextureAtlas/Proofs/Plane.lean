import Mathlib.Logic.Basic
import TextureAtlas.Plane

/-!
# What a written plane holds

Cell `(px, py)` of a plane of `width` columns has index `py * width + px`. A run from `(x, y)` that
ends in its row meets exactly the cells of row `y` in columns `x, …, x + w - 1` (`mem_run_iff`), so a
filled block reads as its value on the cells of a rectangle and as before elsewhere
(`getD_fillBlock`), and a copied block reads as the source on the part of the rectangle that the
source covers (`getD_copyBlock`).
-/

namespace TextureAtlas.Plane
variable {α : Type}

/-! ## Cells of a row -/

/-- A run inside its row has no cell of another row. -/
theorem mem_run_iff {width x w px : Nat} (hpx : px < width) (hxw : x + w ≤ width) (y py : Nat) :
    (y * width + x ≤ py * width + px ∧ py * width + px < y * width + x + w) ↔
      py = y ∧ x ≤ px ∧ px < x + w := by
  constructor
  · rintro ⟨h1, h2⟩
    rcases Nat.lt_trichotomy py y with hlt | rfl | hgt
    · have := Nat.mul_le_mul_right width (show py + 1 ≤ y by omega)
      rw [Nat.add_mul] at this; omega
    · omega
    · have := Nat.mul_le_mul_right width (show y + 1 ≤ py by omega)
      rw [Nat.add_mul] at this; omega
  · rintro ⟨rfl, h1, h2⟩; omega

theorem cell_lt {width height px py : Nat} (hpx : px < width) (hpy : py < height) :
    py * width + px < width * height := by
  have := Nat.mul_le_mul_right width (show py + 1 ≤ height by omega)
  rw [Nat.add_mul, Nat.mul_comm height] at this; omega

theorem cell_mod {width px : Nat} (hpx : px < width) (py : Nat) : (py * width + px) % width = px :=
  Nat.mul_add_mod_of_lt hpx

theorem cell_div {width px : Nat} (hpx : px < width) (py : Nat) : (py * width + px) / width = py := by
  rw [Nat.mul_comm, Nat.mul_add_div (Nat.zero_lt_of_lt hpx), Nat.div_eq_of_lt hpx, Nat.add_zero]

/-! ## Runs -/

theorem getD_setIfInBounds (a : Array α) (i k : Nat) (v d : α) :
    (a.setIfInBounds i v).getD k d = if k = i ∧ k < a.size then v else a.getD k d := by
  simp only [Array.getD_eq_getD_getElem?, Array.getElem?_setIfInBounds]
  by_cases hik : i = k
  · subst hik
    by_cases hi : i < a.size <;> simp [hi]
  · simp [hik, Ne.symm hik]

theorem getD_replicate (n k : Nat) (v : α) : (Array.replicate n v).getD k v = v := by
  rw [Array.getD_eq_getD_getElem?, Array.getElem?_replicate]
  split <;> rfl

theorem getD_fillRun (a : Array α) (start : Nat) (v : α) (n k : Nat) (d : α) :
    (fillRun a start v n).getD k d =
      if start ≤ k ∧ k < start + n ∧ k < a.size then v else a.getD k d := by
  induction n generalizing a start with
  | zero => rw [if_neg (by omega)]; rfl
  | succ n ih =>
    rw [fillRun, ih, getD_setIfInBounds, Array.size_setIfInBounds]
    split
    · rw [if_pos (by omega)]
    · split
      · rw [if_pos (by omega)]
      · rw [if_neg (by omega)]

theorem getD_copyRun (a : Array UInt8) (start : Nat) (source : Array UInt8) (origin n k : Nat) (d : UInt8) :
    (copyRun a start source origin n).getD k d =
      if start ≤ k ∧ k < start + n ∧ k < a.size then source.getD (origin + (k - start)) 0
      else a.getD k d := by
  induction n generalizing a start origin with
  | zero => rw [if_neg (by omega)]; rfl
  | succ n ih =>
    rw [copyRun, ih, getD_setIfInBounds, Array.size_setIfInBounds]
    split
    · rw [if_pos (by omega), show origin + 1 + (k - (start + 1)) = origin + (k - start) by omega]
    · split
      · rename_i h
        rw [if_pos (by omega), h.1, Nat.sub_self, Nat.add_zero]
      · rw [if_neg (by omega)]

theorem anyInRun_iff {a : Array Bool} {start n : Nat} :
    anyInRun a start n = true ↔ ∃ i < n, a.getD (start + i) false = true := by
  induction n generalizing start with
  | zero => simp [anyInRun]
  | succ n ih =>
    rw [anyInRun, Bool.or_eq_true, ih]
    constructor
    · rintro (h | ⟨i, hi, h⟩)
      · exact ⟨0, by omega, h⟩
      · exact ⟨i + 1, by omega, by rwa [Nat.add_right_comm] at h⟩
    · rintro ⟨i, hi, h⟩
      cases i with
      | zero => exact .inl h
      | succ i => exact .inr ⟨i, by omega, by rwa [Nat.add_right_comm]⟩

/-! ## Blocks -/

/-- A filled block holds the value on its cells, and what was there on every other cell. -/
theorem getD_fillBlock (a : Array α) {width x w : Nat} (v : α) (y n : Nat) (hxw : x + w ≤ width)
    {px py : Nat} (hpx : px < width) (hp : py * width + px < a.size) (d : α) :
    (fillBlock a width x w v y n).getD (py * width + px) d =
      if x ≤ px ∧ px < x + w ∧ y ≤ py ∧ py < y + n then v else a.getD (py * width + px) d := by
  induction n generalizing a y with
  | zero => rw [if_neg (by omega)]; rfl
  | succ n ih =>
    have hrow := mem_run_iff hpx hxw y py
    rw [fillBlock, ih _ _ (by simpa using hp), getD_fillRun]
    split
    · rw [if_pos (by omega)]
    · split
      · rw [if_pos (by omega)]
      · rw [if_neg (by omega)]

/-- A copied block holds the source where the source reaches, and what was there on every other cell. -/
theorem getD_copyBlock (a : Array UInt8) {width x cols : Nat} (stride : Nat) (source : Array UInt8)
    (y row n : Nat) (hxw : x + cols ≤ width) {px py : Nat} (hpx : px < width)
    (hp : py * width + px < a.size) (d : UInt8) :
    (copyBlock a width x cols stride source y row n).getD (py * width + px) d =
      if x ≤ px ∧ px < x + cols ∧ y ≤ py ∧ py < y + n ∧
          (row + (py - y)) * stride + (px - x) < source.size then
        source.getD ((row + (py - y)) * stride + (px - x)) 0
      else a.getD (py * width + px) d := by
  induction n generalizing a y row with
  | zero => rw [if_neg (by omega)]; rfl
  | succ n ih =>
    have hrow := mem_run_iff (w := min cols (source.size - row * stride)) hpx
      (show x + _ ≤ width by omega) y py
    rw [copyBlock, ih _ _ _ (by simpa using hp), getD_copyRun]
    by_cases hy : py = y
    · -- The first row: the later ones leave it alone.
      subst hy
      rw [if_neg (by omega), show row + (py - py) = row by omega,
        show py * width + px - (py * width + x) = px - x by omega]
      exact if_congr (by omega) rfl rfl
    · rw [if_neg (c := y * width + x ≤ py * width + px ∧ _) (by omega)]
      by_cases hlt : y < py
      · rw [show row + 1 + (py - (y + 1)) = row + (py - y) by omega]
        exact if_congr (by omega) rfl rfl
      · rw [if_neg (by omega), if_neg (by omega)]

/-! ## Whole planes -/

/-- A plane is the listing of its cells, row by row. -/
theorem eq_ofFn {a : Array α} {width height : Nat} {f : Nat → Nat → α}
    (hs : a.size = width * height) (d : α)
    (hcell : ∀ px py, px < width → py < height → a.getD (py * width + px) d = f px py) :
    a = .ofFn fun i : Fin (width * height) => f (i % width) (i / width) := by
  refine Array.ext (by rw [hs, Array.size_ofFn]) fun i hi _ => ?_
  have hlt : i < width * height := hs ▸ hi
  have hwidth : 0 < width := Nat.pos_of_mul_pos_right (Nat.zero_lt_of_lt hlt)
  have hat := hcell (i % width) (i / width) (Nat.mod_lt i hwidth) (Nat.div_lt_of_lt_mul hlt)
  rw [Nat.div_add_mod', Array.getD_eq_getD_getElem?, Array.getElem?_eq_getElem hi, Option.getD_some] at hat
  rw [hat, Array.getElem_ofFn]

theorem getD_ofFn {width height px py : Nat} (hx : px < width) (hy : py < height) (d : α) (f : Nat → Nat → α) :
    (Array.ofFn fun i : Fin (width * height) => f (i % width) (i / width)).getD (py * width + px) d = f px py := by
  have hlt := cell_lt hx hy
  rw [Array.getD_eq_getD_getElem?, Array.getElem?_ofFn, dif_pos hlt, Option.getD_some, cell_mod hx, cell_div hx]

end TextureAtlas.Plane
