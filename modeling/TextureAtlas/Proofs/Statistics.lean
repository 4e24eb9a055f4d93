import Mathlib.Algebra.Order.BigOperators.Group.List
import Mathlib.Data.Bool.Count
import TextureAtlas.Proofs.Atlas
import TextureAtlas.Proofs.Cells

/-!
# What the statistics count

The areas of the placed fragments are summed name by name, the cells of the canvas are counted pixel by pixel, and
both give the same number (`stats_account_for_pixels`): placed fragments are apart, and every reserved cell is one of
theirs.
-/

namespace TextureAtlas

theorem Atlas.usedArea_stats (a : Atlas) : a.stats.usedArea = (a.placed.map (·.2.rect.area)).sum := by
  simp [stats, List.sum, Function.comp_def]

theorem Grid.count_false_add_usedCells (g : Grid) : g.occupied.count false + g.usedCells = g.width * g.height := by
  rw [usedCells, ← Array.count_toList, ← Array.count_toList, List.count_false_add_count_true, Array.length_toList,
    g.occupied_size]

namespace Sink
variable {s : Sink} {width height : Nat}

/-- Of the placed fragments, those that pass a test fill as many cells as a plane has marked, if it is marked on
them. -/
theorem Sound.count_eq_sum_area (h : s.Sound width height) {cells : Array Bool} (hsize : cells.size = width * height)
    (p : Fragment → Bool)
    (hcells : ∀ px py, px < width → py < height → (cells.getD (py * width + px) false = true ↔
      ∃ name f, s.Places name f ∧ p f = true ∧ f.rect.HasPixel px py)) :
    cells.count true = ((s.finish.placed.filter fun e => p e.2).map (·.2.rect.area)).sum := by
  have hrects : ((s.finish.placed.filter fun e => p e.2).map (·.2.rect)).Pairwise Rect.Apart :=
    List.pairwise_map.2 (h.pairwise_apart.filter _)
  rw [Plane.count_eq_sum_area hsize ?_ hrects ?_, List.map_map]
  · rfl
  · intro r hr
    obtain ⟨⟨name, f⟩, he, rfl⟩ := List.mem_map.1 hr
    exact h.inside (mem_placed_finish.1 (List.mem_filter.1 he).1)
  · intro px py hx hy
    rw [hcells px py hx hy]
    simp only [List.mem_map, List.mem_filter, Prod.exists, mem_placed_finish]
    constructor
    · rintro ⟨name, f, hf, hp, hin⟩
      exact ⟨_, ⟨name, f, ⟨hf, hp⟩, rfl⟩, hin⟩
    · rintro ⟨_, ⟨name, f, ⟨hf, hp⟩, rfl⟩, hin⟩
      exact ⟨name, f, hf, hp, hin⟩

/-- The reserved cells are as many as the placed fragments have pixels. -/
theorem Sound.usedCells_eq (h : s.Sound width height) :
    s.canvas.grid.usedCells = (s.finish.placed.map (·.2.rect.area)).sum := by
  have hsize : s.canvas.grid.occupied.size = width * height := by
    rw [s.canvas.grid.occupied_size, ← h.width_eq, ← h.height_eq]
    rfl
  rw [Grid.usedCells, h.count_eq_sum_area hsize fun _ => true]
  · rw [List.filter_true]
  · intro px py hx hy
    have hcell := h.occupied_iff px py
    simp only [Grid.isOccupied, show s.canvas.grid.width = width from h.width_eq,
      show s.canvas.grid.height = height from h.height_eq, hx, hy, decide_true, Bool.true_and] at hcell
    simpa only [true_and] using hcell

/-- The cells of team-colour paint are as many as the placed fragments of team-colour paint have pixels. -/
theorem Sound.count_logo_eq (h : s.Sound width height) :
    s.finish.logo.count true = ((s.finish.placed.filter (·.2.logo)).map (·.2.rect.area)).sum := by
  have hsize : s.finish.logo.size = width * height := by
    rw [s.finish.logo_size, ← h.width_eq, ← h.height_eq]
    rfl
  refine h.count_eq_sum_area hsize (·.logo) fun px py hx hy => ?_
  have hcell := h.logo_finish_iff hx hy
  simp only [placed?_finish] at hcell
  rwa [show s.finish.width = width from h.width_eq] at hcell

/-- **The statistics account for every pixel.** Of a finished atlas they count each placed fragment once, their used
area is the number of reserved cells and the wasted area that of free ones, and the team-colour mask has as many
cells as the fragments of team-colour paint have pixels. On a canvas with 32-bit sides no sum that is formed on the
way to the used area leaves 64 bits. -/
theorem stats_account_for_pixels (hs : s.Reachable) :
    (∀ name f, (name, f) ∈ s.finish.placed ↔ s.fragment? name = some f ∧ f.placed = true) ∧
    (s.finish.placed.map (·.1)).Nodup ∧
    s.finish.stats.numFragments = s.finish.placed.length ∧
    s.finish.stats.usedArea = s.canvas.grid.usedCells ∧
    s.finish.stats.totalArea = s.canvas.width * s.canvas.height ∧
    s.finish.stats.usedArea ≤ s.finish.stats.totalArea ∧
    s.finish.stats.wastedArea = s.canvas.grid.occupied.count false ∧
    s.finish.stats.usedArea + s.finish.stats.wastedArea = s.finish.stats.totalArea ∧
    s.finish.logo.count true = ((s.finish.placed.filter (·.2.logo)).map (·.2.rect.area)).sum ∧
    (s.canvas.width < UInt32.size → s.canvas.height < UInt32.size →
      s.finish.stats.totalArea < UInt64.size ∧
      ∀ n, ((s.finish.placed.take n).map (·.2.rect.area)).sum < UInt64.size) := by
  obtain ⟨width, height, hsound⟩ := hs.sound
  have hused : s.finish.stats.usedArea = s.canvas.grid.usedCells := by
    rw [Atlas.usedArea_stats, hsound.usedCells_eq]
  have htotal : s.finish.stats.totalArea = s.canvas.width * s.canvas.height := rfl
  have hcells : s.canvas.grid.occupied.count false + s.canvas.grid.usedCells = s.canvas.width * s.canvas.height :=
    s.canvas.grid.count_false_add_usedCells
  have hwasted : s.finish.stats.wastedArea = s.finish.stats.totalArea - s.finish.stats.usedArea := rfl
  refine ⟨fun name f => mem_placed_finish, s.finish.nodup_placed, by simp [Atlas.stats], hused, htotal, by omega,
    by omega, by omega, hsound.count_logo_eq, fun hw hh => ?_⟩
  have hfits : s.canvas.width * s.canvas.height < UInt64.size :=
    calc s.canvas.width * s.canvas.height ≤ (UInt32.size - 1) * (UInt32.size - 1) :=
          Nat.mul_le_mul (Nat.le_sub_one_of_lt hw) (Nat.le_sub_one_of_lt hh)
      _ < UInt64.size := by decide
  refine ⟨hfits, fun n => ?_⟩
  have hpart : ((s.finish.placed.take n).map (·.2.rect.area)).sum ≤ s.finish.stats.usedArea := by
    rw [Atlas.usedArea_stats]
    exact ((List.take_sublist n _).map _).sum_le_sum fun _ _ => Nat.zero_le _
  omega

/-- A crest of team-colour paint, a name that stays unplaced, and a swatch. -/
theorem stats_account_for_crest : ∃ start, blank? 4 3 = .ok start ∧
    (run { start with swatchSize := 2 } [.setLogo true, .beginEntity "crest", .beginFrame ⟨3, 1, 0⟩,
      .beginEntity "mast", .synthesize 7]).Reachable ∧
    (run { start with swatchSize := 2 } [.setLogo true, .beginEntity "crest", .beginFrame ⟨3, 1, 0⟩,
        .beginEntity "mast", .synthesize 7]).finish.stats.usedArea =
      (run { start with swatchSize := 2 } [.setLogo true, .beginEntity "crest", .beginFrame ⟨3, 1, 0⟩,
        .beginEntity "mast", .synthesize 7]).canvas.grid.usedCells ∧
    (run { start with swatchSize := 2 } [.setLogo true, .beginEntity "crest", .beginFrame ⟨3, 1, 0⟩,
      .beginEntity "mast", .synthesize 7]).finish.stats.totalArea < UInt64.size := by
  obtain ⟨start, hstart⟩ := exists_blank? (show 0 < 4 by decide) (show 0 < 3 by decide)
  have hreach : Reachable (run { start with swatchSize := 2 } [.setLogo true, .beginEntity "crest",
      .beginFrame ⟨3, 1, 0⟩, .beginEntity "mast", .synthesize 7]) := ⟨4, 3, 2, _, start, hstart, rfl⟩
  have hsound := (sound_of_blank? hstart 2).run [.setLogo true, .beginEntity "crest", .beginFrame ⟨3, 1, 0⟩,
    .beginEntity "mast", .synthesize 7]
  obtain ⟨-, -, -, hused, -, -, -, -, -, hfits⟩ := stats_account_for_pixels hreach
  exact ⟨start, hstart, hreach, hused,
    (hfits (hsound.width_eq.trans_lt (by decide)) (hsound.height_eq.trans_lt (by decide))).1⟩

end Sink
end TextureAtlas
