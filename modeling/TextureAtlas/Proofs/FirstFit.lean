import TextureAtlas.Grid
import TextureAtlas.Proofs.Plane
import TextureAtlas.Proofs.Rect

/-!
# First fit

`IsFirstFit` says which rectangle a first-fit search has to give: a free one inside the grid of which
no earlier origin is free, origins taken column by column and each column from the top. The plain scan
over all origins gives it (`scanOrigins_eq_some_iff`), and so does the search that jumps below
collisions (`Grid.find_firstFit`), so the two agree (`Grid.find_eq_scanOrigins`) wherever the sums of the
search stay within 32 bits (`SumsFit`). Beyond that the search may stop, but it gives no other rectangle, and
that it finds no room is true (`Grid.find_full`). Reserving a rectangle changes exactly its own cells
(`Grid.isOccupied_mark`, `Grid.isLogo_mark`). Together they say what a reservation answers and does
(`Grid.pack_takes_first_fit`).
-/

namespace TextureAtlas

/-- The free rectangle of its size whose origin comes first. -/
structure IsFirstFit (free : Rect → Prop) (width height : Nat) (r : Rect) : Prop where
  fits : r.Fits width height
  vacant : free r
  first : ∀ x y, x < r.x ∨ x = r.x ∧ y < r.y → Rect.Fits ⟨x, y, r.w, r.h⟩ width height →
    ¬ free ⟨x, y, r.w, r.h⟩

theorem IsFirstFit.congr {free free' : Rect → Prop} {width height : Nat} {r : Rect}
    (h : ∀ r, r.Fits width height → (free r ↔ free' r)) (hr : IsFirstFit free width height r) :
    IsFirstFit free' width height r where
  fits := hr.fits
  vacant := (h r hr.fits).1 hr.vacant
  first x y hlt hfits hfree := hr.first x y hlt hfits ((h _ hfits).2 hfree)

/-! ## The plain scan -/

/-- Tries every origin, column by column and downwards in each. -/
def scanOrigins (free : Rect → Bool) (width height w h : Nat) : Option Rect :=
  (List.range (width + 1 - w)).findSome? fun x =>
    (List.range (height + 1 - h)).findSome? fun y =>
      if free ⟨x, y, w, h⟩ then some ⟨x, y, w, h⟩ else none

theorem findSome?_range_eq_some {α : Type} {f : Nat → Option α} {n : Nat} {a : α} :
    (List.range n).findSome? f = some a ↔ ∃ i < n, f i = some a ∧ ∀ j < i, f j = none := by
  induction n with
  | zero => simp
  | succ n ih =>
    rw [List.range_succ, List.findSome?_append, Option.or_eq_some_iff, ih, List.findSome?_eq_none_iff]
    simp only [List.mem_range, List.findSome?_singleton]
    constructor
    · rintro (⟨i, hi, h⟩ | ⟨hnone, h⟩)
      · exact ⟨i, by omega, h⟩
      · exact ⟨n, by omega, h, hnone⟩
    · rintro ⟨i, hi, h, hnone⟩
      rcases Nat.lt_or_ge i n with hlt | hge
      · exact .inl ⟨i, hlt, h, hnone⟩
      · obtain rfl : i = n := by omega
        exact .inr ⟨hnone, h⟩

theorem scanOrigins_eq_some_iff {free : Rect → Bool} {width height w h : Nat} {r : Rect} :
    scanOrigins free width height w h = some r ↔
      r.w = w ∧ r.h = h ∧ IsFirstFit (free · = true) width height r := by
  simp only [scanOrigins, findSome?_range_eq_some, List.findSome?_eq_none_iff, List.mem_range]
  constructor
  · rintro ⟨x, hx, ⟨y, hy, hr, habove⟩, hleft⟩
    split at hr
    · rename_i hfree
      cases hr
      refine ⟨rfl, rfl, ⟨by simp only [Rect.Fits]; omega, hfree, ?_⟩⟩
      rintro x' y' (hlt | ⟨rfl, hlt⟩) ⟨hfx, hfy⟩ hfree'
      · have := hleft x' hlt y' (by simp only at hfy; omega)
        simp [hfree'] at this
      · have := habove y' hlt
        simp [hfree'] at this
    · cases hr
  · rintro ⟨rfl, rfl, hfits, hfree, hfirst⟩
    obtain ⟨x, y, w, h⟩ := r
    simp only [Rect.Fits] at hfits hfirst
    refine ⟨x, by simp only; omega, ⟨y, by simp only; omega, if_pos hfree, fun y' hy' => ?_⟩, fun x' hx' y' hy' => ?_⟩
    · exact if_neg (hfirst x y' (.inr ⟨rfl, hy'⟩) (by omega))
    · simp only at hy'
      exact if_neg (hfirst x' y' (.inl hx') (by omega))

theorem scanOrigins_eq_none_iff {free : Rect → Bool} {width height w h : Nat} :
    scanOrigins free width height w h = none ↔
      ∀ x y, Rect.Fits ⟨x, y, w, h⟩ width height → free ⟨x, y, w, h⟩ = false := by
  simp only [scanOrigins, List.findSome?_eq_none_iff, List.mem_range, Rect.Fits]
  constructor
  · intro hnone x y hfits
    have := hnone x (by omega) y (by omega)
    simpa using this
  · intro hnone x hx y hy
    simp [hnone x y (by omega)]

/-- The scan sees the test only on rectangles inside the canvas. -/
theorem scanOrigins_congr {free free' : Rect → Bool} {width height w h : Nat}
    (hf : ∀ r, r.Fits width height → free r = free' r) :
    scanOrigins free width height w h = scanOrigins free' width height w h := by
  apply Option.ext
  intro r
  rw [scanOrigins_eq_some_iff, scanOrigins_eq_some_iff]
  refine and_congr_right fun _ => and_congr_right fun _ => ⟨.congr ?_, .congr ?_⟩
  · exact fun r hr => by rw [hf r hr]
  · exact fun r hr => by rw [hf r hr]

namespace Grid
variable {g : Grid} {x y w h : Nat}

/-! ## The search that jumps -/

/-- No cell of the rectangle is reserved. -/
def Free (g : Grid) (r : Rect) : Prop := ∀ px py, r.HasPixel px py → g.isOccupied px py = false

theorem isFree_iff {r : Rect} : g.isFree r = true ↔ g.Free r := by
  simp only [isFree, Free, Rect.HasPixel, List.all_eq_true, List.mem_range, Bool.not_eq_true']
  constructor
  · rintro hfree px py ⟨hx, hx', hy, hy'⟩
    have := hfree (py - r.y) (by omega) (px - r.x) (by omega)
    rwa [Nat.add_sub_cancel' hx, Nat.add_sub_cancel' hy] at this
  · intro hfree j hj i hi
    exact hfree _ _ (by omega)

theorem anyInRun_occupied {row : Nat} (hx : x + w ≤ g.width) (hrow : row < g.height) :
    Plane.anyInRun g.occupied (row * g.width + x) w = true ↔
      ∃ px, x ≤ px ∧ px < x + w ∧ g.isOccupied px row = true := by
  simp only [Plane.anyInRun_iff, isOccupied, Bool.and_eq_true, decide_eq_true_eq]
  constructor
  · rintro ⟨i, hi, hocc⟩
    exact ⟨x + i, by omega, by omega, ⟨by omega, hrow⟩, by rwa [← Nat.add_assoc]⟩
  · rintro ⟨px, h1, h2, -, hocc⟩
    exact ⟨px - x, by omega, by rwa [Nat.add_assoc, Nat.add_sub_cancel' h1]⟩

theorem free_of_lowestCollision (hx : x + w ≤ g.width) (hy : y + h ≤ g.height)
    (hc : g.lowestCollision x y w h = none) : g.Free ⟨x, y, w, h⟩ := by
  induction h with
  | zero => intro px py hp; simp only [Rect.HasPixel] at hp; omega
  | succ h ih =>
    simp only [lowestCollision] at hc
    split at hc
    · cases hc
    · rename_i hrow
      intro px py hp
      by_cases hlast : py = y + h
      · subst hlast
        simp only [Rect.HasPixel] at hp
        rw [anyInRun_occupied hx (by omega)] at hrow
        exact Bool.eq_false_iff.2 fun hocc => hrow ⟨px, by omega, by omega, hocc⟩
      · simp only [Rect.HasPixel] at hp
        exact ih (by omega) hc px py (by simp only [Rect.HasPixel]; omega)

theorem exists_of_lowestCollision {row : Nat} (hx : x + w ≤ g.width) (hy : y + h ≤ g.height)
    (hc : g.lowestCollision x y w h = some row) :
    row < y + h ∧ ∃ px, x ≤ px ∧ px < x + w ∧ g.isOccupied px row = true := by
  induction h with
  | zero => simp [lowestCollision] at hc
  | succ h ih =>
    simp only [lowestCollision] at hc
    split at hc
    · rename_i hrow
      cases hc
      exact ⟨by omega, (anyInRun_occupied hx (by omega)).1 hrow⟩
    · have := ih (by omega) hc
      exact ⟨by omega, this.2⟩

/-- A collision in `row` blocks every origin of the column from which the rectangle reaches `row`. -/
theorem not_free_of_lowestCollision {row z : Nat} (hx : x + w ≤ g.width) (hy : y + h ≤ g.height)
    (hc : g.lowestCollision x y w h = some row) (hz : y ≤ z) (hzr : z ≤ row) : ¬ g.Free ⟨x, z, w, h⟩ := by
  obtain ⟨hlt, px, h1, h2, hocc⟩ := exists_of_lowestCollision hx hy hc
  intro hfree
  rw [hfree px row ⟨h1, h2, hzr, by simp only; omega⟩] at hocc
  cases hocc

/-! ## Sums within 32 bits -/

/-- Canvas sizes at which no sum of the search can leave 32 bits: it adds up at most `width + 1` in a row, and
in a column at most the height twice. -/
def SumsFit (width height : Nat) : Prop :=
  width + 1 < UInt32.size ∧ 2 * height < UInt32.size ∨ addressable ≤ width * height

instance (width height : Nat) : Decidable (SumsFit width height) := by
  unfold SumsFit; infer_instance

/-- Sizes at which a sum in a column can leave 32 bits: at least `2 ^ 31` rows, and all widths that have more than
32 bits themselves. -/
def Tall (g : Grid) : Prop := UInt32.size ≤ 2 * g.height ∨ UInt32.size ≤ g.width

/-- What the size of a grid says about a sum that leaves 32 bits. -/
def Stops (g : Grid) (bound : Nat) : Prop := UInt32.size ≤ bound ∧ g.width * g.height < addressable

theorem Overflows.stops {a b bound : Nat} (h : g.Overflows a b) (hle : a + b ≤ bound) : g.Stops bound :=
  ⟨Nat.le_trans h.1 hle, h.2⟩

theorem SumsFit.not_stops (hfit : SumsFit g.width g.height) :
    ¬ g.Stops (g.width + 1) ∧ ¬ g.Stops (2 * g.height) := by
  simp only [SumsFit, Stops] at *
  omega

/-! ## What the search gives -/

/-- Outcome of the search in one column: the topmost free origin from row `y` on, or that there is none. -/
def ColumnSpec (g : Grid) (x w h y : Nat) : Except Refusal Nat → Prop
  | .ok y' => y ≤ y' ∧ y' + h ≤ g.height ∧ ¬ g.Overflows y' h ∧ g.Free ⟨x, y', w, h⟩ ∧
      ∀ z, y ≤ z → z < y' → ¬ g.Free ⟨x, z, w, h⟩
  | .error .full => ∀ z, y ≤ z → z + h ≤ g.height → ¬ g.Free ⟨x, z, w, h⟩
  | .error .overflow => g.Stops (2 * g.height)

/-- Rows `y … row` are blocked by a collision in `row`, so that the search may go on below it. -/
theorem ColumnSpec.below {row : Nat} {res : Except Refusal Nat} (hyr : y ≤ row)
    (hblocked : ∀ z, y ≤ z → z ≤ row → ¬ g.Free ⟨x, z, w, h⟩) (hres : g.ColumnSpec x w h (row + 1) res) :
    g.ColumnSpec x w h y res := by
  cases res with
  | ok y' =>
    obtain ⟨h1, h2, h3, h4, h5⟩ := hres
    refine ⟨by omega, h2, h3, h4, fun z hz hzy => ?_⟩
    rcases Nat.lt_or_ge row z with hgt | hle
    · exact h5 z hgt hzy
    · exact hblocked z hz hle
  | error e =>
    cases e with
    | full =>
      intro z hz hzh
      rcases Nat.lt_or_ge row z with hgt | hle
      · exact hres z hgt hzh
      · exact hblocked z hz hle
    | overflow => exact hres

theorem findInColumn_spec (hx : x + w ≤ g.width) (hh : h ≤ g.height) (hy : y ≤ g.height) :
    g.ColumnSpec x w h y (g.findInColumn x w h y) := by
  fun_induction findInColumn g x w h y with
  | case1 y hover => exact hover.stops (by omega)
  | case2 y hover hyh hc =>
    exact ⟨Nat.le_refl y, hyh, hover, free_of_lowestCollision hx hyh hc, fun z h1 h2 => by omega⟩
  | case3 y hover hyh row hc hrow ih =>
    have hlt := (exists_of_lowestCollision hx hyh hc).1
    exact (ih (by omega)).below hrow fun z h1 h2 => not_free_of_lowestCollision hx hyh hc h1 h2
  | case4 y hover hyh => intro z h1 h2; omega

/-- Outcome of the search from column `x` on: the first free origin, or that there is none. For the latter the
search adds up `width + 1`. Unless the grid is tall, it can stop only there, where there is no free origin,
either. -/
def SearchSpec (g : Grid) (w h x : Nat) : Except Refusal Rect → Prop
  | .ok r => r.w = w ∧ r.h = h ∧ r.Fits g.width g.height ∧ ¬ g.Overflows r.y r.h ∧ g.Free r ∧ x ≤ r.x ∧
      ∀ x' y', x ≤ x' → (x' < r.x ∨ x' = r.x ∧ y' < r.y) → y' + h ≤ g.height → ¬ g.Free ⟨x', y', w, h⟩
  | .error .full => ¬ g.Stops (g.width + 1) ∧
      ∀ x' y', x ≤ x' → Rect.Fits ⟨x', y', w, h⟩ g.width g.height → ¬ g.Free ⟨x', y', w, h⟩
  | .error .overflow => ¬ SumsFit g.width g.height ∧ (g.Tall ∨ g.Stops (g.width + 1) ∧
      ∀ x' y', x ≤ x' → Rect.Fits ⟨x', y', w, h⟩ g.width g.height → ¬ g.Free ⟨x', y', w, h⟩)

/-- A column without a free origin is left behind. -/
theorem SearchSpec.behind {res : Except Refusal Rect}
    (hcol : ∀ y', y' + h ≤ g.height → ¬ g.Free ⟨x, y', w, h⟩) (hres : g.SearchSpec w h (x + 1) res) :
    g.SearchSpec w h x res := by
  have hnone (hlater : ∀ x' y', x + 1 ≤ x' → Rect.Fits ⟨x', y', w, h⟩ g.width g.height → ¬ g.Free ⟨x', y', w, h⟩) :
      ∀ x' y', x ≤ x' → Rect.Fits ⟨x', y', w, h⟩ g.width g.height → ¬ g.Free ⟨x', y', w, h⟩ := by
    intro x' y' hx' hfits
    rcases Nat.eq_or_lt_of_le hx' with rfl | hgt
    · exact hcol y' hfits.2
    · exact hlater x' y' hgt hfits
  cases res with
  | ok r =>
    obtain ⟨h1, h2, h3, h4, h5, h6, h7⟩ := hres
    refine ⟨h1, h2, h3, h4, h5, by omega, fun x' y' hx' hlt hy' => ?_⟩
    rcases Nat.eq_or_lt_of_le hx' with rfl | hgt
    · exact hcol y' hy'
    · exact h7 x' y' hgt hlt hy'
  | error e =>
    cases e with
    | full => exact hres.imp_right hnone
    | overflow => exact hres.imp_right (Or.imp_right (And.imp_right hnone))

theorem findFrom_spec (hh : h ≤ g.height) (hx : x + w ≤ g.width + 1) :
    g.SearchSpec w h x (g.findFrom w h x) := by
  fun_induction findFrom g w h x with
  | case1 x hover =>
    have hstops := hover.stops hx
    refine ⟨fun hfit => hfit.not_stops.1 hstops, ?_⟩
    by_cases hwidth : UInt32.size ≤ g.width
    · exact .inl (.inr hwidth)
    · have hsum := hover.1
      exact .inr ⟨hstops, fun x' y' hx' hfits => by simp only [Rect.Fits] at hfits; omega⟩
  | case2 x hover hin y hcol =>
    have hspec := findInColumn_spec hin hh (Nat.zero_le _)
    rw [hcol] at hspec
    obtain ⟨-, h2, h3, h4, h5⟩ := hspec
    refine ⟨rfl, rfl, ⟨hin, h2⟩, h3, h4, Nat.le_refl x, ?_⟩
    rintro x' y' hx' (hlt | ⟨rfl, hlt⟩) -
    · exact absurd hlt (Nat.not_lt.2 hx')
    · exact h5 y' (Nat.zero_le _) hlt
  | case3 x hover hin hcol =>
    have hspec := findInColumn_spec hin hh (Nat.zero_le _)
    rw [hcol] at hspec
    exact ⟨fun hfit => hfit.not_stops.2 hspec, .inl (.inl hspec.1)⟩
  | case4 x hover hin hcol ih =>
    have hspec := findInColumn_spec hin hh (Nat.zero_le _)
    rw [hcol] at hspec
    exact (ih (by omega)).behind fun y' => hspec y' (Nat.zero_le _)
  | case5 x hover hin =>
    have hlast : x + w = g.width + 1 := by omega
    refine ⟨fun hstops => hover ⟨hlast ▸ hstops.1, hstops.2⟩, fun x' y' hx' hfits => ?_⟩
    simp only [Rect.Fits] at hfits
    omega

/-- What is larger than the grid is refused at once; for anything else all columns are searched. -/
theorem find_spec (g : Grid) (w h : Nat) :
    (g.width < w ∨ g.height < h) ∧ g.find w h = .error .full ∨ g.SearchSpec w h 0 (g.find w h) := by
  rw [find]
  split
  · rename_i hlarge
    exact .inl ⟨hlarge, rfl⟩
  · exact .inr (findFrom_spec (by omega) (by omega))

theorem find_firstFit {r : Rect} (hr : g.find w h = .ok r) :
    r.w = w ∧ r.h = h ∧ IsFirstFit g.Free g.width g.height r := by
  have hspec := g.find_spec w h
  rw [hr] at hspec
  rcases hspec with ⟨-, hfull⟩ | ⟨rfl, rfl, hfits, -, hfree, -, hfirst⟩
  · cases hfull
  · exact ⟨rfl, rfl, hfits, hfree, fun x y hlt hf => hfirst x y (Nat.zero_le _) hlt hf.2⟩

/-- The search has formed the lower edge of the rectangle that it gives. -/
theorem not_overflows_of_find {r : Rect} (hr : g.find w h = .ok r) : ¬ g.Overflows r.y r.h := by
  have hspec := g.find_spec w h
  rw [hr] at hspec
  rcases hspec with ⟨-, hfull⟩ | ⟨-, -, -, hsum, -⟩
  · cases hfull
  · exact hsum

theorem find_full (hr : g.find w h = .error .full) (hf : Rect.Fits ⟨x, y, w, h⟩ g.width g.height) :
    ¬ g.Free ⟨x, y, w, h⟩ := by
  have hspec := g.find_spec w h
  rw [hr] at hspec
  rcases hspec with ⟨hlarge, -⟩ | ⟨-, hnone⟩
  · simp only [Rect.Fits] at hf
    omega
  · exact hnone x y (Nat.zero_le _) hf

/-- A search that stops was for something not too large, and has left the sizes at which sums fit. Unless the grid
is tall, there is no room then. -/
theorem find_overflow (hr : g.find w h = .error .overflow) :
    (w ≤ g.width ∧ h ≤ g.height) ∧ ¬ SumsFit g.width g.height ∧ (g.Tall ∨ g.Stops (g.width + 1) ∧
      ∀ x y, Rect.Fits ⟨x, y, w, h⟩ g.width g.height → ¬ g.Free ⟨x, y, w, h⟩) := by
  have hsmall : w ≤ g.width ∧ h ≤ g.height := by
    by_cases hlarge : g.width < w ∨ g.height < h
    · rw [find, if_pos hlarge] at hr
      cases hr
    · omega
  have hspec := g.find_spec w h
  rw [hr] at hspec
  rcases hspec with ⟨-, hfull⟩ | ⟨hfit, hwhy⟩
  · cases hfull
  · exact ⟨hsmall, hfit, hwhy.imp_right (And.imp_right fun hnone x y => hnone x y (Nat.zero_le _))⟩

/-- At a width with which the search would add up more than 32 bits, a search for what is not too large gives a
rectangle or stops. -/
theorem find_ne_full (hstops : g.Stops (g.width + 1)) (hw : w ≤ g.width) (hh : h ≤ g.height) :
    g.find w h ≠ .error .full := by
  intro hr
  have hspec := g.find_spec w h
  rw [hr] at hspec
  rcases hspec with ⟨hlarge, -⟩ | ⟨hsum, -⟩
  · omega
  · exact hsum hstops

/-- There a search stops as soon as there is no room. -/
theorem find_stops (hstops : g.Stops (g.width + 1)) (hw : w ≤ g.width) (hh : h ≤ g.height)
    (hnone : ∀ x y, Rect.Fits ⟨x, y, w, h⟩ g.width g.height → ¬ g.Free ⟨x, y, w, h⟩) :
    g.find w h = .error .overflow := by
  cases hr : g.find w h with
  | ok r =>
    obtain ⟨rfl, rfl, hfirst⟩ := find_firstFit hr
    exact absurd hfirst.vacant (hnone r.x r.y hfirst.fits)
  | error e =>
    cases e with
    | full => exact absurd hr (find_ne_full hstops hw hh)
    | overflow => rfl

/-- What the search answers if it finds this. -/
def orFull : Option Rect → Except Refusal Rect
  | some r => .ok r
  | none => .error .full

/-- Unless it stops, jumping below collisions finds what the scan over all origins finds. -/
theorem find_eq_scanOrigins (hr : g.find w h ≠ .error .overflow) :
    g.find w h = orFull (scanOrigins g.isFree g.width g.height w h) := by
  cases hfind : g.find w h with
  | ok r =>
    obtain ⟨hw, hh, hfit⟩ := find_firstFit hfind
    rw [scanOrigins_eq_some_iff.2 ⟨hw, hh, hfit.congr fun r _ => isFree_iff.symm⟩, orFull]
  | error e =>
    cases e with
    | full =>
      have hnone : scanOrigins g.isFree g.width g.height w h = none :=
        scanOrigins_eq_none_iff.2 fun x y hf =>
          Bool.eq_false_iff.2 fun hfree => find_full hfind hf (isFree_iff.1 hfree)
      rw [hnone, orFull]
    | overflow => exact absurd hfind hr

/-- Exactly the cells of the rectangle become reserved. -/
theorem isOccupied_mark {r : Rect} (hr : r.Fits g.width g.height) (b : Bool) (px py : Nat) :
    (g.mark r b).isOccupied px py = (decide (r.HasPixel px py) || g.isOccupied px py) := by
  by_cases hp : px < g.width ∧ py < g.height
  · have hcell := Plane.getD_fillBlock g.occupied true r.y r.h hr.1 hp.1
      (by rw [g.occupied_size]; exact Plane.cell_lt hp.1 hp.2) false
    simp only [isOccupied, mark, hp.1, hp.2, decide_true, Bool.true_and, hcell, Rect.HasPixel]
    split
    · rename_i hin
      rw [decide_eq_true hin, Bool.true_or]
    · rename_i hin
      rw [decide_eq_false hin, Bool.false_or]
  · rw [decide_eq_false fun h => hp (hr.lt h), Bool.false_or]
    simp only [isOccupied, width_mark, height_mark]
    grind

/-- Exactly the cells of the rectangle take the given flag. -/
theorem isLogo_mark {r : Rect} (hr : r.Fits g.width g.height) (b : Bool) (px py : Nat) :
    (g.mark r b).isLogo px py = if r.HasPixel px py then b else g.isLogo px py := by
  by_cases hp : px < g.width ∧ py < g.height
  · have hcell := Plane.getD_fillBlock g.logo b r.y r.h hr.1 hp.1
      (by rw [g.logo_size]; exact Plane.cell_lt hp.1 hp.2) false
    simp only [isLogo, mark, hp.1, hp.2, decide_true, Bool.true_and, hcell, Rect.HasPixel]
  · rw [if_neg fun h => hp (hr.lt h)]
    simp only [isLogo, width_mark, height_mark]
    grind

/-- A grid is its size and its cells. -/
theorem ext_cells {g g' : Grid} (hw : g'.width = g.width) (hh : g'.height = g.height)
    (hcell : ∀ px py, px < g.width → py < g.height →
      g'.isOccupied px py = g.isOccupied px py ∧ g'.isLogo px py = g.isLogo px py) : g' = g := by
  obtain ⟨width, height, occupied, logo, ho, hl⟩ := g
  obtain ⟨_, _, occupied', logo', ho', hl'⟩ := g'
  cases hw
  cases hh
  have hboth : ∀ px py, px < width → py < height →
      occupied'.getD (py * width + px) false = occupied.getD (py * width + px) false ∧
        logo'.getD (py * width + px) false = logo.getD (py * width + px) false := by
    intro px py hx hy
    simpa only [isOccupied, isLogo, hx, hy, decide_true, Bool.true_and] using hcell px py hx hy
  obtain rfl : occupied' = occupied :=
    (Plane.eq_ofFn ho' false fun px py hx hy => (hboth px py hx hy).1).trans
      (Plane.eq_ofFn ho false fun px py _ _ => rfl).symm
  obtain rfl : logo' = logo :=
    (Plane.eq_ofFn hl' false fun px py hx hy => (hboth px py hx hy).2).trans
      (Plane.eq_ofFn hl false fun px py _ _ => rfl).symm
  rfl

@[simp] theorem isOccupied_empty (width height px py : Nat) :
    (empty width height).isOccupied px py = false := by
  simp only [isOccupied, empty, Plane.getD_replicate, Bool.and_false]

@[simp] theorem isLogo_empty (width height px py : Nat) : (empty width height).isLogo px py = false := by
  simp only [isLogo, empty, Plane.getD_replicate, Bool.and_false]

/-- On an empty grid the origin is free. -/
theorem find_empty {width height w h : Nat} (hw : w ≤ width) (hh : h ≤ height) (hw' : w < UInt32.size)
    (hh' : h < UInt32.size) : (empty width height).find w h = .ok ⟨0, 0, w, h⟩ := by
  have hfree : (empty width height).lowestCollision 0 0 w h = none := by
    cases hc : (empty width height).lowestCollision 0 0 w h with
    | none => rfl
    | some row =>
      obtain ⟨-, px, -, -, hocc⟩ := exists_of_lowestCollision (g := empty width height) (by simpa [empty] using hw)
        (by simpa [empty] using hh) hc
      rw [isOccupied_empty] at hocc
      cases hocc
  have hcolumn : (empty width height).findInColumn 0 w h 0 = .ok 0 := by
    rw [findInColumn, if_neg (fun hover => by have := hover.1; omega), if_pos (by simpa [empty] using hh)]
    split
    · rfl
    · rename_i hc
      rw [hfree] at hc
      cases hc
  rw [find, if_neg (by simp only [empty]; omega), findFrom, if_neg (fun hover => by have := hover.1; omega),
    if_pos (by simpa [empty] using hw), hcolumn]

end Grid
end TextureAtlas
