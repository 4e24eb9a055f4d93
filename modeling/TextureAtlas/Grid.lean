import TextureAtlas.Plane
import TextureAtlas.Rect

/-!
# The occupancy grid

One cell per canvas pixel says whether it is reserved and whether it was reserved for team-colour
paint. A rectangle is placed first fit: columns from the left, and within a column from the top.
`Grid.find` jumps below the lowest occupied row it meets, since every origin up to that row meets it
too; `Grid.scan` states the same search cell by cell.

Coordinates are 32 bits wide, and the search adds them. On a grid of at least `2 ^ 31` rows, or of
`2 ^ 32 - 1` columns, such a sum may leave 32 bits; the search then stops the program
(`Refusal.overflow`), as a build with overflow checks does, before anything has been reserved.
-/

namespace TextureAtlas

/-- Why a search gives no rectangle. -/
inductive Refusal where
  /-- No origin is free. -/
  | full
  /-- A sum of coordinates left 32 bits. This is no answer: the program ends there. -/
  | overflow
  deriving DecidableEq, Repr

/-- Reserved cells of a canvas, and those of them that hold team-colour paint. -/
structure Grid where
  width : Nat
  height : Nat
  occupied : Array Bool
  logo : Array Bool
  occupied_size : occupied.size = width * height
  logo_size : logo.size = width * height

namespace Grid

/-- A grid without a reserved cell. -/
def empty (width height : Nat) : Grid where
  width := width
  height := height
  occupied := Array.replicate (width * height) false
  logo := Array.replicate (width * height) false
  occupied_size := by simp
  logo_size := by simp

/-- Whether the cell is on the grid and reserved. -/
def isOccupied (g : Grid) (x y : Nat) : Bool :=
  x < g.width && y < g.height && g.occupied.getD (y * g.width + x) false

/-- Whether the cell is on the grid and reserved for team-colour paint. -/
def isLogo (g : Grid) (x y : Nat) : Bool :=
  x < g.width && y < g.height && g.logo.getD (y * g.width + x) false

/-- Number of reserved cells. -/
def usedCells (g : Grid) : Nat := g.occupied.count true

/-! ## First fit -/

/-- The lowest row with a reserved cell among the `h` rows from `y` on, `w` cells from column `x`. -/
def lowestCollision (g : Grid) (x y w : Nat) : Nat → Option Nat
  | 0 => none
  | h + 1 =>
    if Plane.anyInRun g.occupied ((y + h) * g.width + x) w then some (y + h)
    else lowestCollision g x y w h

theorem lowestCollision_ge {g : Grid} {x y w h row : Nat}
    (hr : g.lowestCollision x y w h = some row) : y ≤ row := by
  induction h with
  | zero => simp [lowestCollision] at hr
  | succ h ih =>
    simp only [lowestCollision] at hr
    split at hr
    · simp only [Option.some.injEq] at hr; omega
    · exact ih hr

/-- Bytes that a program can address. A canvas takes more than one byte per cell, so none has this many. -/
def addressable : Nat := Nat.pow 2 47

/-- The sum of two coordinates leaves 32 bits. On a grid that no memory holds nothing is ever added up,
so that it does not matter there; the sums are taken as exact. -/
def Overflows (g : Grid) (a b : Nat) : Prop := UInt32.size ≤ a + b ∧ g.width * g.height < addressable

instance (g : Grid) (a b : Nat) : Decidable (g.Overflows a b) := by
  unfold Overflows; infer_instance

/-- The topmost free origin of column `x` at or below row `y`. -/
def findInColumn (g : Grid) (x w h y : Nat) : Except Refusal Nat :=
  if g.Overflows y h then .error .overflow
  else if y + h ≤ g.height then
    match hc : g.lowestCollision x y w h with
    | none => .ok y
    | some row =>
      have := lowestCollision_ge hc
      findInColumn g x w h (row + 1)
  else .error .full
  termination_by g.height + 1 - y

/-- The first free origin in the columns from `x` on. -/
def findFrom (g : Grid) (w h x : Nat) : Except Refusal Rect :=
  if g.Overflows x w then .error .overflow
  else if x + w ≤ g.width then
    match g.findInColumn x w h 0 with
    | .ok y => .ok ⟨x, y, w, h⟩
    | .error .overflow => .error .overflow
    | .error .full => findFrom g w h (x + 1)
  else .error .full
  termination_by g.width + 1 - x

/-- The free `w × h` rectangle with the leftmost, and then topmost, origin. -/
def find (g : Grid) (w h : Nat) : Except Refusal Rect :=
  if g.width < w ∨ g.height < h then .error .full else g.findFrom w h 0

/-- Whether some free rectangle of this size is left. -/
def canPack (g : Grid) (w h : Nat) : Except Refusal Bool :=
  match g.find w h with
  | .ok _ => .ok true
  | .error .full => .ok false
  | .error .overflow => .error .overflow

/-- The grid with the cells of `r` reserved. Only rectangles that `find` gave are marked, and of these the
lower edge `r.y + r.h` has been formed before. -/
def mark : Grid → Rect → Bool → Grid
  | ⟨width, height, occupied, logo, ho, hl⟩, r, isLogo =>
    ⟨width, height, Plane.fillBlock occupied width r.x r.w true r.y r.h,
      Plane.fillBlock logo width r.x r.w isLogo r.y r.h, by simp [ho], by simp [hl]⟩

/-- Reserves a `w × h` rectangle where `find` finds one. -/
def pack (g : Grid) (w h : Nat) (isLogo : Bool) : Except Refusal Rect × Grid :=
  match g.find w h with
  | .error e => (.error e, g)
  | .ok r => (.ok r, g.mark r isLogo)

@[simp] theorem width_mark (g : Grid) (r : Rect) (b : Bool) : (g.mark r b).width = g.width := rfl

@[simp] theorem height_mark (g : Grid) (r : Rect) (b : Bool) : (g.mark r b).height = g.height := rfl

@[simp] theorem width_pack (g : Grid) (w h : Nat) (b : Bool) : (g.pack w h b).2.width = g.width := by
  unfold pack; split <;> simp

@[simp] theorem height_pack (g : Grid) (w h : Nat) (b : Bool) :
    (g.pack w h b).2.height = g.height := by
  unfold pack; split <;> simp

/-! ## The same search, cell by cell -/

/-- No cell of the rectangle is reserved. -/
def isFree (g : Grid) (r : Rect) : Bool :=
  (List.range r.h).all fun j => (List.range r.w).all fun i => !g.isOccupied (r.x + i) (r.y + j)

end Grid
end TextureAtlas
