import TextureAtlas.Error
import TextureAtlas.Grid

/-!
# The canvas

Palette indices of every pixel together with the occupancy grid. Painting is clipped to the canvas
and to the bytes at hand, and touches no reservation. Rows are written one by one, until one is below
the canvas, so that no row number is formed beyond it; a fill adds up the lower edge of its rectangle first.
-/

namespace TextureAtlas

/-- A raster of palette indices with its reservations. -/
structure Canvas where
  indices : Array UInt8
  grid : Grid
  indices_size : indices.size = grid.width * grid.height

/-- How a canvas of the given size reports that it has no place for a fragment. -/
def Refusal.reported (width height fragmentWidth fragmentHeight : Nat) : Refusal → AtlasError
  | .full => .bufferFull width height fragmentWidth fragmentHeight
  | .overflow => .overflow

namespace Canvas

/-- A blank canvas; both sides must be positive. -/
def blank? (width height : Nat) : Except AtlasError Canvas :=
  if width = 0 ∨ height = 0 then .error (.invalidDimensions width height)
  else .ok ⟨Array.replicate (width * height) 0, .empty width height, by simp [Grid.empty]⟩

def width (c : Canvas) : Nat := c.grid.width

def height (c : Canvas) : Nat := c.grid.height

/-- Reserves a `w × h` rectangle. -/
def place : Canvas → Nat → Nat → Bool → Except AtlasError Rect × Canvas
  | ⟨indices, grid, hs⟩, w, h, isLogo =>
    let packed := grid.pack w h isLogo
    (packed.1.mapError (Refusal.reported packed.2.width packed.2.height w h),
      ⟨indices, packed.2, by simp [packed, hs]⟩)

/-- Copies `pixels`, rows of `r.w` bytes, to the origin of `r`. What lies beyond the canvas or beyond
the end of `pixels` is left out. -/
def writeRows : Canvas → Rect → Array UInt8 → Canvas
  | ⟨indices, grid, hs⟩, r, pixels =>
    if r.x < grid.width then
      ⟨Plane.copyBlock indices grid.width r.x (min r.w (grid.width - r.x)) r.w pixels r.y 0
        (min r.h (grid.height - r.y)), grid, by simp [hs]⟩
    else ⟨indices, grid, hs⟩

/-- Paints the pixels of `r` that are on the canvas. -/
def paint : Canvas → Rect → UInt8 → Canvas
  | ⟨indices, grid, hs⟩, r, value =>
    if r.x < grid.width then
      ⟨Plane.fillBlock indices grid.width r.x (min r.w (grid.width - r.x)) value r.y
        (min r.h (grid.height - r.y)), grid, by simp [hs]⟩
    else ⟨indices, grid, hs⟩

/-- Paints the pixels of `r` that are on the canvas, down to its lower edge `r.y + r.h`. Where that sum
leaves 32 bits, the program stops; only a rectangle to the right of the canvas is left before it is formed. -/
def fill (c : Canvas) (r : Rect) (value : UInt8) : Except AtlasError Unit × Canvas :=
  if r.x < c.width ∧ c.grid.Overflows r.y r.h then (.error .overflow, c) else (.ok (), c.paint r value)

/-- The palette index of a pixel; outside the canvas 0. -/
def pixel (c : Canvas) (x y : Nat) : UInt8 :=
  if x < c.width ∧ y < c.height then c.indices.getD (y * c.width + x) 0 else 0

end Canvas
end TextureAtlas
