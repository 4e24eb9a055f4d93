/-!
# Pixel rectangles

A rectangle is a top-left corner and two side lengths. Its pixels are the points
`x ≤ px < x + w`, `y ≤ py < y + h`; a rectangle with an empty side has none. Coordinates are natural numbers
here, of which a document may only state those of 32 bits. The edges below are exact sums. They are 32-bit
numbers as long as the far edges `x + w` and `y + h` are (`Rect.InRange`), and on a canvas all of them are; the
edges of other rectangles are never formed while an atlas is made, and a program that asks for them stops at the
sum.
-/

namespace TextureAtlas

/-- An axis-aligned rectangle of pixels. -/
structure Rect where
  x : Nat
  y : Nat
  w : Nat
  h : Nat
  deriving DecidableEq, Repr, Inhabited

namespace Rect

/-- The last column that belongs to the rectangle; the first one when it has no width. -/
def right (r : Rect) : Nat := r.x + (r.w - 1)

/-- The last row that belongs to the rectangle; the first one when it has no height. -/
def bottom (r : Rect) : Nat := r.y + (r.h - 1)

/-- Number of pixels. -/
def area (r : Rect) : Nat := r.w * r.h

/-- The far edges are 32-bit numbers, and so is every sum of coordinates that the checks below form. -/
def InRange (r : Rect) : Prop := r.x + r.w < UInt32.size ∧ r.y + r.h < UInt32.size

instance (r : Rect) : Decidable r.InRange := by
  unfold InRange; infer_instance

/-- A pixel of the rectangle. -/
def HasPixel (r : Rect) (px py : Nat) : Prop :=
  r.x ≤ px ∧ px < r.x + r.w ∧ r.y ≤ py ∧ py < r.y + r.h

instance (r : Rect) (px py : Nat) : Decidable (r.HasPixel px py) := by
  unfold HasPixel; infer_instance

/-- `a.contains b`: the inclusive edges of `b` lie within those of `a`, for rectangles `InRange`. -/
def contains (a b : Rect) : Bool :=
  a.x ≤ b.x && a.y ≤ b.y && b.right ≤ a.right && b.bottom ≤ a.bottom

/-- Neither side is empty, and the rectangles are apart in neither direction; for rectangles `InRange`. -/
def overlaps (a b : Rect) : Bool :=
  if a.w = 0 ∨ a.h = 0 ∨ b.w = 0 ∨ b.h = 0 then false
  else !(b.x + b.w ≤ a.x || a.x + a.w ≤ b.x || b.y + b.h ≤ a.y || a.y + a.h ≤ b.y)

/-- The rectangle ends inside a canvas of the given size. -/
def Fits (r : Rect) (width height : Nat) : Prop := r.x + r.w ≤ width ∧ r.y + r.h ≤ height

instance (r : Rect) (width height : Nat) : Decidable (r.Fits width height) := by
  unfold Fits; infer_instance

end Rect
end TextureAtlas
