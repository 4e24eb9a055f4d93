import TextureAtlas.Rect

/-!
# Texture coordinates

A rectangle on a canvas as fractions of the canvas sides. The renderer reads 64-bit floats;
`ExactUv` holds the same quotients before they are rounded.
-/

namespace TextureAtlas

/-- Normalised texture coordinates of a rectangle. -/
structure UvRect where
  uMin : Float := 0
  vMin : Float := 0
  uMax : Float := 0
  vMax : Float := 0
  deriving Inhabited

namespace UvRect

/-- The coordinates that stand for a name without a placed fragment. -/
def zero : UvRect := {}

/-- The coordinates of `r` on a canvas of the given size. The rectangle is `InRange`, as all on the canvas are. -/
def ofRect (r : Rect) (width height : Nat) : UvRect where
  uMin := r.x.toFloat / width.toFloat
  vMin := r.y.toFloat / height.toFloat
  uMax := (r.x + r.w).toFloat / width.toFloat
  vMax := (r.y + r.h).toFloat / height.toFloat

end UvRect

/-- A fraction of whole numbers, not reduced. -/
structure Quotient where
  num : Nat
  den : Nat
  deriving DecidableEq, Repr

/-- The four quotients behind `UvRect.ofRect`, before they are rounded to floats: left, top, right
and bottom. -/
structure ExactUv where
  uMin : Quotient
  vMin : Quotient
  uMax : Quotient
  vMax : Quotient
  deriving DecidableEq, Repr

/-- The exact coordinates of `r` on a canvas of the given size. -/
def ExactUv.ofRect (r : Rect) (width height : Nat) : ExactUv :=
  ⟨⟨r.x, width⟩, ⟨r.y, height⟩, ⟨r.x + r.w, width⟩, ⟨r.y + r.h, height⟩⟩

/-- The fraction as a float, its two parts rounded first. -/
def Quotient.toFloat (q : Quotient) : Float := q.num.toFloat / q.den.toFloat

/-- The floats are the exact quotients, divided. -/
theorem UvRect.ofRect_eq (r : Rect) (width height : Nat) :
    UvRect.ofRect r width height =
      let e := ExactUv.ofRect r width height
      ⟨e.uMin.toFloat, e.vMin.toFloat, e.uMax.toFloat, e.vMax.toFloat⟩ := rfl

end TextureAtlas
