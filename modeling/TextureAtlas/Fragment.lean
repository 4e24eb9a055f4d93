import TextureAtlas.Rect

/-!
# Fragments and frame headers

A fragment is a named block of pixels on the canvas. It is registered before it is placed; its
rectangle means something only from then on.
-/

namespace TextureAtlas

/-- What the atlas records about one name. -/
structure Fragment where
  rect : Rect := ⟨0, 0, 0, 0⟩
  /-- Palette index that the fragment declares transparent. -/
  transparencyKey : UInt32 := 0
  /-- Whether its pixels are team-colour paint. -/
  logo : Bool := false
  /-- Whether `rect` has been reserved on the canvas. -/
  placed : Bool := false
  deriving DecidableEq, Repr, Inhabited

/-- What a frame announces before its pixel layers follow. -/
structure FrameHeader where
  width : UInt32
  height : UInt32
  transparencyIndex : UInt32
  deriving DecidableEq, Repr, Inhabited

end TextureAtlas
