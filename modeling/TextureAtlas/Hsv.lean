import TextureAtlas.Palette

/-!
# Hue, saturation and value

The decomposition of a colour in 32-bit floats, as far as team colour needs it.
-/

namespace TextureAtlas

/-- Hue, saturation and value of an 8-bit colour. -/
structure Hsv where
  /-- Degrees from 0 up to 360; greys have none. -/
  hue : Option Float32
  /-- From 0 to 1. -/
  saturation : Float32
  /-- The greatest channel. -/
  value : UInt8
  deriving Inhabited

/-- The greatest channel of a colour. -/
def Rgb.greatest (c : Rgb) : UInt8 := max (max c.r c.g) c.b

/-- The least channel of a colour. -/
def Rgb.least (c : Rgb) : UInt8 := min (min c.r c.g) c.b

namespace Hsv

/-- The value on a scale from 0 to 1. -/
def valueUnit (h : Hsv) : Float32 := h.value.toFloat32 / 255

/-- `x` raised by 6 when it is negative; the hue sectors of `[-1, 1]` become those of `[0, 6)`. -/
def sectorFromRed (x : Float32) : Float32 := if x < 0 then x + 6 else x

/-- The decomposition of a colour. Red wins a tie for the greatest channel, then green. -/
def ofRgb (c : Rgb) : Hsv :=
  let delta := c.greatest - c.least
  if delta = 0 then ⟨none, 0, c.greatest⟩
  else
    let d := delta.toFloat32
    let r := c.r.toFloat32
    let g := c.g.toFloat32
    let b := c.b.toFloat32
    let sector :=
      if c.greatest = c.r then sectorFromRed ((g - b) / d)
      else if c.greatest = c.g then (b - r) / d + 2
      else (r - g) / d + 4
    ⟨some (sector * 60), d / c.greatest.toFloat32, c.greatest⟩

/-- Team-colour paint that is saturated above the threshold. -/
def isTeamPixel (logo : Bool) (h : Hsv) (threshold : Float32) : Bool := logo && threshold < h.saturation

/-- Opacity of a team pixel in the mask: the darker the colour, the more opaque. -/
def teamMaskAlpha (h : Hsv) : UInt8 := 255 - h.value

end Hsv
end TextureAtlas
