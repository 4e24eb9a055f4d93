import TextureAtlas.Atlas
import TextureAtlas.Hsv

/-!
# Rasters of an atlas

An atlas is exported as its palette indices, as an opaque albedo image and as a team-colour mask. A
team pixel is black in the albedo and opaque in the mask; elsewhere the albedo shows the palette
colour and the mask is clear.
-/

namespace TextureAtlas

/-- A colour with its opacity. -/
structure Rgba where
  r : UInt8
  g : UInt8
  b : UInt8
  a : UInt8
  deriving DecidableEq, Repr, Inhabited

namespace Rgba

/-- The four bytes of a pixel. -/
def bytes (c : Rgba) : List UInt8 := [c.r, c.g, c.b, c.a]

/-- Fully transparent black. -/
def clear : Rgba := ⟨0, 0, 0, 0⟩

/-- Fully opaque black. -/
def black : Rgba := ⟨0, 0, 0, 255⟩

end Rgba

/-- A colour without transparency. -/
def Rgb.opaqueColor (c : Rgb) : Rgba := ⟨c.r, c.g, c.b, 255⟩

/-- An image, row by row. -/
structure Raster where
  width : Nat
  height : Nat
  pixels : Array Rgba
  deriving DecidableEq, Repr

namespace Raster

/-- The bytes of an image, four for each pixel. -/
def toBytes (r : Raster) : ByteArray :=
  r.pixels.foldl (fun bytes c => (((bytes.push c.r).push c.g).push c.b).push c.a)
    (ByteArray.emptyWithCapacity (4 * r.pixels.size))

/-- The image that is transparent everywhere. -/
def blank (width height : Nat) : Raster := ⟨width, height, Array.replicate (width * height) .clear⟩

/-- The image with another pixel in column `x` of row `y`. -/
def setPixel : Raster → Nat → Nat → Rgba → Raster
  | ⟨width, height, pixels⟩, x, y, c => ⟨width, height, pixels.setIfInBounds (y * width + x) c⟩

/-- The image that shows `f x y` in column `x` of row `y`. -/
def ofFn (width height : Nat) (f : Nat → Nat → Rgba) : Raster :=
  ⟨width, height, Array.ofFn fun i : Fin (width * height) => f (i % width) (i / width)⟩

end Raster

/-- What becomes of one pixel. -/
structure Shade where
  albedo : Rgba
  teamMask : Rgba
  deriving DecidableEq, Repr, Inhabited

/-- The shade of a palette index under a team-colour flag. -/
def Palette.shade (p : Palette) (index : UInt8) (logo : Bool) (threshold : Float32) : Shade :=
  let rgb := p.rgb index
  let hsv := Hsv.ofRgb rgb
  if hsv.isTeamPixel logo threshold then ⟨.black, ⟨0, 0, 0, hsv.teamMaskAlpha⟩⟩
  else ⟨rgb.opaqueColor, .clear⟩

/-- All rasters of an atlas. -/
structure AtlasExports where
  indexed : Array UInt8
  albedo : Raster
  teamMask : Raster

namespace Atlas

/-- The shade of the pixel at offset `i`. -/
def shadeAt (a : Atlas) (p : Palette) (threshold : Float32) (i : Nat) : Shade :=
  p.shade (a.indices.getD i 0) (a.logo.getD i false) threshold

/-- Albedo image and team-colour mask with the `n` pixels from offset `i` on shaded, each in its column
and row. -/
def shadeRun (a : Atlas) (p : Palette) (threshold : Float32) (i : Nat) : Nat → Raster → Raster → Raster × Raster
  | 0, albedo, teamMask => (albedo, teamMask)
  | n + 1, albedo, teamMask =>
    let shade := a.shadeAt p threshold i
    shadeRun a p threshold (i + 1) n (albedo.setPixel (i % a.width) (i / a.width) shade.albedo)
      (teamMask.setPixel (i % a.width) (i / a.width) shade.teamMask)

/-- All rasters, each pixel shaded once. -/
def exportAll (a : Atlas) (p : Palette) (threshold : Float32) : AtlasExports :=
  let images := a.shadeRun p threshold 0 (min a.indices.size a.logo.size) (.blank a.width a.height)
    (.blank a.width a.height)
  { indexed := a.indices
    albedo := images.1
    teamMask := images.2 }

/-- The albedo image alone, column by column of each row. -/
def albedo (a : Atlas) (p : Palette) (threshold : Float32) : Raster :=
  .ofFn a.width a.height fun x y => (a.shadeAt p threshold (y * a.width + x)).albedo

/-- The team-colour mask alone, column by column of each row. -/
def teamMask (a : Atlas) (p : Palette) (threshold : Float32) : Raster :=
  .ofFn a.width a.height fun x y => (a.shadeAt p threshold (y * a.width + x)).teamMask

end Atlas
end TextureAtlas
