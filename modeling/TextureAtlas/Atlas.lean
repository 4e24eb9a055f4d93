import TextureAtlas.Decimal.Fixed
import TextureAtlas.Fragment
import TextureAtlas.Table
import TextureAtlas.Uv

/-!
# The finished atlas

An atlas is what a completed canvas leaves: palette indices, the team-colour mask and the fragment
of every registered name. It answers texture coordinates and says how well it is filled.
-/

namespace TextureAtlas

/-- A finished atlas. -/
structure Atlas where
  width : Nat
  height : Nat
  /-- Palette index of each pixel, row by row. -/
  indices : Array UInt8
  /-- Team-colour flag of each pixel, row by row. -/
  logo : Array Bool
  fragments : NameTable Fragment
  indices_size : indices.size = width * height
  logo_size : logo.size = width * height

/-- How well an atlas is filled. -/
structure AtlasStats where
  width : Nat
  height : Nat
  /-- Number of placed fragments. -/
  numFragments : Nat
  /-- Number of placed fragments of team-colour paint. -/
  numLogo : Nat
  totalArea : Nat
  /-- Sum of the areas of the placed fragments. -/
  usedArea : Nat
  /-- `usedArea / totalArea`. -/
  occupancy : Float

namespace AtlasStats

/-- The statistics in one line. -/
def summary (s : AtlasStats) : String :=
  let percent := Decimal.fixed 2 (s.occupancy * 100)
  s!"Canvas: {s.width}x{s.height}, Fragments: {s.numFragments} ({s.numLogo} logo), " ++
    s!"Occupancy: {percent}%, Used Area: {s.usedArea} px²"

/-- Number of pixels in no fragment; never negative. -/
def wastedArea (s : AtlasStats) : Nat := s.totalArea - s.usedArea

end AtlasStats

namespace Atlas

/-- The fragment of that name, if it has been placed. -/
def placed? (a : Atlas) (name : String) : Option Fragment := (a.fragments.get? name).filter (·.placed)

/-- The placed fragments with their names, ascending. -/
def placed (a : Atlas) : List (String × Fragment) := a.fragments.entries.filter (·.2.placed)

/-- Texture coordinates of a name; zero if nothing is placed under it. -/
def uv (a : Atlas) (name : String) : UvRect :=
  match a.placed? name with
  | some f => .ofRect f.rect a.width a.height
  | none => .zero

/-- How well the atlas is filled. -/
def stats (a : Atlas) : AtlasStats :=
  let placed := a.placed.map (·.2)
  let total := a.width * a.height
  let used := (placed.map (·.rect.area)).foldr (· + ·) 0
  { width := a.width
    height := a.height
    numFragments := placed.length
    numLogo := placed.countP (·.logo)
    totalArea := total
    usedArea := used
    occupancy := if 0 < total then used.toFloat / total.toFloat else 0 }

end Atlas
end TextureAtlas
