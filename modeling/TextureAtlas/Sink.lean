import TextureAtlas.Archive
import TextureAtlas.Atlas
import TextureAtlas.Canvas
import TextureAtlas.ColorIndex
import TextureAtlas.Table

/-!
# Composing frames on a canvas

A sink owns the canvas of one sizing attempt, the fragments registered so far and a cursor to the
entity that is being streamed. The first frame of an entity places its fragment, the first layer
after that paints it, and all later ones are passed over. A refused placement leaves the sink as it
was, and so does one that stops at a sum beyond 32 bits.
-/

namespace TextureAtlas

/-- The state of one sizing attempt. -/
structure Sink where
  canvas : Canvas
  fragments : NameTable Fragment := {}
  /-- Names whose pixels have been painted. -/
  filled : NameSet := {}
  /-- The entity that still waits for its pixels. -/
  pending : Option String := none
  /-- Whether the entities to come are team-colour paint. -/
  logoActive : Bool := false
  swatchSize : UInt32 := 4

namespace Sink

/-- A sink over a blank canvas. -/
def blank? (width height : Nat) : Except AtlasError Sink :=
  (Canvas.blank? width height).map fun canvas => { canvas }

/-- The fragment registered under that name. -/
def fragment? (s : Sink) (name : String) : Option Fragment := s.fragments.get? name

/-- Whether the name is registered. -/
def contains (s : Sink) (name : String) : Bool := s.fragments.contains name

/-! ## The stream of an archive -/

/-- Marks the entities to come as team-colour paint, or not. -/
def setLogo (s : Sink) (isLogo : Bool) : Sink := { s with logoActive := isLogo }

/-- Registers the name, and waits for its pixels unless it has them. -/
def beginEntity (s : Sink) (name : String) : Sink :=
  { s with
    fragments := if s.fragments.contains name then s.fragments else s.fragments.insert name {}
    pending := if s.filled.contains name then none else some name }

/-- Places the pending fragment, if it has no place yet. -/
def beginFrame : Sink → FrameHeader → Except AtlasError Unit × Sink
  | ⟨canvas, fragments, filled, pending, logoActive, swatchSize⟩, header =>
    match pending.bind fun name => (fragments.get? name).map (name, ·) with
    | none => (.ok (), ⟨canvas, fragments, filled, pending, logoActive, swatchSize⟩)
    | some (name, fragment) =>
      if fragment.placed then (.ok (), ⟨canvas, fragments, filled, pending, logoActive, swatchSize⟩)
      else match canvas.place header.width.toNat header.height.toNat logoActive with
        | (.error e, canvas) => (.error e, ⟨canvas, fragments, filled, pending, logoActive, swatchSize⟩)
        | (.ok rect, canvas) =>
          (.ok (), ⟨canvas, fragments.insert name ⟨rect, header.transparencyIndex, logoActive, true⟩,
            filled, pending, logoActive, swatchSize⟩)

/-- Paints the pending fragment, once it is placed, and waits no more. -/
def frameLayer : Sink → Array UInt8 → Sink
  | ⟨canvas, fragments, filled, pending, logoActive, swatchSize⟩, pixels =>
    match pending.bind fun name => (fragments.get? name).map (name, ·) with
    | none => ⟨canvas, fragments, filled, pending, logoActive, swatchSize⟩
    | some (name, fragment) =>
      if fragment.placed then
        ⟨canvas.writeRows fragment.rect pixels, fragments, filled.insert name (), none, logoActive,
          swatchSize⟩
      else ⟨canvas, fragments, filled, pending, logoActive, swatchSize⟩

/-- Nothing happens at the end of a frame. -/
def endFrame (s : Sink) : Sink := s

/-- No entity waits for pixels any more. -/
def endEntity (s : Sink) : Sink := { s with pending := none }

/-- The sink as a receiver of frame streams. -/
def receiver : FrameSink Sink where
  beginEntity name s := s.beginEntity name
  beginFrame header s := s.beginFrame header
  frameLayer pixels s := s.frameLayer pixels
  endFrame := endFrame
  endEntity := endEntity

/-! ## Swatches -/

/-- Places a square fragment and paints it with one palette index. -/
def insertSolid : Sink → String → Nat → UInt32 → UInt8 → Except AtlasError Rect × Sink
  | ⟨canvas, fragments, filled, pending, logoActive, swatchSize⟩, name, side, key, value =>
    match canvas.place side side false with
    | (.error e, canvas) => (.error e, ⟨canvas, fragments, filled, pending, logoActive, swatchSize⟩)
    | (.ok rect, canvas) =>
      match canvas.fill rect value with
      | (.error e, canvas) => (.error e, ⟨canvas, fragments, filled, pending, logoActive, swatchSize⟩)
      | (.ok (), canvas) =>
        (.ok rect, ⟨canvas, fragments.insert name ⟨rect, key, false, true⟩,
          filled.insert name (), pending, logoActive, swatchSize⟩)

/-- Places the swatch of palette index `n`, unless its name is registered. The transparency key is
`n - 1`, so that no pixel of the swatch is transparent; index 0 wraps to the greatest key. -/
def synthesize (s : Sink) (n : UInt32) : Except AtlasError Unit × Sink :=
  if s.contains (ColorIndex.name n) then (.ok (), s)
  else match s.insertSolid (ColorIndex.name n) s.swatchSize.toNat (n - 1) n.toUInt8 with
    | (.ok _, s) => (.ok (), s)
    | (.error e, s) => (.error e, s)

/-- Places the swatch that the name stands for; `false` if it stands for none. -/
def synthesizeNamed (s : Sink) (name : String) : Except AtlasError Bool × Sink :=
  match ColorIndex.ofName? name with
  | none => (.ok false, s)
  | some n =>
    match s.synthesize n with
    | (.ok (), s) => (.ok true, s)
    | (.error e, s) => (.error e, s)

/-! ## The result -/

/-- The atlas of the finished attempt. -/
def finish (s : Sink) : Atlas where
  width := s.canvas.width
  height := s.canvas.height
  indices := s.canvas.indices
  logo := s.canvas.grid.logo
  fragments := s.fragments
  indices_size := s.canvas.indices_size
  logo_size := s.canvas.grid.logo_size

/-! ## Runs of calls -/

/-- Everything that may be asked of a sink. -/
inductive Call where
  | setLogo (isLogo : Bool)
  | beginEntity (name : String)
  | beginFrame (header : FrameHeader)
  | frameLayer (pixels : Array UInt8)
  | endFrame
  | endEntity
  | synthesize (n : UInt32)
  | synthesizeNamed (name : String)

/-- The sink after one call, whether the call succeeded or not. -/
def step (s : Sink) : Call → Sink
  | .setLogo isLogo => s.setLogo isLogo
  | .beginEntity name => s.beginEntity name
  | .beginFrame header => (s.beginFrame header).2
  | .frameLayer pixels => s.frameLayer pixels
  | .endFrame => s.endFrame
  | .endEntity => s.endEntity
  | .synthesize n => (s.synthesize n).2
  | .synthesizeNamed name => (s.synthesizeNamed name).2

/-- The sink after a sequence of calls. -/
def run (s : Sink) (calls : List Call) : Sink := calls.foldl step s

/-- The sinks that some sequence of calls leads to from a blank canvas with positive sides. -/
def Reachable (s : Sink) : Prop :=
  ∃ width height swatchSize calls start, blank? width height = .ok start ∧
    s = run { start with swatchSize } calls

end Sink
end TextureAtlas
