import TextureAtlas.Proofs.Canvas
import TextureAtlas.Proofs.Table
import TextureAtlas.Sink

/-!
# What each call does to a sink

One equation per call and situation. `Sink.waiting?` is the entity whose pixels are awaited together
with its fragment: a frame header places it if it has no place, a layer paints it if it has one, and
without it both do nothing.
-/

namespace TextureAtlas

namespace Sink
variable {s : Sink} {name : String} {f : Fragment}

/-- A fragment of that name has its place. -/
def Places (s : Sink) (name : String) (f : Fragment) : Prop :=
  s.fragment? name = some f ∧ f.placed = true

/-- The pixels of that name have been painted. -/
def Filled (s : Sink) (name : String) : Prop := s.filled.contains name = true

/-- The entity that waits for its pixels, with its fragment. -/
def waiting? (s : Sink) : Option (String × Fragment) :=
  s.pending.bind fun name => (s.fragments.get? name).map (name, ·)

theorem waiting?_eq_some : s.waiting? = some (name, f) ↔ s.pending = some name ∧ s.fragment? name = some f := by
  simp only [waiting?, fragment?, Option.bind_eq_some_iff, Option.map_eq_some_iff, Prod.mk.injEq]
  constructor
  · rintro ⟨n, hn, g, hg, rfl, rfl⟩
    exact ⟨hn, hg⟩
  · rintro ⟨hn, hf⟩
    exact ⟨name, hn, f, hf, rfl, rfl⟩

theorem waiting?_of_idle (h : s.pending = none) : s.waiting? = none := by
  rw [waiting?, h]; rfl

theorem Places.contains (h : s.Places name f) : s.contains name = true := by
  rw [Sink.contains, Table.contains, show s.fragments.get? name = some f from h.1]; rfl

/-! ## Frame headers -/

/-- The sink with a fragment placed at `r`. -/
def placing (s : Sink) (name : String) (r : Rect) (key : UInt32) (isLogo : Bool) : Sink :=
  { s with
    canvas := s.canvas.reserve r isLogo
    fragments := s.fragments.insert name ⟨r, key, isLogo, true⟩ }

theorem beginFrame_idle (h : s.waiting? = none) (header : FrameHeader) :
    s.beginFrame header = (.ok (), s) := by
  obtain ⟨canvas, fragments, filled, pending, logoActive, swatchSize⟩ := s
  simp only [beginFrame, show pending.bind (fun name => (fragments.get? name).map (name, ·)) = none from h]

theorem beginFrame_placed (h : s.waiting? = some (name, f)) (hp : f.placed = true) (header : FrameHeader) :
    s.beginFrame header = (.ok (), s) := by
  obtain ⟨canvas, fragments, filled, pending, logoActive, swatchSize⟩ := s
  simp only [beginFrame,
    show pending.bind (fun name => (fragments.get? name).map (name, ·)) = some (name, f) from h, hp, if_true]

/-- The first header of an entity places it at the first fit, or reports that there is none. -/
theorem beginFrame_unplaced (h : s.waiting? = some (name, f)) (hp : f.placed = false) (header : FrameHeader) :
    s.beginFrame header = match s.canvas.grid.find header.width.toNat header.height.toNat with
      | .ok r => (.ok (), s.placing name r header.transparencyIndex s.logoActive)
      | .error e => (.error (e.reported s.canvas.width s.canvas.height header.width.toNat
          header.height.toNat), s) := by
  obtain ⟨canvas, fragments, filled, pending, logoActive, swatchSize⟩ := s
  simp only [beginFrame,
    show pending.bind (fun name => (fragments.get? name).map (name, ·)) = some (name, f) from h, hp,
    Bool.false_eq_true, if_false, Canvas.place_eq]
  cases canvas.grid.find header.width.toNat header.height.toNat with
  | ok r => rfl
  | error e => rfl

/-- A refused header changes nothing: the entity that waits has no place, and the canvas has none for it. -/
theorem beginFrame_refused {t : Sink} {header : FrameHeader} {err : AtlasError}
    (h : s.beginFrame header = (.error err, t)) :
    t = s ∧ (∃ e, s.canvas.grid.find header.width.toNat header.height.toNat = .error e ∧
        err = e.reported s.canvas.width s.canvas.height header.width.toNat header.height.toNat) ∧
      ∃ name f, s.waiting? = some (name, f) ∧ f.placed = false := by
  cases hw : s.waiting? with
  | none => rw [beginFrame_idle hw] at h; cases h
  | some p =>
    obtain ⟨name, f⟩ := p
    cases hp : f.placed with
    | true => rw [beginFrame_placed hw hp] at h; cases h
    | false =>
      rw [beginFrame_unplaced hw hp] at h
      split at h
      · cases h
      · rename_i e hfind
        cases h
        exact ⟨rfl, ⟨e, hfind, rfl⟩, name, f, rfl, hp⟩

/-! ## Layers -/

/-- The sink after the pixels of a name have been painted on `c`, with nothing awaited. -/
def painting (s : Sink) (name : String) (c : Canvas) : Sink :=
  { s with canvas := c, filled := s.filled.insert name (), pending := none }

theorem frameLayer_idle (h : s.waiting? = none) (pixels : Array UInt8) : s.frameLayer pixels = s := by
  obtain ⟨canvas, fragments, filled, pending, logoActive, swatchSize⟩ := s
  simp only [frameLayer, show pending.bind (fun name => (fragments.get? name).map (name, ·)) = none from h]

theorem frameLayer_unplaced (h : s.waiting? = some (name, f)) (hp : f.placed = false) (pixels : Array UInt8) :
    s.frameLayer pixels = s := by
  obtain ⟨canvas, fragments, filled, pending, logoActive, swatchSize⟩ := s
  simp only [frameLayer,
    show pending.bind (fun name => (fragments.get? name).map (name, ·)) = some (name, f) from h, hp,
    Bool.false_eq_true, if_false]

/-- The first layer after placement is painted, and ends the wait. -/
theorem frameLayer_placed (h : s.waiting? = some (name, f)) (hp : f.placed = true) (pixels : Array UInt8) :
    s.frameLayer pixels = s.painting name (s.canvas.writeRows f.rect pixels) := by
  obtain ⟨canvas, fragments, filled, pending, logoActive, swatchSize⟩ := s
  simp only [frameLayer,
    show pending.bind (fun name => (fragments.get? name).map (name, ·)) = some (name, f) from h, hp, if_true]
  rfl

/-! ## Swatches -/

/-- The sink with the swatch of palette index `n` placed at `r` and painted. -/
def withSwatch (s : Sink) (n : UInt32) (r : Rect) : Sink :=
  { s with
    canvas := (s.canvas.reserve r false).paint r n.toUInt8
    fragments := s.fragments.insert (ColorIndex.name n) ⟨r, n - 1, false, true⟩
    filled := s.filled.insert (ColorIndex.name n) () }

theorem synthesize_known {n : UInt32} (h : s.contains (ColorIndex.name n) = true) :
    s.synthesize n = (.ok (), s) := if_pos h

/-- A new swatch takes the first fit, or it is reported that there is none. -/
theorem synthesize_new {n : UInt32} (h : s.contains (ColorIndex.name n) = false) :
    s.synthesize n = match s.canvas.grid.find s.swatchSize.toNat s.swatchSize.toNat with
      | .ok r => (.ok (), s.withSwatch n r)
      | .error e => (.error (e.reported s.canvas.width s.canvas.height s.swatchSize.toNat
          s.swatchSize.toNat), s) := by
  rw [synthesize, if_neg (by rw [h]; exact Bool.false_ne_true)]
  obtain ⟨canvas, fragments, filled, pending, logoActive, swatchSize⟩ := s
  simp only [insertSolid, Canvas.place_eq]
  cases hr : canvas.grid.find swatchSize.toNat swatchSize.toNat with
  | ok r =>
    simp only [Canvas.fill_of_found hr]
    rfl
  | error e => rfl

theorem synthesizeNamed_snd (s : Sink) (name : String) :
    (s.synthesizeNamed name).2 = match ColorIndex.ofName? name with
      | some n => (s.synthesize n).2
      | none => s := by
  rw [synthesizeNamed]
  cases ColorIndex.ofName? name with
  | none => rfl
  | some n =>
    simp only
    split
    · rename_i hs; rw [hs]
    · rename_i hs; rw [hs]

end Sink
end TextureAtlas
