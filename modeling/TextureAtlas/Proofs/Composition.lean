import Mathlib.Data.List.Infix
import TextureAtlas.Compose
import TextureAtlas.Proofs.Index
import TextureAtlas.Proofs.Layout
import TextureAtlas.Proofs.Sink.Extraction

/-!
# An attempt draws the layout

A sink `Draws` a layout when its grid, its pixels and its records are those of the layout. Delivering
an entry or synthesizing a swatch carries that over to the layout with one more demand served, or both
end with the same error (`Sink.Draws.ingest`). So an attempt at one size ends with the atlas of the
names served one after another (`composeAtSize_eq_served`). Serving a demand looks for a place as the grid does,
meeting it as the plain scan does; the two differ only where the search stops the program, so that an attempt
that does not stop gives the layout of the names (`composeAtSize_eq_layout`).
-/

namespace TextureAtlas

/-! ## Team-colour archives -/

theorem Settings.occursIn_iff {part whole : List Char} : occursIn part whole = true ↔ part <:+: whole := by
  induction whole with
  | nil => simp [occursIn]
  | cons c rest ih => rw [occursIn, Bool.or_eq_true, ih, List.infix_cons_iff, List.isPrefixOf_iff_prefix]

/-- Whether the marker occurs in the archive's name, ASCII case aside. -/
def Settings.markerOccurs (s : Settings) (archive : String) : Bool :=
  decide (lowerAscii s.logoMarker <:+: lowerAscii archive)

/-- Whether there is a marker, and it occurs in the archive's name. -/
def Settings.marks (s : Settings) (archive : String) : Bool := s.logoMarker != "" && s.markerOccurs archive

theorem Settings.isLogoArchive_eq_marks (s : Settings) : s.isLogoArchive = s.marks := by
  funext archive
  rw [isLogoArchive, marks, markerOccurs, Bool.eq_iff_iff]
  simp only [Bool.and_eq_true, Bool.not_eq_true', occursIn_iff, bne_iff_ne, decide_eq_true_eq, ne_eq,
    ← String.isEmpty_iff, Bool.not_eq_true]

/-! ## Demands served by the grid -/

namespace Layout
variable {W H : Nat} {l l' : Layout} {d : Demand} {demands : List Demand} {r : Rect}

/-- The blocks of a layout as a grid. -/
def grid (l : Layout) (W H : Nat) : Grid where
  width := W
  height := H
  occupied := .ofFn fun i : Fin (W * H) => (l.spotAt? (i % W) (i / W)).isSome
  logo := (l.atlas W H).logo
  occupied_size := Array.size_ofFn
  logo_size := (l.atlas W H).logo_size

/-- Meets one demand, with the place that the search of the grid gives. -/
def serve (W H : Nat) (l : Layout) : Demand → Except AtlasError Layout
  | .nothing => .ok l
  | .register name => .ok (if l.fragments.contains name then l else l.register name)
  | .place q =>
    if l.fragments.contains q.name then .ok l
    else match (l.grid W H).find q.width q.height with
      | .ok r => .ok (l.place q r)
      | .error e => .error (e.reported W H q.width q.height)

/-- The names served in the order given. -/
def serveNames (isLogo : String → Bool) (archives : List Archive) (side : UInt32) (W H : Nat)
    (names : List String) : Except AtlasError Layout :=
  (names.map (Demand.ofName isLogo archives side)).foldlM (serve W H) {}

theorem isOccupied_grid {px py : Nat} (hx : px < W) (hy : py < H) :
    (l.grid W H).isOccupied px py = (l.spotAt? px py).isSome := by
  have hcell := Plane.getD_ofFn hx hy false fun px py => (l.spotAt? px py).isSome
  simpa only [Grid.isOccupied, grid, hx, hy, decide_true, Bool.true_and] using hcell

theorem isLogo_grid {px py : Nat} (hx : px < W) (hy : py < H) : (l.grid W H).isLogo px py = l.isLogo px py := by
  have hcell := Plane.getD_ofFn hx hy false fun px py => l.isLogo px py
  simpa only [Grid.isLogo, grid, atlas, hx, hy, decide_true, Bool.true_and] using hcell

/-- Before the first block the grid is empty. -/
theorem grid_nil (W H : Nat) : grid {} W H = .empty W H := by
  refine Grid.ext_cells rfl rfl fun px py hx hy => ?_
  rw [Grid.isOccupied_empty, Grid.isLogo_empty]
  exact ⟨isOccupied_grid hx hy, isLogo_grid hx hy⟩

theorem isFree_grid (hr : r.Fits W H) : (l.grid W H).isFree r = l.isFree r := by
  rw [Bool.eq_iff_iff, Grid.isFree_iff, isFree_iff]
  constructor
  · intro hfree p hp px py hpx hpr
    have hcell := hfree px py hpr
    rw [isOccupied_grid (hr.lt hpr).1 (hr.lt hpr).2, Option.isSome_eq_false_iff, Option.isNone_iff_eq_none,
      spotAt?_eq_none] at hcell
    exact hcell p hp hpx
  · intro hapart px py hpr
    rw [isOccupied_grid (hr.lt hpr).1 (hr.lt hpr).2, Option.isSome_eq_false_iff, Option.isNone_iff_eq_none,
      spotAt?_eq_none]
    exact fun p hp hpx => hapart p hp px py hpx hpr

theorem scan_grid (l : Layout) (W H w h : Nat) :
    scanOrigins (l.grid W H).isFree W H w h = scanOrigins l.isFree W H w h :=
  scanOrigins_congr fun _ hr => isFree_grid hr

/-- What the search of the grid finds is what the scan finds. -/
theorem scan_of_find {w h : Nat} (hr : (l.grid W H).find w h = .ok r) : scanOrigins l.isFree W H w h = some r := by
  obtain ⟨hw, hh, hfit⟩ := Grid.find_firstFit hr
  rw [← scan_grid, scanOrigins_eq_some_iff]
  exact ⟨hw, hh, hfit.congr fun _ _ => Grid.isFree_iff.symm⟩

/-- Where the columns cannot all be added up, the search stops for want of room. -/
theorem find_grid_stops {w h : Nat} (hstops : UInt32.size ≤ W + 1 ∧ W * H < Grid.addressable) (hw : w ≤ W) (hh : h ≤ H)
    (hnone : scanOrigins l.isFree W H w h = none) : (l.grid W H).find w h = .error .overflow := by
  rw [← scan_grid, scanOrigins_eq_none_iff] at hnone
  exact Grid.find_stops hstops hw hh fun x y hf hfree => by rw [← Grid.isFree_iff, hnone x y hf] at hfree; cases hfree

theorem serve_place {q : Request} (hn : l.fragments.contains q.name = false)
    (hr : (l.grid W H).find q.width q.height = .ok r) : l.serve W H (.place q) = .ok (l.place q r) := by
  simp only [serve, hn, hr, Bool.false_eq_true, if_false]

theorem serve_refused {q : Request} {e : Refusal} (hn : l.fragments.contains q.name = false)
    (hr : (l.grid W H).find q.width q.height = .error e) :
    l.serve W H (.place q) = .error (e.reported W H q.width q.height) := by
  simp only [serve, hn, hr, Bool.false_eq_true, if_false]

theorem serveAll_cons (hd : l.serve W H d = .ok l') :
    (d :: demands).foldlM (serve W H) l = demands.foldlM (serve W H) l' := by
  rw [List.foldlM_cons, hd]; rfl

theorem serveAll_refused {err : AtlasError} (hd : l.serve W H d = .error err) :
    (d :: demands).foldlM (serve W H) l = .error err := by
  rw [List.foldlM_cons, hd]; rfl

/-- A demand is served as it is met, unless the search stops. -/
theorem serve_cases (W H : Nat) (l : Layout) (d : Demand) :
    l.serve W H d = l.meet W H d ∨ l.serve W H d = .error .overflow ∧ ¬ Grid.SumsFit W H := by
  cases d with
  | nothing => exact .inl rfl
  | register name => exact .inl rfl
  | place q =>
    simp only [serve, meet]
    split
    · exact .inl rfl
    · by_cases hr : (l.grid W H).find q.width q.height = .error .overflow
      · rw [hr]
        exact .inr ⟨rfl, (Grid.find_overflow hr).2.1⟩
      · have hfind : (l.grid W H).find q.width q.height = Grid.orFull (scanOrigins l.isFree W H q.width q.height) :=
          (Grid.find_eq_scanOrigins hr).trans (congrArg Grid.orFull (l.scan_grid W H q.width q.height))
        rw [hfind]
        cases scanOrigins l.isFree W H q.width q.height with
        | none => exact .inl rfl
        | some r => exact .inl rfl

theorem serveAll_cases (W H : Nat) (demands : List Demand) (l : Layout) :
    demands.foldlM (serve W H) l = demands.foldlM (meet W H) l ∨
      demands.foldlM (serve W H) l = .error .overflow ∧ ¬ Grid.SumsFit W H := by
  induction demands generalizing l with
  | nil => exact .inl rfl
  | cons d demands ih =>
    rw [List.foldlM_cons, List.foldlM_cons]
    rcases serve_cases W H l d with hd | ⟨hd, hfit⟩
    · rw [hd]
      cases l.meet W H d with
      | error e => exact .inl rfl
      | ok l' => exact ih l'
    · rw [hd]
      exact .inr ⟨rfl, hfit⟩

theorem serveNames_cases (isLogo : String → Bool) (archives : List Archive) (side : UInt32) (W H : Nat)
    (names : List String) :
    serveNames isLogo archives side W H names = ofNames isLogo archives side W H names ∨
      serveNames isLogo archives side W H names = .error .overflow ∧ ¬ Grid.SumsFit W H :=
  serveAll_cases W H _ {}

end Layout

namespace Sink

/-- The sink and the layout agree after the names `done`. A name that is registered without its pixels
is one of `done`, so none of the names to come is waiting for them. -/
structure Draws (side : UInt32) (W H : Nat) (done : List String) (s : Sink) (l : Layout) : Prop where
  swatchSize_eq : s.swatchSize = side
  width_eq : s.canvas.width = W
  height_eq : s.canvas.height = H
  fragments_eq : s.fragments = l.fragments
  isOccupied_eq : ∀ px py, s.canvas.grid.isOccupied px py = (l.spotAt? px py).isSome
  isLogo_eq : ∀ px py, s.canvas.grid.isLogo px py = l.isLogo px py
  pixel_eq : ∀ px py, s.canvas.pixel px py = l.pixel px py
  known_of_filled : ∀ name, s.Filled name → s.contains name = true
  filled_of_known : ∀ name, s.contains name = true → s.Filled name ∨ name ∈ done

/-- Both come to agree, or both fail alike. -/
def Agrees (side : UInt32) (W H : Nat) (done : List String) :
    Except AtlasError Unit × Sink → Except AtlasError Layout → Prop
  | (.ok (), s), .ok l => s.Draws side W H done l
  | (.error e, _), .error e' => e = e'
  | _, _ => False

variable {side n : UInt32} {W H : Nat} {done : List String} {s s' : Sink} {l : Layout} {name : String}
  {q : Request} {r : Rect}

/-! ## Free places -/

/-- The grid of the sink is that of the layout. -/
theorem Draws.grid_eq (h : s.Draws side W H done l) : s.canvas.grid = l.grid W H := by
  refine Grid.ext_cells h.width_eq h.height_eq fun px py hx hy => ?_
  rw [h.isOccupied_eq, h.isLogo_eq]
  exact ⟨(Layout.isOccupied_grid hx hy).symm, (Layout.isLogo_grid hx hy).symm⟩

theorem Draws.fits (h : s.Draws side W H done l) {w h' : Nat}
    (hr : scanOrigins l.isFree W H w h' = some r) : r.Fits s.canvas.width s.canvas.height := by
  obtain ⟨-, -, hfit⟩ := scanOrigins_eq_some_iff.1 hr
  rw [h.width_eq, h.height_eq]
  exact hfit.fits

/-- Free places are blank. -/
theorem Draws.pixel_eq_zero (h : s.Draws side W H done l) (hr : l.isFree r = true) {px py : Nat}
    (hp : r.HasPixel px py) : s.canvas.pixel px py = 0 := by
  have hnone : l.spotAt? px py = none :=
    Layout.spotAt?_eq_none.2 fun p hmem hpx => Layout.isFree_iff.1 hr p hmem px py hpx hp
  rw [h.pixel_eq, Layout.pixel, hnone]

/-! ## One demand -/

/-- A change of the wait and of the flag for team colour is no change of the drawing. -/
theorem Draws.of_eq (h : s.Draws side W H done l) (hc : s'.canvas = s.canvas)
    (hf : s'.fragments = s.fragments) (hd : s'.filled = s.filled) (hs : s'.swatchSize = s.swatchSize)
    (name : String) : s'.Draws side W H (name :: done) l where
  swatchSize_eq := hs.trans h.swatchSize_eq
  width_eq := hc ▸ h.width_eq
  height_eq := hc ▸ h.height_eq
  fragments_eq := hf.trans h.fragments_eq
  isOccupied_eq := hc ▸ h.isOccupied_eq
  isLogo_eq := hc ▸ h.isLogo_eq
  pixel_eq := hc ▸ h.pixel_eq
  known_of_filled m hm := by
    rw [Filled, hd] at hm
    rw [Sink.contains, hf]
    exact h.known_of_filled m hm
  filled_of_known m hm := by
    rw [Sink.contains, hf] at hm
    rw [Filled, hd]
    exact (h.filled_of_known m hm).imp_right (List.mem_cons_of_mem name)

theorem Draws.register (h : s.Draws side W H done l) (hc : s'.canvas = s.canvas)
    (hf : s'.fragments = s.fragments.insert name {}) (hd : s'.filled = s.filled)
    (hs : s'.swatchSize = s.swatchSize) : s'.Draws side W H (name :: done) (l.register name) where
  swatchSize_eq := hs.trans h.swatchSize_eq
  width_eq := hc ▸ h.width_eq
  height_eq := hc ▸ h.height_eq
  fragments_eq := by rw [hf, h.fragments_eq, Layout.register]
  isOccupied_eq := hc ▸ h.isOccupied_eq
  isLogo_eq := hc ▸ h.isLogo_eq
  pixel_eq := hc ▸ h.pixel_eq
  known_of_filled m hm := by
    rw [Filled, hd] at hm
    rw [Sink.contains, hf, Table.contains_insert]
    exact .inr (h.known_of_filled m hm)
  filled_of_known m hm := by
    rw [Sink.contains, hf, Table.contains_insert] at hm
    rw [Filled, hd]
    rcases hm with rfl | hm
    · exact .inr List.mem_cons_self
    · exact (h.filled_of_known m hm).imp_right (List.mem_cons_of_mem name)

/-- A block that has been reserved at its place, recorded and painted is drawn. -/
theorem Draws.place (h : s.Draws side W H done l)
    (hr : scanOrigins l.isFree W H q.width q.height = some r)
    (hgrid : s'.canvas.grid = s.canvas.grid.mark r q.logo)
    (hpixel : ∀ px py, s'.canvas.pixel px py =
      if r.HasPixel px py then q.paint (px - r.x) (py - r.y) else s.canvas.pixel px py)
    (hfrag : s'.fragments = s.fragments.insert q.name (Spot.fragment ⟨q, r⟩))
    (hsize : s'.swatchSize = s.swatchSize)
    (hfilled : s'.filled = s.filled.insert q.name () ∨ s'.filled = s.filled ∧ q.name = name) :
    s'.Draws side W H (name :: done) (l.place q r) := by
  obtain ⟨-, -, hfit⟩ := scanOrigins_eq_some_iff.1 hr
  have hfits := h.fits hr
  have hspot := Layout.spotAt?_place hfit.vacant q
  refine ⟨hsize.trans h.swatchSize_eq, ?_, ?_, ?_, fun px py => ?_, fun px py => ?_, fun px py => ?_,
    fun m hm => ?_, fun m hm => ?_⟩
  · rw [Canvas.width, hgrid]; exact h.width_eq
  · rw [Canvas.height, hgrid]; exact h.height_eq
  · rw [hfrag, h.fragments_eq, Layout.place]
  · rw [hgrid, Grid.isOccupied_mark hfits, h.isOccupied_eq, hspot]
    by_cases hp : r.HasPixel px py <;> simp [hp]
  · rw [hgrid, Grid.isLogo_mark hfits, h.isLogo_eq, Layout.isLogo, Layout.isLogo, hspot]
    by_cases hp : r.HasPixel px py <;> simp [hp]
  · rw [hpixel, h.pixel_eq, Layout.pixel, Layout.pixel, hspot]
    by_cases hp : r.HasPixel px py <;> simp [hp]
  · rw [Sink.contains, hfrag, Table.contains_insert]
    rcases hfilled with hfilled | ⟨hfilled, -⟩
    · rw [Filled, hfilled, Table.contains_insert] at hm
      exact hm.imp_right (h.known_of_filled m)
    · rw [Filled, hfilled] at hm
      exact .inr (h.known_of_filled m hm)
  · rw [Sink.contains, hfrag, Table.contains_insert] at hm
    rcases hfilled with hfilled | ⟨hfilled, hname⟩
    · rw [Filled, hfilled, Table.contains_insert]
      rcases hm with hm | hm
      · exact .inl (.inl hm)
      · exact (h.filled_of_known m hm).imp .inr (List.mem_cons_of_mem name)
    · rw [Filled, hfilled]
      rcases hm with rfl | hm
      · exact .inr (hname ▸ List.mem_cons_self)
      · exact (h.filled_of_known m hm).imp_right (List.mem_cons_of_mem name)

/-! ## One name -/

/-- An entry of a new name, with at least one frame and a free place. -/
theorem Draws.placed {e : ArchiveEntry} {frame : ArchiveFrame} {isLogo : Bool} (h : s.Draws side W H done l)
    (hr : scanOrigins l.isFree W H frame.width.toNat frame.height.toNat = some r) :
    ((((s.setLogo isLogo).awaiting e.name).placing e.name r frame.transparencyIndex isLogo).shown e.name r
      e.firstLayer?).endEntity.Draws side W H (e.name :: done)
        (l.place ⟨e.name, frame.width.toNat, frame.height.toNat, frame.transparencyIndex, isLogo,
          fun i j => (e.firstLayer?.getD #[]).getD (j * frame.width.toNat + i) 0⟩ r) := by
  obtain ⟨hw, -, hfit⟩ := scanOrigins_eq_some_iff.1 hr
  refine h.place hr ?_ (fun px py => ?_) ?_ ?_ ?_
  · exact grid_shown _ _ _ _
  · rw [← hw]
    exact pixel_shown_placing (s := (s.setLogo isLogo).awaiting e.name) (h.fits hr)
      (fun px py => h.pixel_eq_zero hfit.vacant) e.firstLayer? px py
  · simp only [endEntity, fragments_shown]
    exact Table.insert_insert _ _ _ _
  · exact swatchSize_shown _ _ _ _
  · exact (filled_shown _ _ _ _).imp_right (⟨·, rfl⟩)

theorem Draws.deliver (h : s.Draws side W H done l) {e : ArchiveEntry} (hnew : e.name ∉ done)
    (isLogo : Bool) :
    Agrees side W H (e.name :: done) (e.deliver receiver (s.setLogo isLogo))
      (l.serve W H (.ofEntry isLogo e)) := by
  have hknown : s.contains e.name = l.fragments.contains e.name := by rw [Sink.contains, h.fragments_eq]
  cases hc : l.fragments.contains e.name with
  | true =>
    have hfilled : s.Filled e.name :=
      (h.filled_of_known e.name (hknown.trans hc)).resolve_right hnew
    have hmeet : l.serve W H (.ofEntry isLogo e) = .ok l := by
      rw [Demand.ofEntry]
      split
      · simp only [Layout.serve, hc, if_true]
      · simp only [Layout.serve, hc, if_true]
    rw [deliver_filled (s := s.setLogo isLogo) (hknown.trans hc) hfilled, hmeet, Agrees]
    refine h.of_eq ?_ ?_ ?_ ?_ e.name <;> rfl
  | false =>
    have hunfilled : ¬ s.Filled e.name := fun hf => by
      have := h.known_of_filled e.name hf
      rw [hknown, hc] at this
      cases this
    rw [deliver_new (s := s.setLogo isLogo) (hknown.trans hc) hunfilled, Demand.ofEntry]
    cases hfr : e.frames with
    | nil =>
      simp only [Layout.serve, hc, Bool.false_eq_true, if_false, Agrees]
      exact h.register rfl rfl rfl rfl
    | cons frame frames =>
      have hgrid : (s.setLogo isLogo).canvas.grid = l.grid W H := h.grid_eq
      simp only [Layout.serve, hc, Bool.false_eq_true, if_false, ← hfr, hgrid]
      cases hr : (l.grid W H).find frame.width.toNat frame.height.toNat with
      | error e =>
        have hwidth : (s.setLogo isLogo).canvas.width = W := h.width_eq
        have hheight : (s.setLogo isLogo).canvas.height = H := h.height_eq
        simp only [Agrees, hwidth, hheight]
      | ok r => exact h.placed (Layout.scan_of_find hr)

theorem Draws.synthesize (h : s.Draws side W H done l) (n : UInt32) (name : String) :
    Agrees side W H (name :: done) (s.synthesize n) (l.serve W H (.ofSwatch side n)) := by
  have hknown : s.contains (ColorIndex.name n) = l.fragments.contains (ColorIndex.name n) := by
    rw [Sink.contains, h.fragments_eq]
  cases hc : l.fragments.contains (ColorIndex.name n) with
  | true =>
    rw [synthesize_known (hknown.trans hc)]
    simp only [Demand.ofSwatch, Layout.serve, hc, if_true, Agrees]
    refine h.of_eq ?_ ?_ ?_ ?_ name <;> rfl
  | false =>
    rw [synthesize_new (hknown.trans hc), h.swatchSize_eq, h.grid_eq]
    simp only [Demand.ofSwatch, Layout.serve, hc, Bool.false_eq_true, if_false]
    cases hr : (l.grid W H).find side.toNat side.toNat with
    | error e => simp only [Agrees, h.width_eq, h.height_eq]
    | ok r =>
      simp only [Agrees]
      have hscan := Layout.scan_of_find hr
      refine h.place hscan ?_ (fun px py => ?_) rfl rfl (.inl rfl)
      · exact Canvas.grid_paint _ _ _
      · rw [withSwatch, Canvas.pixel_paint]
        exact if_congr ⟨And.right, fun hp => ⟨(h.fits hscan).lt hp, hp⟩⟩ rfl rfl

theorem Draws.ingest (h : s.Draws side W H done l) (hnew : name ∉ done) (archives : List Archive)
    (settings : Settings) :
    Agrees side W H (name :: done) (s.ingest (.ofArchives archives) settings name)
      (l.serve W H (.ofName settings.isLogoArchive archives side name)) := by
  rw [Sink.ingest, TextureIndex.lookup_ofArchives, Demand.ofName]
  cases ha : archives.find? (·.contains name) with
  | some a =>
    have hcontains : a.contains name = true := by simpa using List.find?_some ha
    obtain ⟨e, he, rfl⟩ := Archive.entry?_of_contains hcontains
    simp only [Option.map_some, Reader.extract, Reader.ofArchive, he]
    exact h.deliver hnew _
  | none =>
    simp only [Option.map_none, synthesizeNamed]
    cases hn : ColorIndex.ofName? name with
    | none =>
      simp only [Layout.serve, Agrees]
      refine h.of_eq ?_ ?_ ?_ ?_ name <;> rfl
    | some n =>
      have hswatch := h.synthesize n name
      simp only
      cases hs : s.synthesize n with
      | mk result s' =>
        rw [hs] at hswatch
        cases result with
        | ok => exact hswatch
        | error e => exact hswatch

/-! ## All names -/

/-- The atlas of a drawing is that of its layout. -/
theorem Draws.finish_eq (h : s.Draws side W H done l) : s.finish = l.atlas W H := by
  obtain ⟨⟨indices, ⟨width, height, occupied, logo, ho, hl⟩, hs⟩, fragments, filled, pending, logoActive,
    swatchSize⟩ := s
  obtain ⟨-, rfl, rfl, rfl, -, hlogo, hpixel, -, -⟩ := h
  have hindices : indices = .ofFn fun i : Fin (width * height) => l.pixel (i % width) (i / width) :=
    Plane.eq_ofFn hs 0 fun px py hx hy => (Canvas.pixel_eq ⟨hx, hy⟩).symm.trans (hpixel px py)
  have hflags : logo = .ofFn fun i : Fin (width * height) => l.isLogo (i % width) (i / width) :=
    Plane.eq_ofFn hl false fun px py hx hy => by
      rw [← hlogo px py]
      simp [Grid.isLogo, hx, hy]
  subst hindices hflags
  rfl

theorem Draws.ingestAll (h : s.Draws side W H done l) {names : List String} (hnames : names.Nodup)
    (hnew : ∀ name ∈ names, name ∉ done) (archives : List Archive) (settings : Settings) :
    (Sink.ingestAll (.ofArchives archives) settings names s).map finish =
      ((names.map (Demand.ofName settings.isLogoArchive archives side)).foldlM (Layout.serve W H) l).map
        (·.atlas W H) := by
  induction names generalizing s l done with
  | nil => simp [Sink.ingestAll, Except.map, h.finish_eq, pure, Except.pure]
  | cons name names ih =>
    obtain ⟨hfresh, hnames⟩ := List.nodup_cons.1 hnames
    have hstep := h.ingest (hnew name List.mem_cons_self) archives settings
    rw [Sink.ingestAll, List.map_cons, List.foldlM_cons]
    cases hs : s.ingest (.ofArchives archives) settings name with
    | mk result s' =>
      cases hm : l.serve W H (Demand.ofName settings.isLogoArchive archives side name) with
      | ok l' =>
        rw [hs, hm] at hstep
        cases result with
        | ok =>
          refine ih hstep hnames fun m hrest hmem => ?_
          rcases List.mem_cons.1 hmem with rfl | hmem
          · exact hfresh hrest
          · exact hnew m (List.mem_cons_of_mem _ hrest) hmem
        | error e => exact hstep.elim
      | error e' =>
        rw [hs, hm] at hstep
        cases result with
        | ok => exact hstep.elim
        | error e =>
          cases hstep
          rfl

/-- The blank canvas draws the empty layout. -/
theorem draws_of_blank? (side : UInt32) (hW : 0 < W) (hH : 0 < H) :
    ∃ start, blank? W H = .ok start ∧ Draws side W H [] { start with swatchSize := side } {} := by
  obtain ⟨c, hc, hgrid, hpixel⟩ := Canvas.blank?_eq hW hH
  refine ⟨{ canvas := c }, by rw [blank?, hc]; rfl, ⟨rfl, ?_, ?_, rfl, ?_, ?_, hpixel, ?_, ?_⟩⟩
  · rw [Canvas.width, hgrid]; rfl
  · rw [Canvas.height, hgrid]; rfl
  · simp [hgrid, Layout.spotAt?]
  · simp [hgrid, Layout.isLogo, Layout.spotAt?]
  · intro name hname
    exact hname
  · intro name hname
    exact .inl hname

end Sink

theorem composeAtSize_eq_served (names : NameSet) (archives : List Archive) (settings : Settings) {W H : Nat}
    (hW : 0 < W) (hH : 0 < H) :
    composeAtSize names (.ofArchives archives) settings W H =
      (Layout.serveNames settings.isLogoArchive archives settings.swatchSize W H names.names).map
        (·.atlas W H) := by
  obtain ⟨start, hstart, hdraws⟩ := Sink.draws_of_blank? settings.swatchSize hW hH
  have hall := hdraws.ingestAll names.nodup_names (by simp) archives settings
  rw [Layout.serveNames, ← hall, composeAtSize, hstart]
  rfl

/-- An attempt gives the layout of the names, unless its search stops. -/
theorem composeAtSize_cases (names : NameSet) (archives : List Archive) (settings : Settings) {W H : Nat}
    (hW : 0 < W) (hH : 0 < H) :
    composeAtSize names (.ofArchives archives) settings W H =
        (Layout.ofNames settings.isLogoArchive archives settings.swatchSize W H names.names).map (·.atlas W H) ∨
      composeAtSize names (.ofArchives archives) settings W H = .error .overflow ∧ ¬ Grid.SumsFit W H := by
  rw [composeAtSize_eq_served names archives settings hW hH]
  rcases Layout.serveNames_cases settings.isLogoArchive archives settings.swatchSize W H names.names with h | ⟨h, hfit⟩
  · rw [h]
    exact .inl rfl
  · rw [h]
    exact .inr ⟨rfl, hfit⟩

theorem composeAtSize_eq_layout (names : NameSet) (archives : List Archive) (settings : Settings) {W H : Nat}
    (hW : 0 < W) (hH : 0 < H) (hfit : Grid.SumsFit W H) :
    composeAtSize names (.ofArchives archives) settings W H =
      (Layout.ofNames settings.isLogoArchive archives settings.swatchSize W H names.names).map
        (·.atlas W H) :=
  (composeAtSize_cases names archives settings hW hH).resolve_right fun hover => hover.2 hfit

/-- **An attempt at one size lays the names out.** It gives the atlas of their layout, or the full canvas
that the layout runs into. In a layout every block has the size that its request asks for, took the first
origin at which it overlaps no earlier block, and is recorded; a record that belongs to no block is that
of a name without pixels. The atlas shows each block at its place and nothing elsewhere. Only on a canvas too
large for the sums of the search can the attempt stop the program instead. -/
theorem composeAtSize_shows_layout (names : NameSet) (archives : List Archive) (settings : Settings)
    {W H : Nat} (hW : 0 < W) (hH : 0 < H) :
    (composeAtSize names (.ofArchives archives) settings W H =
        (Layout.ofNames settings.marks archives settings.swatchSize W H names.names).map (·.atlas W H) ∨
      composeAtSize names (.ofArchives archives) settings W H = .error .overflow ∧ ¬ Grid.SumsFit W H) ∧
      ∀ l, Layout.ofNames settings.marks archives settings.swatchSize W H names.names = .ok l →
        l.Proper W H ∧ l.ShownBy (l.atlas W H) := by
  constructor
  · rw [← settings.isLogoArchive_eq_marks]
    exact composeAtSize_cases names archives settings hW hH
  · intro l hl
    have hproper := Layout.proper_ofNames hl
    exact ⟨hproper, hproper.shownBy⟩

/-- A layer that only the second frame has is painted in the space of the first frame, with 0 for what it
lacks, and counts as team colour for the archive's name. -/
theorem composeAtSize_shows_late_layer :
    (composeAtSize (.ofNames ["plate"])
      (.ofArchives [⟨"LOGOS.gaf", [⟨"plate", [⟨2, 1, 9, []⟩, ⟨1, 1, 0, [#[5]]⟩]⟩]⟩]) {} 3 1).map
        (fun a => (a.indices, a.logo)) = .ok (#[5, 0, 0], #[true, true, false]) := by
  obtain ⟨hcases, -⟩ := composeAtSize_shows_layout (.ofNames ["plate"])
    [⟨"LOGOS.gaf", [⟨"plate", [⟨2, 1, 9, []⟩, ⟨1, 1, 0, [#[5]]⟩]⟩]⟩] {} (show 0 < 3 by decide)
    (show 0 < 1 by decide)
  rw [hcases.resolve_right fun hover => hover.2 (by decide)]
  rfl

/-! ## Where an attempt is not the layout -/

/-- A pixel, and a strip as long as the greatest width. -/
def pixelAndStrip : Archive :=
  ⟨"a.gaf", [⟨"pixel", [⟨1, 1, 0, []⟩]⟩, ⟨"strip", [⟨4294967295, 1, 0, []⟩]⟩]⟩

def pixelRequest (isLogo : Bool) : Request :=
  ⟨"pixel", 1, 1, 0, isLogo, fun i j => (#[] : Array UInt8).getD (j * 1 + i) 0⟩

def stripRequest (isLogo : Bool) : Request :=
  ⟨"strip", 4294967295, 1, 0, isLogo, fun i j => (#[] : Array UInt8).getD (j * 4294967295 + i) 0⟩

theorem demands_pixelAndStrip (isLogo : String → Bool) :
    ["pixel", "strip"].map (Demand.ofName isLogo [pixelAndStrip] 4) =
      [.place (pixelRequest (isLogo "a.gaf")), .place (stripRequest (isLogo "a.gaf"))] := rfl

theorem serve_pixel (isLogo : Bool) : Layout.serve 4294967295 1 {} (.place (pixelRequest isLogo)) =
    .ok (Layout.place {} (pixelRequest isLogo) ⟨0, 0, 1, 1⟩) := by
  have hroom : (Layout.grid {} 4294967295 1).find 1 1 = .ok ⟨0, 0, 1, 1⟩ := by
    rw [Layout.grid_nil]
    exact Grid.find_empty (by decide) (by decide) (by decide) (by decide)
  exact Layout.serve_place rfl hroom

/-- The strip fits at the origin alone, which the pixel has taken; behind it the search adds up one column too
many. -/
theorem serve_strip (isLogo : Bool) :
    Layout.serve 4294967295 1 (Layout.place {} (pixelRequest isLogo) ⟨0, 0, 1, 1⟩) (.place (stripRequest isLogo)) =
      .error .overflow := by
  have hnone : scanOrigins (Layout.place {} (pixelRequest isLogo) ⟨0, 0, 1, 1⟩).isFree 4294967295 1 4294967295 1 =
      none := by
    refine scanOrigins_eq_none_iff.2 fun x y hf => ?_
    simp only [Rect.Fits] at hf
    obtain ⟨rfl, rfl⟩ : x = 0 ∧ y = 0 := by omega
    simp [Layout.isFree, Layout.place, Rect.overlaps]
  exact Layout.serve_refused (e := .overflow) rfl
    (Layout.find_grid_stops (by decide) (Nat.le_refl _) (Nat.le_refl _) hnone)

/-- In one row of the greatest width an attempt at pixel and strip stops. -/
theorem composeAtSize_pixelAndStrip :
    composeAtSize (.ofNames ["pixel", "strip"]) (.ofArchives [pixelAndStrip]) {} 4294967295 1 = .error .overflow := by
  have hserved : Layout.serveNames (Settings.isLogoArchive {}) [pixelAndStrip] 4 4294967295 1 ["pixel", "strip"] =
      .error .overflow := by
    rw [Layout.serveNames, demands_pixelAndStrip, Layout.serveAll_cons (serve_pixel _)]
    exact Layout.serveAll_refused (serve_strip _)
  rw [composeAtSize_eq_served _ _ _ (by decide) (by decide)]
  exact congrArg (Except.map _) hserved

/-- An empty marker occurs in every name and still marks no archive. And where the sums of the search do not fit, an
attempt is not even the layout of the names under the marks that count. -/
theorem composeAtSize_ne_layout :
    (¬ ∀ (names : NameSet) (archives : List Archive) (settings : Settings) (W H : Nat), settings.Valid →
      0 < W → 0 < H →
        composeAtSize names (.ofArchives archives) settings W H =
          (Layout.ofNames settings.markerOccurs archives settings.swatchSize W H names.names).map
            (·.atlas W H)) ∧
    ¬ ∀ (names : NameSet) (archives : List Archive) (settings : Settings) (W H : Nat), settings.Valid →
      0 < W → 0 < H → W < UInt32.size → H < UInt32.size →
        composeAtSize names (.ofArchives archives) settings W H =
          (Layout.ofNames settings.marks archives settings.swatchSize W H names.names).map (·.atlas W H) := by
  constructor
  · intro h
    have hone := h (.ofNames ["t"]) [⟨"a.gaf", [⟨"t", [⟨1, 1, 0, [#[5]]⟩]⟩]⟩] { logoMarker := "" } 1 1 rfl
      Nat.one_pos Nat.one_pos
    rw [composeAtSize_eq_layout _ _ _ Nat.one_pos Nat.one_pos (by decide)] at hone
    have hlogo : some #[false] = some #[true] := congrArg (fun r => r.toOption.map (·.logo)) hone
    cases hlogo
  · intro h
    have hstrip := h (.ofNames ["pixel", "strip"]) [pixelAndStrip] {} 4294967295 1 rfl (by decide) (by decide)
      (by decide) (by decide)
    rw [composeAtSize_pixelAndStrip] at hstrip
    cases hl : Layout.ofNames (Settings.marks {}) [pixelAndStrip] ({} : Settings).swatchSize 4294967295 1
        (NameTable.names (.ofNames ["pixel", "strip"])) with
    | ok l => rw [hl] at hstrip; cases hstrip
    | error e =>
      obtain ⟨w, v, rfl⟩ := Layout.ofNames_error hl
      rw [hl] at hstrip
      cases hstrip

end TextureAtlas
