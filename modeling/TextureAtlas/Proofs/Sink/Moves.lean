import Mathlib.Logic.Relation
import TextureAtlas.Proofs.Sink.Calls

/-!
# Sound sinks and their moves

`Sink.Sound` ties registry, painted names, pending entity, grid and pixels of a sink together. Every
call on a sound sink is a chain of at most three elementary moves (`Sink.Sound.moves_step`): awaiting
another entity, registering a name, placing a fragment at the first fit, painting a placed fragment
inside its rectangle. A move keeps a sink sound (`Sink.Move.sound`), so every run does
(`Sink.Sound.run`).
-/

namespace TextureAtlas.Sink

/-- What holds of a sink over a `width × height` canvas between any two calls. -/
structure Sound (width height : Nat) (s : Sink) : Prop where
  width_eq : s.canvas.width = width
  height_eq : s.canvas.height = height
  /-- Placed fragments lie on the canvas. -/
  inside : ∀ {name f}, s.Places name f → f.rect.Fits width height
  /-- Placed fragments have no pixel in common. -/
  apart : ∀ {m n f g}, m ≠ n → s.Places m f → s.Places n g → f.rect.Apart g.rect
  /-- The reserved cells are those of placed fragments. -/
  occupied_iff : ∀ px py, s.canvas.grid.isOccupied px py = true ↔
    ∃ name f, s.Places name f ∧ f.rect.HasPixel px py
  /-- The cells of team-colour paint are those of placed fragments of team-colour paint. -/
  logo_iff : ∀ px py, s.canvas.grid.isLogo px py = true ↔
    ∃ name f, s.Places name f ∧ f.logo = true ∧ f.rect.HasPixel px py
  /-- Nothing is painted but the pixels of painted fragments. -/
  blank : ∀ px py, (∀ name f, s.Filled name → s.Places name f → ¬ f.rect.HasPixel px py) →
    s.canvas.pixel px py = 0
  filled_placed : ∀ name, s.Filled name → ∃ f, s.Places name f
  pending_waits : ∀ name, s.pending = some name → s.contains name = true ∧ ¬ s.Filled name

/-- The elementary changes of a sink. -/
inductive Move (s : Sink) : Sink → Prop where
  | turn (pending : Option String) (logoActive : Bool)
      (hw : ∀ name, pending = some name → s.contains name = true ∧ ¬ s.Filled name) :
      Move s { s with pending, logoActive }
  | register (name : String) (hn : s.contains name = false) :
      Move s { s with fragments := s.fragments.insert name {} }
  | place (name : String) (r : Rect) (key : UInt32) (isLogo : Bool)
      (hr : s.canvas.grid.find r.w r.h = .ok r) (hn : ∀ f, ¬ s.Places name f) :
      Move s (s.placing name r key isLogo)
  | paint (name : String) (f : Fragment) (c : Canvas) (hp : s.Places name f) (hf : ¬ s.Filled name)
      (hw : s.pending ≠ some name) (hg : c.grid = s.canvas.grid)
      (hc : ∀ px py, ¬ f.rect.HasPixel px py → c.pixel px py = s.canvas.pixel px py) :
      Move s { s with canvas := c, filled := s.filled.insert name () }

variable {s t : Sink} {width height : Nat}

/-! ## Registry and painted names after a move -/

theorem places_register {name n : String} {f : Fragment} (hn : s.contains name = false) :
    Places { s with fragments := s.fragments.insert name {} } n f ↔ s.Places n f := by
  simp only [Places, fragment?, Table.get?_insert]
  by_cases hne : n = name
  · subst hne
    rw [if_pos rfl]
    have hnone : s.fragments.get? n = none := by
      simpa [contains, Table.contains] using hn
    simp only [hnone, Option.some.injEq, reduceCtorEq, false_and, iff_false]
    rintro ⟨rfl, hp⟩
    cases hp
  · rw [if_neg hne]

theorem places_placing {name n : String} {r : Rect} {key : UInt32} {b : Bool} {f : Fragment}
    (hn : ∀ f, ¬ s.Places name f) :
    (s.placing name r key b).Places n f ↔ (n = name ∧ f = ⟨r, key, b, true⟩) ∨ s.Places n f := by
  simp only [placing, Places, fragment?, Table.get?_insert]
  by_cases hne : n = name
  · subst hne
    simp only [if_true, Option.some.injEq, true_and]
    constructor
    · rintro ⟨rfl, -⟩
      exact .inl rfl
    · rintro (rfl | hp)
      · exact ⟨rfl, rfl⟩
      · exact absurd hp (hn f)
  · rw [if_neg hne]
    simp only [hne, false_and, false_or]

theorem filled_insert {c : Canvas} {p : Option String} {name n : String} :
    Filled { s with canvas := c, filled := s.filled.insert name (), pending := p } n ↔
      n = name ∨ s.Filled n :=
  Table.contains_insert _ _ _ _

/-! ## Moves keep a sink sound -/

/-- A first fit has no pixel of a placed fragment. -/
theorem Sound.apart_find (h : s.Sound width height) {r : Rect} {w v : Nat}
    (hr : s.canvas.grid.find w v = .ok r) {name : String} {f : Fragment} (hf : s.Places name f) :
    r.Apart f.rect := by
  intro px py hrp hfp
  have hfree := (Grid.find_firstFit hr).2.2.vacant px py hrp
  rw [(h.occupied_iff px py).2 ⟨name, f, hf, hfp⟩] at hfree
  cases hfree

theorem Sound.fits_find (h : s.Sound width height) {r : Rect} {w v : Nat}
    (hr : s.canvas.grid.find w v = .ok r) : r.Fits width height := by
  have := (Grid.find_firstFit hr).2.2.fits
  rwa [← h.width_eq, ← h.height_eq]

/-- A first fit has no paint. -/
theorem Sound.blank_find (h : s.Sound width height) {r : Rect} {w v px py : Nat}
    (hr : s.canvas.grid.find w v = .ok r) (hp : r.HasPixel px py) : s.canvas.pixel px py = 0 :=
  h.blank px py fun _ _ _ hf hfp => h.apart_find hr hf px py hp hfp

/-- A name that is not registered has not been painted. -/
theorem Sound.not_filled (h : s.Sound width height) {name : String} (hn : s.contains name = false) :
    ¬ s.Filled name := fun hf => by
  obtain ⟨f, hp⟩ := h.filled_placed name hf
  cases hp.contains.symm.trans hn

theorem Sound.turn (h : s.Sound width height) (pending : Option String) (logoActive : Bool)
    (hw : ∀ name, pending = some name → s.contains name = true ∧ ¬ s.Filled name) :
    Sound width height { s with pending, logoActive } where
  width_eq := h.width_eq
  height_eq := h.height_eq
  inside := h.inside
  apart := h.apart
  occupied_iff := h.occupied_iff
  logo_iff := h.logo_iff
  blank := h.blank
  filled_placed := h.filled_placed
  pending_waits := hw

theorem Sound.register (h : s.Sound width height) (name : String) (hn : s.contains name = false) :
    Sound width height { s with fragments := s.fragments.insert name {} } where
  width_eq := h.width_eq
  height_eq := h.height_eq
  inside hp := h.inside ((places_register hn).1 hp)
  apart hne hf hg := h.apart hne ((places_register hn).1 hf) ((places_register hn).1 hg)
  occupied_iff px py := by simp only [places_register hn, h.occupied_iff px py]
  logo_iff px py := by simp only [places_register hn, h.logo_iff px py]
  blank px py hout := h.blank px py fun n f hf hp => hout n f hf ((places_register hn).2 hp)
  filled_placed n hf := (h.filled_placed n hf).imp fun f hp => (places_register hn).2 hp
  pending_waits n hn' := by
    refine ⟨(Table.contains_insert _ _ _ _).2 (.inr (h.pending_waits n hn').1), (h.pending_waits n hn').2⟩

theorem Sound.place (h : s.Sound width height) (name : String) (r : Rect) (key : UInt32) (isLogo : Bool)
    (hr : s.canvas.grid.find r.w r.h = .ok r) (hn : ∀ f, ¬ s.Places name f) :
    (s.placing name r key isLogo).Sound width height where
  width_eq := h.width_eq
  height_eq := h.height_eq
  inside hp := by
    rcases (places_placing hn).1 hp with ⟨-, rfl⟩ | hp
    · exact h.fits_find hr
    · exact h.inside hp
  apart hne hf hg := by
    rcases (places_placing hn).1 hf with ⟨hm, rfl⟩ | hf'
    · rcases (places_placing hn).1 hg with ⟨hm', rfl⟩ | hg'
      · exact absurd (hm.trans hm'.symm) hne
      · exact h.apart_find hr hg'
    · rcases (places_placing hn).1 hg with ⟨-, rfl⟩ | hg'
      · exact (h.apart_find hr hf').symm
      · exact h.apart hne hf' hg'
  occupied_iff px py := by
    have hmark := Grid.isOccupied_mark (Grid.find_firstFit hr).2.2.fits isLogo px py
    simp only [placing, Canvas.grid_reserve] at hmark ⊢
    rw [hmark, Bool.or_eq_true, decide_eq_true_eq, h.occupied_iff px py]
    constructor
    · rintro (hin | ⟨n, f, hp, hin⟩)
      · exact ⟨name, _, (places_placing hn).2 (.inl ⟨rfl, rfl⟩), hin⟩
      · exact ⟨n, f, (places_placing hn).2 (.inr hp), hin⟩
    · rintro ⟨n, f, hp, hin⟩
      rcases (places_placing hn).1 hp with ⟨-, rfl⟩ | hp
      · exact .inl hin
      · exact .inr ⟨n, f, hp, hin⟩
  logo_iff px py := by
    have hmark := Grid.isLogo_mark (Grid.find_firstFit hr).2.2.fits isLogo px py
    simp only [placing, Canvas.grid_reserve] at hmark ⊢
    rw [hmark]
    by_cases hin : r.HasPixel px py
    · -- The pixel is of the new fragment alone.
      rw [if_pos hin]
      constructor
      · rintro rfl
        exact ⟨name, _, (places_placing hn).2 (.inl ⟨rfl, rfl⟩), rfl, hin⟩
      · rintro ⟨n, f, hp, hlogo, hin'⟩
        rcases (places_placing hn).1 hp with ⟨-, rfl⟩ | hp
        · exact hlogo
        · exact absurd hin' (h.apart_find hr hp px py hin)
    · rw [if_neg hin, h.logo_iff px py]
      constructor
      · rintro ⟨n, f, hp, hrest⟩
        exact ⟨n, f, (places_placing hn).2 (.inr hp), hrest⟩
      · rintro ⟨n, f, hp, hlogo, hin'⟩
        rcases (places_placing hn).1 hp with ⟨-, rfl⟩ | hp
        · exact absurd hin' hin
        · exact ⟨n, f, hp, hlogo, hin'⟩
  blank px py hout :=
    h.blank px py fun n f hf hp => hout n f hf ((places_placing hn).2 (.inr hp))
  filled_placed n hf := (h.filled_placed n hf).imp fun f hp => (places_placing hn).2 (.inr hp)
  pending_waits n hn' :=
    ⟨(Table.contains_insert _ _ _ _).2 (.inr (h.pending_waits n hn').1), (h.pending_waits n hn').2⟩

theorem Sound.paint (h : s.Sound width height) {name : String} {f : Fragment} {c : Canvas}
    (hp : s.Places name f) (hw : s.pending ≠ some name) (hg : c.grid = s.canvas.grid)
    (hc : ∀ px py, ¬ f.rect.HasPixel px py → c.pixel px py = s.canvas.pixel px py) :
    Sound width height { s with canvas := c, filled := s.filled.insert name () } where
  width_eq := (congrArg Grid.width hg).trans h.width_eq
  height_eq := (congrArg Grid.height hg).trans h.height_eq
  inside := h.inside
  apart := h.apart
  occupied_iff px py := by simp only [hg]; exact h.occupied_iff px py
  logo_iff px py := by simp only [hg]; exact h.logo_iff px py
  blank px py hout := by
    have hin : ¬ f.rect.HasPixel px py := hout name f (filled_insert.2 (.inl rfl)) hp
    rw [hc px py hin]
    exact h.blank px py fun n g hn hpn => hout n g (filled_insert.2 (.inr hn)) hpn
  filled_placed n hn := by
    rcases filled_insert.1 hn with rfl | hn
    · exact ⟨f, hp⟩
    · exact h.filled_placed n hn
  pending_waits n hn := by
    refine ⟨(h.pending_waits n hn).1, fun hfill => ?_⟩
    rcases filled_insert.1 hfill with rfl | hfill
    · exact hw hn
    · exact (h.pending_waits n hn).2 hfill

theorem Move.sound (hm : Move s t) (h : s.Sound width height) : t.Sound width height := by
  cases hm with
  | turn pending logoActive hw => exact h.turn pending logoActive hw
  | register name hn => exact h.register name hn
  | place name r key isLogo hr hn => exact h.place name r key isLogo hr hn
  | paint name f c hp hf hw hg hc => exact h.paint hp hw hg hc

/-! ## Every call is a chain of moves -/

/-- A chain of moves. -/
abbrev Moves : Sink → Sink → Prop := Relation.ReflTransGen Move

theorem Moves.sound (hm : Moves s t) (h : s.Sound width height) : t.Sound width height := by
  induction hm with
  | refl => exact h
  | tail _ hm ih => exact hm.sound ih

theorem moves_beginEntity (s : Sink) (name : String) :
    Moves s (s.beginEntity name) := by
  by_cases hn : s.contains name = true
  · refine .single ?_
    have := Move.turn (s := s) (if s.filled.contains name then none else some name) s.logoActive (by
      intro n hpend
      split at hpend
      · cases hpend
      · rename_i hf
        cases hpend
        exact ⟨hn, hf⟩)
    simpa only [beginEntity, if_pos (show s.fragments.contains name = true from hn)] using this
  · refine .tail (.single (.register name (Bool.eq_false_iff.2 hn))) ?_
    have := Move.turn (s := { s with fragments := s.fragments.insert name {} })
      (if s.filled.contains name then none else some name) s.logoActive (by
      intro n hpend
      split at hpend
      · cases hpend
      · rename_i hf
        cases hpend
        exact ⟨(Table.contains_insert _ _ _ _).2 (.inl rfl), hf⟩)
    simpa only [beginEntity, if_neg (show ¬ s.fragments.contains name = true from hn)] using this

theorem moves_beginFrame (s : Sink) (header : FrameHeader) :
    Moves s (s.beginFrame header).2 := by
  cases hw : s.waiting? with
  | none => rw [beginFrame_idle hw]
  | some p =>
    obtain ⟨name, f⟩ := p
    cases hp : f.placed with
    | true => rw [beginFrame_placed hw hp]
    | false =>
      rw [beginFrame_unplaced hw hp]
      cases hr : s.canvas.grid.find header.width.toNat header.height.toNat with
      | error e => exact .refl
      | ok r =>
        obtain ⟨hrw, hrh, -⟩ := Grid.find_firstFit hr
        refine .single (.place name r _ _ (by rw [hrw, hrh, hr]) fun g hg => ?_)
        have hfg : f = g := Option.some.inj ((waiting?_eq_some.1 hw).2.symm.trans hg.1)
        subst hfg
        cases hp.symm.trans hg.2

theorem Sound.moves_frameLayer (h : s.Sound width height) (pixels : Array UInt8) :
    Moves s (s.frameLayer pixels) := by
  cases hw : s.waiting? with
  | none => rw [frameLayer_idle hw]
  | some p =>
    obtain ⟨name, f⟩ := p
    cases hp : f.placed with
    | false => rw [frameLayer_unplaced hw hp]
    | true =>
      rw [frameLayer_placed hw hp]
      obtain ⟨hpend, hf⟩ := waiting?_eq_some.1 hw
      -- The wait ends first, then the name counts as painted.
      refine .tail (.single (.turn none s.logoActive fun n hn => nomatch hn)) ?_
      exact .paint name f _ ⟨hf, hp⟩ (h.pending_waits name hpend).2 (fun hn => nomatch hn)
        (Canvas.grid_writeRows ..) fun px py hin => Canvas.pixel_writeRows_of_not hin

theorem Sound.moves_synthesize (h : s.Sound width height) (n : UInt32) : Moves s (s.synthesize n).2 := by
  cases hn : s.contains (ColorIndex.name n) with
  | true => rw [synthesize_known hn]
  | false =>
    rw [synthesize_new hn]
    cases hr : s.canvas.grid.find s.swatchSize.toNat s.swatchSize.toNat with
    | error e => exact .refl
    | ok r =>
      obtain ⟨hrw, hrh, -⟩ := Grid.find_firstFit hr
      have hnew : ∀ f, ¬ s.Places (ColorIndex.name n) f := fun f hf => by
        rw [hf.contains] at hn; cases hn
      refine .tail (.single (.place (ColorIndex.name n) r (n - 1) false (by rw [hrw, hrh, hr]) hnew)) ?_
      refine .paint (ColorIndex.name n) _ _ ((places_placing hnew).2 (.inl ⟨rfl, rfl⟩)) ?_ ?_
        (Canvas.grid_paint ..) fun px py hin => Canvas.pixel_paint_of_not hin
      · exact h.not_filled hn
      · intro hpend
        rw [(h.pending_waits _ hpend).1] at hn
        cases hn

/-- Whatever is asked of a sound sink, it answers by elementary moves. -/
theorem Sound.moves_step (h : s.Sound width height) (call : Call) : Moves s (s.step call) := by
  cases call with
  | setLogo b => exact .single (.turn s.pending b h.pending_waits)
  | beginEntity name => exact moves_beginEntity s name
  | beginFrame header => exact moves_beginFrame s header
  | frameLayer pixels => exact h.moves_frameLayer pixels
  | endFrame => exact .refl
  | endEntity => exact .single (.turn none s.logoActive fun n hn => nomatch hn)
  | synthesize n => exact h.moves_synthesize n
  | synthesizeNamed name =>
    simp only [step, synthesizeNamed_snd]
    cases ColorIndex.ofName? name with
    | none => exact .refl
    | some n => exact h.moves_synthesize n

theorem Sound.moves_run (h : s.Sound width height) (calls : List Call) : Moves s (s.run calls) := by
  induction calls generalizing s with
  | nil => exact .refl
  | cons call calls ih =>
    have hstep := h.moves_step call
    exact hstep.trans (ih (hstep.sound h))

theorem Sound.run (h : s.Sound width height) (calls : List Call) : (s.run calls).Sound width height :=
  (h.moves_run calls).sound h

/-! ## Runs from a blank canvas -/

theorem exists_blank? (hw : 0 < width) (hh : 0 < height) : ∃ start, blank? width height = .ok start := by
  obtain ⟨c, hc, -⟩ := Canvas.blank?_eq hw hh
  exact ⟨_, by rw [blank?, hc]; rfl⟩

/-- A fresh sink has a blank canvas and nothing else. -/
theorem eq_of_blank? {start : Sink} (h : blank? width height = .ok start) :
    ∃ c : Canvas, start = { canvas := c } ∧ c.grid = .empty width height ∧ ∀ px py, c.pixel px py = 0 := by
  have hpos : 0 < width ∧ 0 < height := by
    by_cases hz : width = 0 ∨ height = 0
    · rw [blank?, Canvas.blank?, if_pos hz] at h
      cases h
    · omega
  obtain ⟨c, hc, hgrid, hpx⟩ := Canvas.blank?_eq hpos.1 hpos.2
  rw [blank?, hc] at h
  cases h
  exact ⟨c, rfl, hgrid, hpx⟩

theorem reachable_of_blank? {start : Sink} (h : blank? width height = .ok start) : start.Reachable := by
  refine ⟨width, height, 4, [], start, h, ?_⟩
  obtain ⟨c, rfl, -⟩ := eq_of_blank? h
  rfl

/-- A fresh sink has room for everything that is not larger than its canvas. -/
theorem find_of_blank? {start : Sink} (h : blank? width height = .ok start) {w v : Nat} (hw : w ≤ width)
    (hv : v ≤ height) (hw' : w < UInt32.size) (hv' : v < UInt32.size) :
    start.canvas.grid.find w v = .ok ⟨0, 0, w, v⟩ := by
  obtain ⟨c, rfl, hgrid, -⟩ := eq_of_blank? h
  rw [hgrid]
  exact Grid.find_empty hw hv hw' hv'

/-- A blank canvas with an empty registry is sound. -/
theorem sound_of_blank? {start : Sink} (h : blank? width height = .ok start) (swatchSize : UInt32) :
    Sound width height { start with swatchSize } := by
  obtain ⟨c, rfl, hgrid, hpx⟩ := eq_of_blank? h
  have hnone : ∀ name f, ¬ Places { canvas := c, swatchSize } name f := fun name f hp => nomatch hp.1
  exact {
    width_eq := congrArg Grid.width hgrid
    height_eq := congrArg Grid.height hgrid
    inside := fun hp => absurd hp (hnone _ _)
    apart := fun _ hp => absurd hp (hnone _ _)
    occupied_iff := fun px py => by
      simp only [hgrid, Grid.isOccupied_empty, Bool.false_eq_true, false_iff]
      rintro ⟨name, f, hp, -⟩
      exact hnone name f hp
    logo_iff := fun px py => by
      simp only [hgrid, Grid.isLogo_empty, Bool.false_eq_true, false_iff]
      rintro ⟨name, f, hp, -⟩
      exact hnone name f hp
    blank := fun px py _ => hpx px py
    filled_placed := fun name hf => nomatch hf
    pending_waits := fun name hp => nomatch hp }

theorem Reachable.sound (h : s.Reachable) : ∃ width height, s.Sound width height := by
  obtain ⟨width, height, swatchSize, calls, start, hstart, rfl⟩ := h
  exact ⟨width, height, (sound_of_blank? hstart swatchSize).run calls⟩

/-- **Every run is sound.** Whatever is asked of a sink over a fresh canvas, in whatever order and
whether it is granted or refused, fragments stay on the canvas and apart, the grid knows exactly
their cells and which of them are team colour, and nothing is painted outside painted fragments. -/
theorem sound_after_calls (hw : 0 < width) (hh : 0 < height) (swatchSize : UInt32) (calls : List Call) :
    ∃ start, blank? width height = .ok start ∧
      (run { start with swatchSize } calls).Sound width height ∧
      (run { start with swatchSize } calls).canvas.indices.size = width * height ∧
      (run { start with swatchSize } calls).canvas.grid.occupied.size = width * height ∧
      (run { start with swatchSize } calls).canvas.grid.logo.size = width * height := by
  obtain ⟨start, hstart⟩ := exists_blank? hw hh
  have hsound := (sound_of_blank? hstart swatchSize).run calls
  have hsize : width * height = _ := congrArg₂ (· * ·) hsound.width_eq.symm hsound.height_eq.symm
  refine ⟨start, hstart, hsound, ?_, ?_, ?_⟩
  · rw [hsize]; exact Canvas.indices_size _
  · rw [hsize]; exact Grid.occupied_size _
  · rw [hsize]; exact Grid.logo_size _

/-- A stray layer, an entity broken off by another one, a refused frame, an overlong layer, and a
swatch under a name that is registered already. -/
theorem sound_after_broken_stream : 0 < 4 ∧ 0 < 3 ∧ ∃ start, blank? 4 3 = .ok start ∧
    (run { start with swatchSize := 2 } [.frameLayer #[9], .beginEntity "hull", .beginFrame ⟨2, 3, 0⟩,
      .setLogo true, .beginEntity "mast", .beginFrame ⟨3, 1, 0⟩, .beginFrame ⟨1, 1, 7⟩,
      .frameLayer #[5, 6, 7], .beginEntity "__colorIndex3", .synthesizeNamed "__colorIndex03"]).Sound 4 3 := by
  obtain ⟨start, hstart, hsound, -⟩ := sound_after_calls (show 0 < 4 by decide) (show 0 < 3 by decide) 2 _
  exact ⟨by decide, by decide, start, hstart, hsound⟩

end TextureAtlas.Sink
