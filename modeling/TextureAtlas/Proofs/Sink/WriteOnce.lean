import TextureAtlas.Proofs.Sink.Moves

/-!
# Placement and paint are final

`Sink.Extends` relates an earlier to a later sink: registered names stay registered, placed fragments
keep their record, reserved cells their reservation and flag, and painted pixels their value. Each
move of a sound sink goes to an extension (`Sink.Move.extends`), hence so does every run
(`Sink.extends_after_calls`).
-/

namespace TextureAtlas.Sink

/-- Everything that `s` has settled is still so in `t`. -/
structure Extends (s t : Sink) : Prop where
  registered : ∀ name, s.contains name = true → t.contains name = true
  record : ∀ name f, s.Places name f → t.Places name f
  reserved : ∀ px py, s.canvas.grid.isOccupied px py = true →
    t.canvas.grid.isOccupied px py = true ∧ t.canvas.grid.isLogo px py = s.canvas.grid.isLogo px py
  filled : ∀ name, s.Filled name → t.Filled name
  painted : ∀ name f, s.Filled name → s.Places name f → ∀ px py, f.rect.HasPixel px py →
    t.canvas.pixel px py = s.canvas.pixel px py

variable {s t u : Sink} {width height : Nat}

theorem Extends.refl (s : Sink) : s.Extends s where
  registered _ h := h
  record _ _ h := h
  reserved _ _ h := ⟨h, rfl⟩
  filled _ h := h
  painted _ _ _ _ _ _ _ := rfl

theorem Extends.trans (h : s.Extends t) (h' : t.Extends u) : s.Extends u where
  registered name hn := h'.registered name (h.registered name hn)
  record name f hp := h'.record name f (h.record name f hp)
  reserved px py ho := by
    obtain ⟨ho', hl⟩ := h.reserved px py ho
    obtain ⟨ho'', hl'⟩ := h'.reserved px py ho'
    exact ⟨ho'', hl'.trans hl⟩
  filled name hf := h'.filled name (h.filled name hf)
  painted name f hf hp px py hin := by
    rw [h'.painted name f (h.filled name hf) (h.record name f hp) px py hin]
    exact h.painted name f hf hp px py hin

/-! ## One move -/

theorem extends_register {name : String} (hn : s.contains name = false) :
    s.Extends { s with fragments := s.fragments.insert name {} } where
  registered _ h := (Table.contains_insert _ _ _ _).2 (.inr h)
  record _ _ hp := (places_register hn).2 hp
  reserved _ _ h := ⟨h, rfl⟩
  filled _ h := h
  painted _ _ _ _ _ _ _ := rfl

/-- Only free cells change when a fragment is placed. -/
theorem extends_placing {name : String} {r : Rect} {key : UInt32} {isLogo : Bool}
    (hr : s.canvas.grid.find r.w r.h = .ok r) (hn : ∀ f, ¬ s.Places name f) :
    s.Extends (s.placing name r key isLogo) where
  registered _ h := (Table.contains_insert _ _ _ _).2 (.inr h)
  record _ _ hp := (places_placing hn).2 (.inr hp)
  reserved px py ho := by
    have hfit := (Grid.find_firstFit hr).2.2
    have hout : ¬ r.HasPixel px py := by
      intro hin
      rw [hfit.vacant px py hin] at ho
      cases ho
    simp only [placing, Canvas.grid_reserve]
    rw [Grid.isOccupied_mark hfit.fits, Grid.isLogo_mark hfit.fits, if_neg hout, ho, Bool.or_true]
    exact ⟨rfl, rfl⟩
  filled _ h := h
  painted _ _ _ _ px py _ := Canvas.pixel_reserve _ _ _ px py

/-- Paint on one fragment does not reach another one. -/
theorem Sound.extends_paint (h : s.Sound width height) {name : String} {f : Fragment} {c : Canvas}
    (hp : s.Places name f) (hf : ¬ s.Filled name) (hg : c.grid = s.canvas.grid)
    (hc : ∀ px py, ¬ f.rect.HasPixel px py → c.pixel px py = s.canvas.pixel px py) :
    s.Extends { s with canvas := c, filled := s.filled.insert name () } where
  registered _ hn := hn
  record _ _ hq := hq
  reserved px py ho := by
    show c.grid.isOccupied px py = true ∧ c.grid.isLogo px py = s.canvas.grid.isLogo px py
    rw [hg]
    exact ⟨ho, rfl⟩
  filled _ hn := filled_insert.2 (.inr hn)
  painted n g hn hq px py hin := by
    have hne : n ≠ name := by
      rintro rfl
      exact hf hn
    exact hc px py (h.apart hne hq hp px py hin)

theorem Move.extends (hm : Move s t) (h : s.Sound width height) : s.Extends t := by
  cases hm with
  | turn pending logoActive hw => exact { Extends.refl s with }
  | register name hn => exact extends_register hn
  | place name r key isLogo hr hn => exact extends_placing hr hn
  | paint name f c hp hf hw hg hc => exact h.extends_paint hp hf hg hc

/-! ## Runs -/

theorem Moves.extends (hm : Moves s t) (h : s.Sound width height) : s.Extends t := by
  induction hm with
  | refl => exact .refl s
  | tail hms hm ih => exact ih.trans (hm.extends (Moves.sound hms h))

theorem Sound.extends_run (h : s.Sound width height) (calls : List Call) : s.Extends (s.run calls) :=
  (h.moves_run calls).extends h

/-- **Write once.** From any reachable sink, no sequence of further calls forgets a name, alters the
record of a placed fragment, frees a cell or changes its flag, or repaints a painted fragment. -/
theorem extends_after_calls (hs : s.Reachable) (calls : List Call) :
    (∀ name, s.contains name = true → (s.run calls).contains name = true) ∧
    (∀ name f, s.fragment? name = some f → f.placed = true → (s.run calls).fragment? name = some f) ∧
    (∀ px py, s.canvas.grid.isOccupied px py = true →
      (s.run calls).canvas.grid.isOccupied px py = true ∧
      (s.run calls).canvas.grid.isLogo px py = s.canvas.grid.isLogo px py) ∧
    (∀ name f, s.filled.contains name = true → s.fragment? name = some f →
      ∀ px py, f.rect.HasPixel px py →
        (s.run calls).canvas.pixel px py = s.canvas.pixel px py) := by
  obtain ⟨width, height, hsound⟩ := hs.sound
  have hext := hsound.extends_run calls
  refine ⟨hext.registered, fun name f hf hp => (hext.record name f ⟨hf, hp⟩).1, hext.reserved, ?_⟩
  intro name f hfill hf px py hin
  obtain ⟨g, hg⟩ := hsound.filled_placed name hfill
  obtain rfl : f = g := Option.some.inj (hf.symm.trans hg.1)
  exact hext.painted name f hfill hg px py hin

/-- A plate that is painted outlasts a second plate of another size and a layer out of turn. -/
theorem extends_after_second_plate : ∃ start, blank? 4 4 = .ok start ∧
    (run { start with swatchSize := 1 } [.beginEntity "plate", .beginFrame ⟨2, 2, 0⟩,
      .frameLayer #[3, 3, 3, 3], .endEntity]).Reachable ∧
    ∀ name f, (run { start with swatchSize := 1 } [.beginEntity "plate", .beginFrame ⟨2, 2, 0⟩,
      .frameLayer #[3, 3, 3, 3], .endEntity]).fragment? name = some f → f.placed = true →
      (run (run { start with swatchSize := 1 } [.beginEntity "plate", .beginFrame ⟨2, 2, 0⟩,
        .frameLayer #[3, 3, 3, 3], .endEntity]) [.beginEntity "plate", .beginFrame ⟨3, 3, 5⟩,
        .frameLayer #[9], .synthesize 7]).fragment? name = some f := by
  obtain ⟨start, hstart⟩ := exists_blank? (show 0 < 4 by decide) (show 0 < 4 by decide)
  have hreach : Reachable (run { start with swatchSize := 1 } [.beginEntity "plate", .beginFrame ⟨2, 2, 0⟩,
      .frameLayer #[3, 3, 3, 3], .endEntity]) := ⟨4, 4, 1, _, start, hstart, rfl⟩
  exact ⟨start, hstart, hreach, (extends_after_calls hreach _).2.1⟩

end TextureAtlas.Sink
