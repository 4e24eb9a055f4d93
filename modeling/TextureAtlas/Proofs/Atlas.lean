import TextureAtlas.Proofs.Sink.Moves

/-!
# The atlas of a finished sink

An atlas lists its placed fragments under distinct names. Those of a sound sink lie on the canvas, apart from each
other (`Sink.Sound.pairwise_apart`), and the team-colour mask is set on the ones of team-colour paint and nowhere
else (`Sink.Sound.logo_finish_iff`).
-/

namespace TextureAtlas

section
variable {a : Atlas} {name : String} {f : Fragment}

theorem Atlas.mem_placed : (name, f) ∈ a.placed ↔ a.placed? name = some f := by
  simp [placed, placed?, Table.mem_entries_iff]

theorem Atlas.nodup_placed (a : Atlas) : (a.placed.map (·.1)).Nodup :=
  List.Nodup.sublist (List.filter_sublist.map _) a.fragments.nodup_names

end

namespace Sink
variable {s : Sink} {width height : Nat} {name : String} {f : Fragment}

/-- The atlas keeps the placed fragments of the sink. -/
theorem placed?_finish : s.finish.placed? name = some f ↔ s.Places name f := by
  simp [Atlas.placed?, finish, Places, fragment?, Option.filter_eq_some_iff]

theorem mem_placed_finish : (name, f) ∈ s.finish.placed ↔ s.Places name f := Atlas.mem_placed.trans placed?_finish

/-- The edges of a placed fragment are formed without leaving 32 bits. -/
theorem Sound.inRange (h : s.Sound width height) (hw : width < UInt32.size) (hh : height < UInt32.size)
    (hf : s.finish.placed? name = some f) : f.rect.InRange :=
  (h.inside (placed?_finish.1 hf)).inRange hw hh

theorem Sound.pairwise_apart (h : s.Sound width height) :
    s.finish.placed.Pairwise fun e e' => e.2.rect.Apart e'.2.rect := by
  refine (List.pairwise_map.1 s.finish.nodup_placed).imp_of_mem fun he he' hne => ?_
  exact h.apart hne (mem_placed_finish.1 he) (mem_placed_finish.1 he')

theorem Sound.logo_finish_iff (h : s.Sound width height) {px py : Nat} (hx : px < width) (hy : py < height) :
    s.finish.logo.getD (py * s.finish.width + px) false = true ↔
      ∃ name f, s.finish.placed? name = some f ∧ f.logo = true ∧ f.rect.HasPixel px py := by
  have hcell := h.logo_iff px py
  simp only [Grid.isLogo, show s.canvas.grid.width = width from h.width_eq,
    show s.canvas.grid.height = height from h.height_eq, hx, hy, decide_true, Bool.true_and] at hcell
  rw [show s.finish.width = width from h.width_eq]
  simp only [placed?_finish]
  exact hcell

end Sink
end TextureAtlas
