import TextureAtlas.Proofs.Composition
import TextureAtlas.Proofs.Sizes

/-!
# The search for a size

An attempt on archives at a candidate fails only for want of room, since no candidate is too large for the sums
of its search (`Settings.InGrid.sumsFit`). So the search passes over every failure and stops at the first
success (`composeAmong_eq_findSome?`). Areas increase along the candidates, hence the first
success is the one of least area (`compose_finds_least_size`).
-/

namespace TextureAtlas

/-- On a list of increasing measure the first success is the one of least measure. -/
theorem findSome?_eq_some_iff_least {α β : Type} {f : α → Option β} {measure : α → Nat} {l : List α}
    (hl : l.Pairwise fun a b => measure a < measure b) {b : β} :
    l.findSome? f = some b ↔
      ∃ a ∈ l, f a = some b ∧ ∀ c ∈ l, (f c).isSome = true → c = a ∨ measure a < measure c := by
  have hfirst : ∀ {b}, l.findSome? f = some b →
      ∃ a ∈ l, f a = some b ∧ ∀ c ∈ l, (f c).isSome = true → c = a ∨ measure a < measure c := by
    intro b hb
    obtain ⟨before, a, after, rfl, ha, hnone⟩ := List.findSome?_eq_some_iff.1 hb
    refine ⟨a, by simp, ha, fun c hc hsome => ?_⟩
    rcases List.mem_append.1 hc with hc | hc
    · rw [hnone c hc] at hsome
      cases hsome
    · rcases List.mem_cons.1 hc with rfl | hc
      · exact .inl rfl
      · exact .inr (List.rel_of_pairwise_cons (List.pairwise_append.1 hl).2.1 hc)
  refine ⟨hfirst, ?_⟩
  rintro ⟨a, ha, hab, hleast⟩
  obtain ⟨b', hb'⟩ := Option.isSome_iff_exists.1
    (List.findSome?_isSome_iff.2 ⟨a, ha, by rw [hab]; rfl⟩ : (l.findSome? f).isSome = true)
  obtain ⟨a', ha', hab', hleast'⟩ := hfirst hb'
  -- Each of `a` and `a'` is least among the successes.
  have heq : a' = a := by
    rcases hleast a' ha' (by rw [hab']; rfl) with h | h
    · exact h
    · rcases hleast' a ha (by rw [hab]; rfl) with h' | h'
      · exact h'.symm
      · omega
  rw [hb', ← hab', heq, hab]

theorem toOption_eq_some {ε α : Type} {x : Except ε α} {a : α} : x.toOption = some a ↔ x = .ok a := by
  cases x <;> simp [Except.toOption]

variable {names : NameSet} {archives : List Archive} {settings : Settings} {W H : Nat}

/-! ## Failures of an attempt -/

/-- No search of a candidate stops: one whose sums need more than 32 bits has at least `2 ^ 61` cells. -/
theorem Settings.InGrid.sumsFit (h : settings.InGrid W H) : Grid.SumsFit W H := by
  have hsides : W ≤ H ∧ H ≤ 2 * W := by
    rcases h.shape with rfl | ⟨-, rfl⟩
    · omega
    · omega
  have hsize : UInt32.size = 2 ^ 32 := rfl
  simp only [Grid.SumsFit, Grid.addressable]
  rcases Nat.lt_or_ge (2 * H) UInt32.size with hH | hH
  · omega
  · right
    calc 2 ^ 47 ≤ 2 ^ 30 * 2 ^ 31 := by decide
      _ ≤ W * H := Nat.mul_le_mul (by omega) (by omega)

theorem composeAtSize_error (hW : 0 < W) (hH : 0 < H) (hfit : Grid.SumsFit W H) {e : AtlasError}
    (h : composeAtSize names (.ofArchives archives) settings W H = .error e) :
    ∃ w h, e = .bufferFull W H w h := by
  rw [composeAtSize_eq_layout names archives settings hW hH hfit] at h
  cases hl : Layout.ofNames settings.isLogoArchive archives settings.swatchSize W H names.names with
  | ok l => rw [hl] at h; cases h
  | error e' =>
    rw [hl] at h
    cases h
    exact Layout.ofNames_error hl

/-- The search stops at the first attempt that succeeds, if every failure is a full canvas. -/
theorem composeAmong_eq_findSome? {index : TextureIndex} {sizes : List (Nat × Nat)}
    (hfull : ∀ p ∈ sizes, ∀ e, composeAtSize names index settings p.1 p.2 = .error e →
      e.isBufferFull = true) :
    composeAmong names index settings sizes =
      .ok (sizes.findSome? fun p => (composeAtSize names index settings p.1 p.2).toOption) := by
  induction sizes with
  | nil => rfl
  | cons p sizes ih =>
    obtain ⟨width, height⟩ := p
    rw [composeAmong, List.findSome?_cons]
    cases hp : composeAtSize names index settings width height with
    | ok atlas => rfl
    | error e =>
      have hrest := ih fun p hmem => hfull p (List.mem_cons_of_mem _ hmem)
      simp only [hfull (width, height) List.mem_cons_self e hp, if_true, hrest]
      rfl

theorem Settings.Valid.minWidth_eq (hs : settings.Valid) : ∃ k, settings.minWidth.toNat = 2 ^ k := by
  have hmin : isPowerOfTwo settings.minWidth.toNat = true := by
    by_contra hmin
    rw [Settings.Valid, Settings.validate, Bool.eq_false_of_not_eq_true hmin] at hs
    cases hs
  exact (isPowerOfTwo_iff _).1 hmin

theorem Settings.Valid.minWidth_pos (hs : settings.Valid) : 0 < settings.minWidth.toNat := by
  obtain ⟨k, hk⟩ := hs.minWidth_eq
  exact hk ▸ Nat.two_pow_pos k

/-- Settings are checked before the search. -/
theorem valid_of_compose {index : TextureIndex} {result : Option Atlas}
    (h : compose names index settings = .ok result) : settings.Valid := by
  cases hv : settings.validate with
  | ok u => exact hv
  | error e =>
    rw [compose, hv] at h
    cases h

theorem compose_eq_composeAmong {index : TextureIndex} (hs : settings.Valid) :
    compose names index settings = composeAmong names index settings settings.sizes := by
  have hvalid : settings.validate = .ok () := hs
  rw [compose, hvalid]
  rfl

/-- Composing valid settings is the search of the candidates for the first success. -/
theorem compose_eq_findSome? (hs : settings.Valid) :
    compose names (.ofArchives archives) settings =
      .ok (settings.sizes.findSome? fun p =>
        (composeAtSize names (.ofArchives archives) settings p.1 p.2).toOption) := by
  rw [compose_eq_composeAmong hs]
  refine composeAmong_eq_findSome? fun p hp e he => ?_
  obtain ⟨hmin, hgrid⟩ := Settings.mem_sizes_iff.1 hp
  obtain ⟨w, h, rfl⟩ := composeAtSize_error (hgrid.pos hmin).1 (hgrid.pos hmin).2 hgrid.sumsFit he
  rfl

/-! ## The result -/

/-- The attempt at a size of the grid succeeds, and at every other size of the grid that succeeds the
area is greater. -/
structure IsLeastSuccess (attempt : Nat → Nat → Except AtlasError Atlas) (settings : Settings) (W H : Nat)
    (a : Atlas) : Prop where
  inGrid : settings.InGrid W H
  success : attempt W H = .ok a
  least : ∀ W' H' a', settings.InGrid W' H' → attempt W' H' = .ok a' →
    (W', H') = (W, H) ∨ W * H < W' * H'

theorem compose_eq_some_iff (hs : settings.Valid) {a : Atlas} :
    compose names (.ofArchives archives) settings = .ok (some a) ↔
      ∃ W H, IsLeastSuccess (composeAtSize names (.ofArchives archives) settings) settings W H a := by
  have hmin := hs.minWidth_pos
  rw [compose_eq_findSome? hs, Except.ok.injEq,
    findSome?_eq_some_iff_least settings.sizes_pairwise_area]
  constructor
  · rintro ⟨⟨W, H⟩, hmem, hsuccess, hleast⟩
    refine ⟨W, H, (Settings.mem_sizes_iff.1 hmem).2, toOption_eq_some.1 hsuccess, ?_⟩
    intro W' H' a' hgrid hsuccess'
    refine hleast (W', H') (Settings.mem_sizes_iff.2 ⟨hmin, hgrid⟩) ?_
    rw [toOption_eq_some.2 hsuccess']
    rfl
  · rintro ⟨W, H, hgrid, hsuccess, hleast⟩
    refine ⟨(W, H), Settings.mem_sizes_iff.2 ⟨hmin, hgrid⟩, ?_, ?_⟩
    · exact toOption_eq_some.2 hsuccess
    · rintro ⟨W', H'⟩ hmem hsome
      obtain ⟨a', ha'⟩ := Option.isSome_iff_exists.1 hsome
      exact hleast W' H' a' (Settings.mem_sizes_iff.1 hmem).2 (toOption_eq_some.1 ha')

theorem compose_eq_none_iff (hs : settings.Valid) :
    compose names (.ofArchives archives) settings = .ok none ↔
      ∀ W H, settings.InGrid W H → ∃ w h,
        composeAtSize names (.ofArchives archives) settings W H = .error (.bufferFull W H w h) := by
  have hmin := hs.minWidth_pos
  rw [compose_eq_findSome? hs, Except.ok.injEq, List.findSome?_eq_none_iff]
  constructor
  · intro hnone W H hgrid
    have hfails := hnone (W, H) (Settings.mem_sizes_iff.2 ⟨hmin, hgrid⟩)
    cases hp : composeAtSize names (.ofArchives archives) settings W H with
    | ok a => simp [hp, Except.toOption] at hfails
    | error e =>
      obtain ⟨w, h, rfl⟩ := composeAtSize_error (hgrid.pos hmin).1 (hgrid.pos hmin).2 hgrid.sumsFit hp
      exact ⟨w, h, rfl⟩
  · rintro hfull ⟨W, H⟩ hmem
    obtain ⟨w, h, hp⟩ := hfull W H (Settings.mem_sizes_iff.1 hmem).2
    simp only [hp, Except.toOption]

/-- One size of the grid that holds every name is enough for the search. -/
theorem exists_compose_of_success (hs : settings.Valid) (hgrid : settings.InGrid W H) {a : Atlas}
    (ha : composeAtSize names (.ofArchives archives) settings W H = .ok a) :
    ∃ a, compose names (.ofArchives archives) settings = .ok (some a) := by
  have hsome : (settings.sizes.findSome? fun p =>
      (composeAtSize names (.ofArchives archives) settings p.1 p.2).toOption).isSome = true := by
    rw [List.findSome?_isSome_iff]
    exact ⟨(W, H), Settings.mem_sizes_iff.2 ⟨hs.minWidth_pos, hgrid⟩, by rw [toOption_eq_some.2 ha]; rfl⟩
  obtain ⟨a, ha⟩ := Option.isSome_iff_exists.1 hsome
  exact ⟨a, by rw [compose_eq_findSome? hs, ha]⟩

/-- **The search gives the least canvas that holds every name.** It never fails. It gives an atlas iff the
attempt at some size of the grid does, and then the one at the size of least area among those; it gives
none iff every size of the grid ends with a full canvas. -/
theorem compose_finds_least_size (names : NameSet) (archives : List Archive) (settings : Settings)
    (hs : settings.Valid) :
    (∀ e, compose names (.ofArchives archives) settings ≠ .error e) ∧
      ((∃ a, compose names (.ofArchives archives) settings = .ok (some a)) ↔
        ∃ W H a, settings.InGrid W H ∧ composeAtSize names (.ofArchives archives) settings W H = .ok a) ∧
      (∀ a, compose names (.ofArchives archives) settings = .ok (some a) ↔
        ∃ W H, IsLeastSuccess (composeAtSize names (.ofArchives archives) settings) settings W H a) ∧
      (compose names (.ofArchives archives) settings = .ok none ↔
        ∀ W H, settings.InGrid W H → ∃ w h,
          composeAtSize names (.ofArchives archives) settings W H = .error (.bufferFull W H w h)) := by
  refine ⟨fun e he => ?_, ⟨?_, ?_⟩, fun a => compose_eq_some_iff hs, compose_eq_none_iff hs⟩
  · rw [compose_eq_findSome? hs] at he
    cases he
  · rintro ⟨a, ha⟩
    obtain ⟨W, H, hleast⟩ := (compose_eq_some_iff hs).1 ha
    exact ⟨W, H, a, hleast.inGrid, hleast.success⟩
  · rintro ⟨W, H, a, hgrid, hsuccess⟩
    -- Without an atlas this size would end with a full canvas, too.
    cases hc : settings.sizes.findSome? fun p =>
        (composeAtSize names (.ofArchives archives) settings p.1 p.2).toOption with
    | some a' => exact ⟨a', by rw [compose_eq_findSome? hs, hc]⟩
    | none =>
      have hnone : compose names (.ofArchives archives) settings = .ok none := by
        rw [compose_eq_findSome? hs, hc]
      obtain ⟨w, h, hfull⟩ := (compose_eq_none_iff hs).1 hnone W H hgrid
      rw [hfull] at hsuccess
      cases hsuccess

/-- A plate of two by one pixels is found a canvas when the widths 1 and 2 may be tried. -/
theorem compose_finds_size_for_plate :
    ({ minWidth := 1, maxWidth := 2, tallVariants := false } : Settings).Valid ∧
      ∃ a, compose (.ofNames ["plate"]) (.ofArchives [⟨"a.gaf", [⟨"plate", [⟨2, 1, 0, [#[5, 6]]⟩]⟩]⟩])
        { minWidth := 1, maxWidth := 2, tallVariants := false } = .ok (some a) := by
  have hvalid : ({ minWidth := 1, maxWidth := 2, tallVariants := false } : Settings).Valid := rfl
  refine ⟨hvalid, (compose_finds_least_size _ _ _ hvalid).2.1.2 ⟨2, 2, ?_⟩⟩
  rw [composeAtSize_eq_layout _ _ _ Nat.two_pos Nat.two_pos (by decide)]
  exact ⟨_, ⟨⟨1, rfl⟩, by decide, .inl rfl, by decide⟩, rfl⟩

end TextureAtlas
