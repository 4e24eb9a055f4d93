import TextureAtlas.Proofs.Registration
import TextureAtlas.Proofs.SizeSearch

/-!
# What stays when more is asked for

Names are laid out in ascending order. So a name greater than all others finds them laid out as they are
without it, and adds at most one block of its own (`layout_kept_under_greater_name`). Wider limits only give
the search more sizes to try, and those of a greater width are all larger than the ones before: a greater
limit does not change an atlas that is found, and tall sizes give one that is no larger
(`search_kept_under_wider_limits`).
-/

namespace TextureAtlas

/-! ## One more demand -/

namespace Layout
variable {W H : Nat} {l l' : Layout} {q : Request} {r : Rect} {px py : Nat}

theorem pixel_place_of_not (hr : l.isFree r = true) (hp : ¬ r.HasPixel px py) :
    (l.place q r).pixel px py = l.pixel px py := by
  rw [pixel, pixel, spotAt?_place hr, if_neg hp]

theorem isLogo_place_of_not (hr : l.isFree r = true) (hp : ¬ r.HasPixel px py) :
    (l.place q r).isLogo px py = l.isLogo px py := by
  rw [isLogo, isLogo, spotAt?_place hr, if_neg hp]

/-- The second layout has one more record, and looks as the first one does outside the rectangle of that
record. -/
structure Adds (l l' : Layout) (name : String) (f : Fragment) : Prop where
  new : l.fragments.contains name = false
  fragments_eq : l'.fragments = l.fragments.insert name f
  pixel_eq : ∀ px py, ¬ f.rect.HasPixel px py → l'.pixel px py = l.pixel px py
  isLogo_eq : ∀ px py, ¬ f.rect.HasPixel px py → l'.isLogo px py = l.isLogo px py

theorem adds_of_serve {d : Demand} (hl : l.serve W H d = .ok l') : l' = l ∨ ∃ name f, l.Adds l' name f := by
  have hmeet : l.meet W H d = .ok l' := by
    rcases serve_cases W H l d with h | ⟨h, -⟩
    · rw [← h, hl]
    · rw [h] at hl
      cases hl
  rcases meet_inv hmeet with ⟨rfl, -⟩ | ⟨name, -, hn, rfl⟩ | ⟨q, r, -, hn, hr, rfl⟩
  · exact .inl rfl
  · exact .inr ⟨name, {}, hn, rfl, fun px py _ => rfl, fun px py _ => rfl⟩
  · have hfree := (scanOrigins_eq_some_iff.1 hr).2.2.vacant
    refine .inr ⟨q.name, Spot.fragment ⟨q, r⟩, hn, rfl, fun px py hp => ?_, fun px py hp => ?_⟩
    · exact pixel_place_of_not hfree hp
    · exact isLogo_place_of_not hfree hp

end Layout

/-! ## One more name -/

/-- The second atlas has the size of the first one, its fragments with their records and one more, and
differs from it only inside the rectangle of that fragment. -/
structure Atlas.Adds (a b : Atlas) (name : String) (f : Fragment) : Prop where
  width_eq : b.width = a.width
  height_eq : b.height = a.height
  new : a.fragments.get? name = none
  get?_eq : ∀ m, b.fragments.get? m = if m = name then some f else a.fragments.get? m
  indices_eq : ∀ px < a.width, ∀ py < a.height, ¬ f.rect.HasPixel px py →
    b.indices[py * a.width + px]? = a.indices[py * a.width + px]?
  logo_eq : ∀ px < a.width, ∀ py < a.height, ¬ f.rect.HasPixel px py →
    b.logo[py * a.width + px]? = a.logo[py * a.width + px]?

theorem Layout.Adds.atlas {W H : Nat} {l l' : Layout} {name : String} {f : Fragment} (h : l.Adds l' name f) :
    (l.atlas W H).Adds (l'.atlas W H) name f where
  width_eq := rfl
  height_eq := rfl
  new := Table.contains_eq_false_iff.1 h.new
  get?_eq m := by rw [Layout.atlas, h.fragments_eq, Table.get?_insert]; rfl
  indices_eq px hx py hy hp := by
    have hfirst := (Layout.atlas_getElem? (W := W) (H := H) l hx hy).1
    have hsecond := (Layout.atlas_getElem? (W := W) (H := H) l' hx hy).1
    rw [h.pixel_eq px py hp] at hsecond
    exact hsecond.trans hfirst.symm
  logo_eq px hx py hy hp := by
    have hfirst := (Layout.atlas_getElem? (W := W) (H := H) l hx hy).2
    have hsecond := (Layout.atlas_getElem? (W := W) (H := H) l' hx hy).2
    rw [h.isLogo_eq px py hp] at hsecond
    exact hsecond.trans hfirst.symm

variable {names : NameSet} {archives : List Archive} {settings : Settings} {W H : Nat}

/-- The demand of a name greater than all others is served last. -/
theorem composeAtSize_insert_of_greater (hW : 0 < W) (hH : 0 < H) {z : String}
    (hz : ∀ name, names.contains name = true → name < z) :
    composeAtSize (names.insert z ()) (.ofArchives archives) settings W H =
      ((Layout.serveNames settings.isLogoArchive archives settings.swatchSize W H names.names).bind fun l =>
        l.serve W H (Demand.ofName settings.isLogoArchive archives settings.swatchSize z)).map (·.atlas W H) := by
  rw [composeAtSize_eq_served _ _ _ hW hH, NameTable.names_insert_of_greater hz, Layout.serveNames, Layout.serveNames,
    List.map_append, List.foldlM_append]
  simp only [List.map_cons, List.map_nil, List.foldlM_cons, List.foldlM_nil, bind_pure]
  rfl

/-- **A name greater than all others leaves the layout as it is.** If the others do not fit, the attempt fails
in the same way with the greater name. If it succeeds, it does so without that name, and the name either
changes nothing or adds one fragment: the others have their records, and pixels and team-colour flags change
only inside the new one's rectangle. -/
theorem layout_kept_under_greater_name (names : NameSet) (archives : List Archive) (settings : Settings)
    {W H : Nat} (hW : 0 < W) (hH : 0 < H) (z : String) (hz : ∀ name, names.contains name = true → name < z) :
    (∀ e, composeAtSize names (.ofArchives archives) settings W H = .error e →
      composeAtSize (names.insert z ()) (.ofArchives archives) settings W H = .error e) ∧
    ∀ b, composeAtSize (names.insert z ()) (.ofArchives archives) settings W H = .ok b →
      ∃ a, composeAtSize names (.ofArchives archives) settings W H = .ok a ∧ (b = a ∨ ∃ name f, a.Adds b name f) := by
  rw [composeAtSize_insert_of_greater hW hH hz, composeAtSize_eq_served _ _ _ hW hH]
  cases Layout.serveNames settings.isLogoArchive archives settings.swatchSize W H names.names with
  | error e' =>
    constructor
    · rintro e ⟨⟩
      rfl
    · rintro b ⟨⟩
  | ok l =>
    constructor
    · rintro e ⟨⟩
    · intro b hb
      refine ⟨l.atlas W H, rfl, ?_⟩
      simp only [Except.bind] at hb
      cases hl : l.serve W H (Demand.ofName settings.isLogoArchive archives settings.swatchSize z) with
      | error e =>
        rw [hl] at hb
        cases hb
      | ok l' =>
        rw [hl] at hb
        cases hb
        rcases Layout.adds_of_serve hl with rfl | ⟨name, f, hadds⟩
        · exact .inl rfl
        · exact .inr ⟨name, f, hadds.atlas⟩

def platesAndRivets : Archive := ⟨"a.gaf", [⟨"plate", [⟨2, 1, 0, [#[5, 6]]⟩]⟩, ⟨"rivet", [.solid 1 1 9]⟩]⟩

/-- Behind a plate of two pixels, a rivet is added on a canvas of three and fails on one of two; the plate alone
fails on a single pixel, and then with the rivet, too. -/
theorem layout_kept_under_rivet :
    (∀ name, (NameTable.ofNames ["plate"]).contains name = true → name < "rivet") ∧
    composeAtSize ((NameTable.ofNames ["plate"]).insert "rivet" ()) (.ofArchives [platesAndRivets]) {} 1 1 =
      .error (.bufferFull 1 1 2 1) ∧
    ∃ a b, composeAtSize (.ofNames ["plate"]) (.ofArchives [platesAndRivets]) {} 3 1 = .ok a ∧
      composeAtSize ((NameTable.ofNames ["plate"]).insert "rivet" ()) (.ofArchives [platesAndRivets]) {} 3 1 = .ok b ∧
      (b = a ∨ ∃ name f, a.Adds b name f) := by
  have hgreater : ∀ name, (NameTable.ofNames ["plate"]).contains name = true → name < "rivet" := by
    intro name hname
    have hmem : name ∈ ["plate"] := Table.mem_keys_iff.2 hname
    obtain rfl := List.mem_singleton.1 hmem
    decide
  refine ⟨hgreater, ?_, ?_⟩
  · refine (layout_kept_under_greater_name (.ofNames ["plate"]) [platesAndRivets] {} Nat.one_pos Nat.one_pos "rivet"
      hgreater).1 _ ?_
    rw [composeAtSize_eq_layout _ _ _ Nat.one_pos Nat.one_pos (by decide)]
    rfl
  · have hb : ∃ b, composeAtSize ((NameTable.ofNames ["plate"]).insert "rivet" ()) (.ofArchives [platesAndRivets])
        {} 3 1 = .ok b := by
      rw [composeAtSize_eq_layout _ _ _ (by decide) Nat.one_pos (by decide)]
      exact ⟨_, rfl⟩
    obtain ⟨b, hb⟩ := hb
    obtain ⟨a, ha, hadds⟩ := (layout_kept_under_greater_name (.ofNames ["plate"]) [platesAndRivets] {} (by decide)
      Nat.one_pos "rivet" hgreater).2 b hb
    exact ⟨a, b, ha, hb, hadds⟩

/-! ## Wider limits -/

theorem Settings.InGrid.of_maxWidth_le {m : UInt32} (h : settings.InGrid W H) (hm : settings.maxWidth ≤ m) :
    ({ settings with maxWidth := m } : Settings).InGrid W H where
  width_eq := h.width_eq
  width_le := Nat.le_trans h.width_le hm
  shape := h.shape
  sides := h.sides

theorem Settings.InGrid.of_square_only
    (h : ({ settings with tallVariants := false } : Settings).InGrid W H) :
    ({ settings with tallVariants := true } : Settings).InGrid W H where
  width_eq := h.width_eq
  width_le := h.width_le
  shape := .inl (h.shape.resolve_right fun hshape => Bool.false_ne_true hshape.1)
  sides := h.sides

/-- The next width is at least twice this one, so all its sizes are larger, a tall one of this width included. -/
theorem Settings.InGrid.area_lt {s t : Settings} {W' H' : Nat} (h : s.InGrid W H) (h' : t.InGrid W' H')
    (hmin : t.minWidth = s.minWidth) (hpos : 0 < s.minWidth.toNat) (hlt : W < W') : W * H < W' * H' := by
  obtain ⟨k, hk⟩ := h.width_eq
  obtain ⟨k', hk'⟩ := h'.width_eq
  rw [hmin] at hk'
  have hexp : k < k' := by
    by_contra hge
    have hle : 2 ^ k' ≤ 2 ^ k := Nat.pow_le_pow_right Nat.two_pos (Nat.not_lt.1 hge)
    have : W' ≤ W := by
      rw [hk, hk']
      exact Nat.mul_le_mul_left _ hle
    omega
  have hdouble : 2 * W ≤ W' := by
    rw [hk, hk']
    calc 2 * (s.minWidth.toNat * 2 ^ k) = s.minWidth.toNat * 2 ^ (k + 1) := by ring
      _ ≤ s.minWidth.toNat * 2 ^ k' := Nat.mul_le_mul_left _ (Nat.pow_le_pow_right Nat.two_pos hexp)
  have hW : 0 < W := (h.pos hpos).1
  have hH : H ≤ 2 * W := by
    rcases h.shape with hH | ⟨-, hH⟩
    · omega
    · omega
  have hH' : W' ≤ H' := by
    rcases h'.shape with hH' | ⟨-, hH'⟩
    · omega
    · omega
  calc W * H ≤ W * (2 * W) := Nat.mul_le_mul_left _ hH
    _ < 2 * W * (2 * W) := Nat.mul_lt_mul_of_pos_right (by omega) (by omega)
    _ ≤ W' * H' := Nat.mul_le_mul hdouble (Nat.le_trans hdouble hH')

/-- The limits of the search do not matter to an attempt. -/
theorem composeAtSize_of_limits (hW : 0 < W) (hH : 0 < H) (m : UInt32) (tall : Bool) :
    composeAtSize names (.ofArchives archives) { settings with maxWidth := m, tallVariants := tall } W H =
      composeAtSize names (.ofArchives archives) settings W H := by
  rw [composeAtSize_eq_served _ _ _ hW hH, composeAtSize_eq_served _ _ _ hW hH]
  rfl

theorem size_of_composeAtSize (hW : 0 < W) (hH : 0 < H) {a : Atlas}
    (ha : composeAtSize names (.ofArchives archives) settings W H = .ok a) : a.width = W ∧ a.height = H := by
  obtain ⟨l, -, -, rfl⟩ := exists_layout_of_composeAtSize hW hH ha
  exact ⟨rfl, rfl⟩

/-- A greater limit on the width does not change an atlas that is found. -/
theorem compose_of_maxWidth_le {m : UInt32} (hs : settings.Valid)
    (hs' : ({ settings with maxWidth := m } : Settings).Valid) (hm : settings.maxWidth ≤ m) {a : Atlas}
    (ha : compose names (.ofArchives archives) settings = .ok (some a)) :
    compose names (.ofArchives archives) { settings with maxWidth := m } = .ok (some a) := by
  obtain ⟨W, H, hgrid, hsuccess, hleast⟩ := (compose_eq_some_iff hs).1 ha
  have hmin := hs.minWidth_pos
  refine (compose_eq_some_iff hs').2 ⟨W, H, hgrid.of_maxWidth_le hm, ?_, fun W' H' a' hgrid' hsuccess' => ?_⟩
  · obtain ⟨hW, hH⟩ := hgrid.pos hmin
    exact (composeAtSize_of_limits hW hH m settings.tallVariants).trans hsuccess
  · -- A size of the wider grid was tried before, or it is beyond the old limit and larger than `W × H`.
    rcases Nat.lt_or_ge settings.maxWidth.toNat W' with hbeyond | hwithin
    · exact .inr (hgrid.area_lt hgrid' rfl hmin (Nat.lt_of_le_of_lt hgrid.width_le hbeyond))
    · obtain ⟨hW, hH⟩ := hgrid'.pos hmin
      refine hleast W' H' a' ⟨hgrid'.width_eq, hwithin, hgrid'.shape, hgrid'.sides⟩ ?_
      exact (composeAtSize_of_limits hW hH m settings.tallVariants).symm.trans hsuccess'

/-- With tall sizes the search finds an atlas that is no larger, and another one only if it is smaller. -/
theorem compose_of_tallVariants (hs : settings.Valid) {a : Atlas}
    (ha : compose names (.ofArchives archives) { settings with tallVariants := false } = .ok (some a)) :
    ∃ b, compose names (.ofArchives archives) { settings with tallVariants := true } = .ok (some b) ∧
      (b = a ∨ b.width * b.height < a.width * a.height) := by
  have hsquare : ({ settings with tallVariants := false } : Settings).Valid := hs
  have htall : ({ settings with tallVariants := true } : Settings).Valid := hs
  obtain ⟨W, H, hgrid, hsuccess, -⟩ := (compose_eq_some_iff hsquare).1 ha
  obtain ⟨hW, hH⟩ := hgrid.pos hs.minWidth_pos
  have hsuccess' : composeAtSize names (.ofArchives archives) { settings with tallVariants := true } W H = .ok a :=
    (composeAtSize_of_limits hW hH settings.maxWidth true).trans
      ((composeAtSize_of_limits hW hH settings.maxWidth false).symm.trans hsuccess)
  obtain ⟨b, hb⟩ := exists_compose_of_success htall hgrid.of_square_only hsuccess'
  obtain ⟨W', H', hgrid', hb', hleast⟩ := (compose_eq_some_iff htall).1 hb
  refine ⟨b, hb, ?_⟩
  rcases hleast W H a hgrid.of_square_only hsuccess' with heq | hlt
  · obtain ⟨rfl, rfl⟩ := Prod.mk.inj heq
    exact .inl (Except.ok.inj (hb'.symm.trans hsuccess'))
  · obtain ⟨hW', hH'⟩ := hgrid'.pos hs.minWidth_pos
    obtain ⟨ha1, ha2⟩ := size_of_composeAtSize hW hH hsuccess
    obtain ⟨hb1, hb2⟩ := size_of_composeAtSize hW' hH' hb'
    rw [ha1, ha2, hb1, hb2]
    exact .inr hlt

/-- **Wider limits never make the result worse.** With a greater limit on the width the search gives the same
atlas, if it gave one before. With tall sizes it then gives one whose area is no larger, and the same one if the
areas are equal. -/
theorem search_kept_under_wider_limits (names : NameSet) (archives : List Archive) (settings : Settings)
    (hs : settings.Valid) :
    (∀ (m : UInt32) (a : Atlas), ({ settings with maxWidth := m } : Settings).Valid → settings.maxWidth ≤ m →
      compose names (.ofArchives archives) settings = .ok (some a) →
        compose names (.ofArchives archives) { settings with maxWidth := m } = .ok (some a)) ∧
    ∀ a : Atlas, compose names (.ofArchives archives) { settings with tallVariants := false } = .ok (some a) →
      ∃ b, compose names (.ofArchives archives) { settings with tallVariants := true } = .ok (some b) ∧
        b.width * b.height ≤ a.width * a.height ∧ (b.width * b.height = a.width * a.height → b = a) := by
  refine ⟨fun m a hs' hm => compose_of_maxWidth_le hs hs' hm, fun a ha => ?_⟩
  obtain ⟨b, hb, rfl | hlt⟩ := compose_of_tallVariants hs ha
  · exact ⟨b, hb, Nat.le_refl _, fun _ => rfl⟩
  · exact ⟨b, hb, Nat.le_of_lt hlt, fun heq => absurd heq (Nat.ne_of_lt hlt)⟩

def poleArchive : Archive := ⟨"a.gaf", [⟨"pole", [⟨1, 2, 0, [#[5, 6]]⟩]⟩]⟩

/-- A pole of one by two pixels is found a square canvas of width 2. That stays so up to width 8, and with tall
sizes there is still a canvas no larger. -/
theorem pole_kept_under_wider_limits :
    ({ minWidth := 1, maxWidth := 2, tallVariants := false } : Settings).Valid ∧
      ({ minWidth := 1, maxWidth := 8, tallVariants := false } : Settings).Valid ∧
      ∃ a, compose (.ofNames ["pole"]) (.ofArchives [poleArchive])
          { minWidth := 1, maxWidth := 2, tallVariants := false } = .ok (some a) ∧
        compose (.ofNames ["pole"]) (.ofArchives [poleArchive])
          { minWidth := 1, maxWidth := 8, tallVariants := false } = .ok (some a) ∧
        ∃ b, compose (.ofNames ["pole"]) (.ofArchives [poleArchive])
            { minWidth := 1, maxWidth := 2, tallVariants := true } = .ok (some b) ∧
          b.width * b.height ≤ a.width * a.height := by
  have hvalid : ({ minWidth := 1, maxWidth := 2, tallVariants := false } : Settings).Valid := rfl
  have hwider : ({ minWidth := 1, maxWidth := 8, tallVariants := false } : Settings).Valid := rfl
  have hsquare : ∃ a, composeAtSize (.ofNames ["pole"]) (.ofArchives [poleArchive])
      { minWidth := 1, maxWidth := 2, tallVariants := false } 2 2 = .ok a := by
    rw [composeAtSize_eq_layout _ _ _ Nat.two_pos Nat.two_pos (by decide)]
    exact ⟨_, rfl⟩
  obtain ⟨a', ha'⟩ := hsquare
  obtain ⟨a, ha⟩ := exists_compose_of_success hvalid ⟨⟨1, rfl⟩, by decide, .inl rfl, by decide⟩ ha'
  obtain ⟨hkept, htall⟩ := search_kept_under_wider_limits (.ofNames ["pole"]) [poleArchive]
    { minWidth := 1, maxWidth := 2, tallVariants := false } hvalid
  obtain ⟨b, hb, harea, -⟩ := htall a ha
  exact ⟨hvalid, hwider, a, ha, hkept 8 a hwider (by decide) ha, b, hb, harea⟩

end TextureAtlas
