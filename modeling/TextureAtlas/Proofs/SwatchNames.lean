import TextureAtlas.Proofs.Registration

/-!
# Names that are read as the same swatch

`__colorIndex5`, `__colorIndex05` and `__colorIndex+5` all stand for the swatch of palette index 5, and
all of them register it under the first name. So a swatch is found under the name that was asked for only
if that is the printed one, and an archive's texture of the printed name loses its place to a swatch when
another spelling comes before it (`archive_texture_unless_displaced`).
-/

namespace TextureAtlas

/-! ## What synthesizing a name registers -/

theorem Sink.contains_withSwatch (s : Sink) (n : UInt32) (r : Rect) (m : String) :
    (s.withSwatch n r).contains m = true ↔ m = ColorIndex.name n ∨ s.contains m = true :=
  Table.contains_insert _ _ _ _

theorem Sink.contains_synthesize {s s' : Sink} {n : UInt32} (h : s.synthesize n = (.ok (), s')) (m : String) :
    s'.contains m = true ↔ m = ColorIndex.name n ∨ s.contains m = true := by
  cases hn : s.contains (ColorIndex.name n) with
  | true =>
    rw [synthesize_known hn] at h
    cases h
    constructor
    · exact .inr
    · rintro (rfl | hm)
      · exact hn
      · exact hm
  | false =>
    rw [synthesize_new hn] at h
    cases hr : s.canvas.grid.find s.swatchSize.toNat s.swatchSize.toNat with
    | error e => rw [hr] at h; cases h
    | ok r =>
      rw [hr] at h
      cases h
      exact s.contains_withSwatch n r m

theorem Sink.contains_synthesizeNamed {s s' : Sink} {name : String}
    (h : s.synthesizeNamed name = (.ok true, s')) :
    ∃ n, ColorIndex.ofName? name = some n ∧
      ∀ m, s'.contains m = true ↔ m = ColorIndex.name n ∨ s.contains m = true := by
  unfold synthesizeNamed at h
  cases hn : ColorIndex.ofName? name with
  | none => rw [hn] at h; cases h
  | some n =>
    simp only [hn] at h
    split at h
    · rename_i t ht
      cases h
      exact ⟨n, rfl, contains_synthesize ht⟩
    · cases h

/-- **A swatch goes by its printed name.** When a name has been synthesized, a fragment is registered
under exactly that name iff one was before or the name is a printed one. So every fragment of an atlas
has a requested name iff, for each requested name that no archive provides and that stands for a swatch,
the printed name of that swatch is requested too. -/
theorem registered_under_given_name_iff_printed (s : Sink) (name : String) (names : NameSet)
    (archives : List Archive) (settings : Settings) (W H : Nat) :
    (∀ s', s.synthesizeNamed name = (.ok true, s') →
      (s'.contains name = true ↔ s.contains name = true ∨ ∃ n, name = ColorIndex.name n)) ∧
    ∀ a, 0 < W → 0 < H → composeAtSize names (.ofArchives archives) settings W H = .ok a →
      ((∀ m, a.fragments.contains m = true → names.contains m = true) ↔
        ∀ other n, names.contains other = true → (TextureIndex.ofArchives archives).lookup other = none →
          ColorIndex.ofName? other = some n → names.contains (ColorIndex.name n) = true) := by
  constructor
  · intro s' h
    obtain ⟨n, hn, hcontains⟩ := Sink.contains_synthesizeNamed h
    rw [hcontains, or_comm]
    refine or_congr_right ⟨fun hname => ⟨n, hname⟩, ?_⟩
    rintro ⟨k, rfl⟩
    rw [ColorIndex.ofName?_name] at hn
    cases hn
    rfl
  · intro a hW hH ha
    constructor
    · intro hall other n hother hr hn
      apply hall
      rw [contains_fragments_iff hW hH ha]
      exact ⟨other, hother, by simp [TextureIndex.registeredName?, hr, hn]⟩
    · intro hprinted m hm
      obtain ⟨other, hother, hasks⟩ := (contains_fragments_iff hW hH ha m).1 hm
      rcases TextureIndex.registeredName?_eq_some.1 hasks with ⟨rfl, -⟩ | ⟨hr, n, hn, rfl⟩
      · exact hother
      · exact hprinted other n hother hr hn

/-- From a blank sink, a swatch with a leading zero in its name is registered without the zero. -/
theorem Sink.exists_synthesizeNamed_leading_zero : ∃ s s' : Sink, s.Reachable ∧
    s.synthesizeNamed "__colorIndex05" = (.ok true, s') ∧ s.fragments.names = [] ∧
      s'.fragments.names = ["__colorIndex5"] := by
  obtain ⟨start, hstart, hdraws⟩ := draws_of_blank? 4 (show 0 < 4 by decide) (show 0 < 4 by decide)
  have hread : ColorIndex.ofName? "__colorIndex05" = some 5 := by decide
  have hserve : Layout.serve 4 4 {} (.ofSwatch 4 5) = .ok (Layout.place {} _ ⟨0, 0, 4, 4⟩) :=
    ((Layout.serve_cases 4 4 {} (.ofSwatch 4 5)).resolve_right fun hover => hover.2 (by decide)).trans rfl
  have hagrees := hdraws.synthesize 5 "__colorIndex05"
  rw [hserve] at hagrees
  cases hs : Sink.synthesize { start with swatchSize := 4 } 5 with
  | mk result t =>
    rw [hs] at hagrees
    cases result with
    | error e => exact hagrees.elim
    | ok u =>
      refine ⟨_, t, ⟨4, 4, 4, [], start, hstart, rfl⟩, ?_, ?_, ?_⟩
      · simp only [synthesizeNamed, run, List.foldl_nil, hread, hs]
      · exact congrArg Table.keys hdraws.fragments_eq
      · rw [hagrees.fragments_eq]
        rfl

/-- The swatch of `__colorIndex05` is not found under that name; an atlas that asks for `__colorIndex5`
too has only names that were asked for. -/
theorem registered_under_printed_name :
    (∃ s s' : Sink, s.synthesizeNamed "__colorIndex05" = (.ok true, s') ∧
      ¬ s'.contains "__colorIndex05" = true) ∧
    ∃ a, composeAtSize (.ofNames ["__colorIndex05", "__colorIndex5"]) (.ofArchives []) {} 4 4 = .ok a ∧
      ∀ name, a.fragments.contains name = true →
        (NameTable.ofNames ["__colorIndex05", "__colorIndex5"]).contains name = true := by
  obtain ⟨s, s', -, hs, hnames, -⟩ := Sink.exists_synthesizeNamed_leading_zero
  constructor
  · refine ⟨s, s', hs, fun hcontains => ?_⟩
    rcases ((registered_under_given_name_iff_printed s _ {} [] {} 4 4).1 s' hs).1 hcontains with hknown | ⟨n, hn⟩
    · have hmem : "__colorIndex05" ∈ s.fragments.names := Table.mem_keys_iff.2 hknown
      rw [hnames] at hmem
      cases hmem
    · have hread := ColorIndex.ofName?_name n
      rw [← hn] at hread
      obtain rfl : 5 = n := Option.some.inj hread
      exact absurd hn (by decide)
  · have ha : ∃ a, composeAtSize (.ofNames ["__colorIndex05", "__colorIndex5"]) (.ofArchives []) {} 4 4 =
        .ok a := by
      rw [composeAtSize_eq_layout _ _ _ (by decide) (by decide) (by decide)]
      exact ⟨_, rfl⟩
    obtain ⟨a, ha⟩ := ha
    have hiff := (registered_under_given_name_iff_printed s "" _ _ _ _ _).2 a (by decide) (by decide) ha
    refine ⟨a, ha, hiff.2 fun other n hother _ hn => ?_⟩
    have hmem : other ∈ ["__colorIndex05", "__colorIndex5"] := Table.mem_keys_iff.2 hother
    have hfive : ColorIndex.ofName? other = some 5 := by
      rcases List.mem_pair.1 hmem with rfl | rfl <;> decide
    rw [Option.some.inj (hn.symm.trans hfive)]
    decide

/-- With a leading zero the registered name is another one than was given or requested. -/
theorem registered_without_leading_zero :
    (¬ ∀ (s s' : Sink) (name : String), s.Reachable → s.synthesizeNamed name = (.ok true, s') →
      s'.contains name = true) ∧
    ¬ ∀ (names : NameSet) (archives : List Archive) (settings : Settings) (W H : Nat) (a : Atlas),
      settings.Valid → 0 < W → 0 < H → composeAtSize names (.ofArchives archives) settings W H = .ok a →
        ∀ name, a.fragments.contains name = true → names.contains name = true := by
  constructor
  · intro h
    obtain ⟨s, s', hreach, hs, -, hnames⟩ := Sink.exists_synthesizeNamed_leading_zero
    have hmem : "__colorIndex05" ∈ s'.fragments.names := Table.mem_keys_iff.2 (h s s' _ hreach hs)
    rw [hnames] at hmem
    exact absurd hmem (by decide)
  · intro h
    have ha : ∃ a, composeAtSize (.ofNames ["__colorIndex05"]) (.ofArchives []) {} 4 4 = .ok a ∧
        a.fragments.contains "__colorIndex5" = true := by
      rw [composeAtSize_eq_layout _ _ _ (by decide) (by decide) (by decide)]
      exact ⟨_, rfl, rfl⟩
    obtain ⟨a, ha, hfive⟩ := ha
    exact absurd (h _ _ {} _ _ _ rfl (by decide) (by decide) ha _ hfive) (by decide)

/-! ## Textures under a swatch name -/

/-- An earlier one of the names, which no reader provides, is read as the swatch of this name. -/
def TextureIndex.Displaces (t : TextureIndex) (names : NameSet) (n : UInt32) (name : String) : Prop :=
  ColorIndex.name n = name ∧ ∃ other, names.contains other = true ∧ other < name ∧
    t.lookup other = none ∧ ColorIndex.ofName? other = some n

section
variable {names : NameSet} {archives : List Archive} {settings : Settings} {W H : Nat} {a : Atlas}
  {name : String} {reader : Reader}

/-- A provided name is the first to be registered as it is, unless an earlier name displaces it. -/
theorem TextureIndex.find?_registeredName? (hname : names.contains name = true)
    (hr : (ofArchives archives).lookup name = some reader) :
    ∃ m, (names.names.find? fun m => (ofArchives archives).registeredName? m = some name) = some m ∧
      ((m = name ∧ ∀ n, ¬ (ofArchives archives).Displaces names n name) ∨
        ∃ n, (ofArchives archives).Displaces names n name ∧ (ofArchives archives).lookup m = none ∧
          ColorIndex.ofName? m = some n) := by
  have hself : (ofArchives archives).registeredName? name = some name :=
    registeredName?_eq_some.2 (.inl ⟨rfl, by rw [hr]; rfl⟩)
  have hfirst : ∀ {x}, names.contains x = true → (ofArchives archives).registeredName? x = some name →
      ∃ m, (names.names.find? fun m => (ofArchives archives).registeredName? m = some name) = some m ∧
        (m = x ∨ m < x) := fun hx hasks =>
    exists_find?_le names.pairwise_names (Table.mem_keys_iff.2 hx) (by simpa using hasks)
  obtain ⟨m, hm, hle⟩ := hfirst hname hself
  have hasks : (ofArchives archives).registeredName? m = some name := by simpa using List.find?_some hm
  refine ⟨m, hm, ?_⟩
  rcases hle with rfl | hlt
  · refine .inl ⟨rfl, ?_⟩
    rintro n ⟨hn, other, hother, hlt, hrother, hnother⟩
    obtain ⟨k, hk, hle⟩ := hfirst hother (registeredName?_eq_some.2 (.inr ⟨hrother, n, hnother, hn⟩))
    obtain rfl : m = k := Option.some.inj (hm.symm.trans hk)
    rcases hle with rfl | hlt'
    · exact absurd hlt Std.lt_irrefl
    · exact absurd (Std.lt_trans hlt hlt') Std.lt_irrefl
  · rcases registeredName?_eq_some.1 hasks with ⟨rfl, -⟩ | ⟨hrm, n, hn, hnname⟩
    · exact absurd hlt Std.lt_irrefl
    · have hmem := Table.mem_keys_iff.1 (List.mem_of_find?_eq_some hm)
      exact .inr ⟨n, ⟨hnname, m, hmem, hlt, hrm, hn⟩, hrm, hn⟩

/-- **An archive's texture keeps its name unless a swatch was there before.** Its fragment has the size
and the key of the first frame and the flag of the archive. But where an earlier name, which no archive
provides, is read as the swatch of that name, the fragment is that swatch. -/
theorem archive_texture_unless_displaced {e : ArchiveEntry} {frame : ArchiveFrame}
    {frames : List ArchiveFrame} (hW : 0 < W) (hH : 0 < H)
    (ha : composeAtSize names (.ofArchives archives) settings W H = .ok a)
    (hname : names.contains name = true)
    (hr : (TextureIndex.ofArchives archives).lookup name = some reader)
    (he : reader.entry? name = some e) (hframes : e.frames = frame :: frames) :
    ((∀ n, ¬ (TextureIndex.ofArchives archives).Displaces names n name) →
      a.Places name frame.width.toNat frame.height.toNat frame.transparencyIndex
        (settings.isLogoArchive reader.name)) ∧
    ∀ n, (TextureIndex.ofArchives archives).Displaces names n name →
      a.Places name settings.swatchSize.toNat settings.swatchSize.toNat (n - 1) false := by
  obtain ⟨l, hl, hproper, rfl⟩ := exists_layout_of_composeAtSize hW hH ha
  obtain ⟨m, hm, hfirst⟩ := TextureIndex.find?_registeredName? hname hr
  have hrecord := Layout.record_ofNames hl name
  rw [hm] at hrecord
  obtain ⟨f, hf, hans⟩ := hrecord
  rcases hfirst with ⟨rfl, hfree⟩ | ⟨k, hdisplaces, hrm, hk⟩
  · refine ⟨fun _ => ?_, fun n hn => absurd hn (hfree n)⟩
    rw [Demand.ofName_of_provided hr he, Demand.ofEntry, hframes] at hans
    exact hproper.places hf hans
  · refine ⟨fun hfree => absurd hdisplaces (hfree k), fun n hn => ?_⟩
    have hkn : n = k := ColorIndex.name_injective (hn.1.trans hdisplaces.1.symm)
    rw [Demand.ofName_of_swatch hrm hk, Demand.ofSwatch] at hans
    rw [hkn]
    exact hproper.places hf hans

end

/-- The swatch of 6 is placed first and leaves the texture alone. -/
theorem archive_texture_beside_swatch :
    ∃ a, composeAtSize (.ofNames ["__colorIndex+6", "__colorIndex5"])
        (.ofArchives [⟨"LOGOS.gaf", [⟨"__colorIndex5", [⟨2, 1, 9, [#[7, 8]]⟩]⟩]⟩]) {} 8 8 = .ok a ∧
      a.Places "__colorIndex5" 2 1 9 true := by
  have hr : (TextureIndex.ofArchives [⟨"LOGOS.gaf", [⟨"__colorIndex5", [⟨2, 1, 9, [#[7, 8]]⟩]⟩]⟩]).lookup
      "__colorIndex5" = some (.ofArchive ⟨"LOGOS.gaf", [⟨"__colorIndex5", [⟨2, 1, 9, [#[7, 8]]⟩]⟩]⟩) := by
    rw [TextureIndex.lookup_ofArchives]
    rfl
  have ha : ∃ a, composeAtSize (.ofNames ["__colorIndex+6", "__colorIndex5"])
      (.ofArchives [⟨"LOGOS.gaf", [⟨"__colorIndex5", [⟨2, 1, 9, [#[7, 8]]⟩]⟩]⟩]) {} 8 8 = .ok a := by
    rw [composeAtSize_eq_layout _ _ _ (by decide) (by decide) (by decide)]
    exact ⟨_, rfl⟩
  obtain ⟨a, ha⟩ := ha
  refine ⟨a, ha, (archive_texture_unless_displaced (by decide) (by decide) ha (by decide) hr rfl rfl).1 ?_⟩
  rintro n ⟨hn, other, hother, hlt, -, hread⟩
  have hn : n = 5 := ColorIndex.name_injective (hn.trans (by decide : _ = ColorIndex.name 5))
  have hmem : other ∈ ["__colorIndex+6", "__colorIndex5"] := Table.mem_keys_iff.2 hother
  rcases List.mem_pair.1 hmem with rfl | rfl
  · rw [hn] at hread
    exact absurd hread (by decide)
  · exact absurd hlt Std.lt_irrefl

/-- `__colorIndex+5` takes the place of the texture `__colorIndex5`. -/
theorem archive_texture_displaced_by_plus_sign :
    ¬ ∀ (names : NameSet) (archives : List Archive) (settings : Settings) (W H : Nat) (a : Atlas)
      (name : String) (reader : Reader) (e : ArchiveEntry) (frame : ArchiveFrame) (frames : List ArchiveFrame),
      settings.Valid → 0 < W → 0 < H →
        composeAtSize names (.ofArchives archives) settings W H = .ok a → names.contains name = true →
        (TextureIndex.ofArchives archives).lookup name = some reader → reader.entry? name = some e →
        e.frames = frame :: frames →
          a.Places name frame.width.toNat frame.height.toNat frame.transparencyIndex
            (settings.isLogoArchive reader.name) := by
  intro h
  have ha : ∃ a, composeAtSize (.ofNames ["__colorIndex+5", "__colorIndex5"])
      (.ofArchives [⟨"a.gaf", [⟨"__colorIndex5", [⟨2, 1, 9, [#[7, 8]]⟩]⟩]⟩]) {} 8 8 = .ok a ∧
        a.placed? "__colorIndex5" = some ⟨⟨0, 0, 4, 4⟩, 4, false, true⟩ := by
    rw [composeAtSize_eq_layout _ _ _ (by decide) (by decide) (by decide)]
    exact ⟨_, rfl, rfl⟩
  obtain ⟨a, ha, hswatch⟩ := ha
  have hr : (TextureIndex.ofArchives [⟨"a.gaf", [⟨"__colorIndex5", [⟨2, 1, 9, [#[7, 8]]⟩]⟩]⟩]).lookup
      "__colorIndex5" = some (.ofArchive ⟨"a.gaf", [⟨"__colorIndex5", [⟨2, 1, 9, [#[7, 8]]⟩]⟩]⟩) := by
    rw [TextureIndex.lookup_ofArchives]
    rfl
  obtain ⟨r, htexture, -, -⟩ := h _ _ {} _ _ _ _ _ _ _ _ rfl (by decide) (by decide) ha
    (by decide) hr rfl rfl
  rw [hswatch] at htexture
  cases htexture

end TextureAtlas
