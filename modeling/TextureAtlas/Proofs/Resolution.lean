import TextureAtlas.Proofs.Sink.Entries
import TextureAtlas.Proofs.SizeSearch

/-!
# What the index resolves

Bringing a name onto the canvas asks the index for one thing only: which reader provides the name, and
what that reader delivers (`Sink.ingest_eq`). So indices that resolve the requested names alike give the
same atlas, and names that stand for nothing may be left out (`compose_depends_on_resolved_names`). A
reader may announce a name without having an entry of it. The attempt then ends at the first such name
with an error that no larger canvas cures, unless the canvas is full before (`composeAtSize_of_missing`);
the search reports that error from the first size on that holds the names before
(`missing_entry_is_reported`).
-/

namespace TextureAtlas

/-- The name of the reader that provides the name, and the entry that it has of it, if it has one. -/
def TextureIndex.resolve (t : TextureIndex) (name : String) : Option (String × Option ArchiveEntry) :=
  (t.lookup name).map fun reader => (reader.name, reader.entry? name)

variable {names names' : NameSet} {index index' : TextureIndex} {settings : Settings} {W H : Nat}
  {name archive : String}

/-! ## One name -/

namespace Sink
variable {s t : Sink}

theorem ingest_eq (s : Sink) (index : TextureIndex) (settings : Settings) (name : String) :
    s.ingest index settings name = match index.resolve name with
      | some (archive, some e) => e.deliver receiver (s.setLogo (settings.isLogoArchive archive))
      | some (archive, none) =>
        (.error (.unknownEntry archive name), s.setLogo (settings.isLogoArchive archive))
      | none =>
        match s.synthesizeNamed name with
        | (.ok _, s) => (.ok (), s)
        | (.error e, s) => (.error e, s) := by
  rw [ingest, TextureIndex.resolve]
  cases index.lookup name with
  | none => rfl
  | some reader =>
    simp only [Option.map_some, Reader.extract]
    cases reader.entry? name with
    | none => rfl
    | some e => rfl

/-- The sink learns of the index only what it resolves the name to. -/
theorem ingest_congr (h : index.resolve name = index'.resolve name) :
    s.ingest index settings name = s.ingest index' settings name := by
  rw [ingest_eq, ingest_eq, h]

/-- A name that nobody provides and that is no swatch's leaves the sink as it is. -/
theorem ingest_of_unknown (hr : index.resolve name = none) (hn : ColorIndex.ofName? name = none) :
    s.ingest index settings name = (.ok (), s) := by
  rw [ingest_eq, hr, synthesizeNamed, hn]

/-- A name whose reader lacks it is refused before anything is streamed. -/
theorem ingest_of_missing (hr : index.resolve name = some (archive, none)) :
    s.ingest index settings name =
      (.error (.unknownEntry archive name), s.setLogo (settings.isLogoArchive archive)) := by
  rw [ingest_eq, hr]

/-- What a name does to a sink, a run of calls does. -/
theorem exists_run_ingest (s : Sink) (index : TextureIndex) (settings : Settings) (name : String) :
    ∃ calls, (s.ingest index settings name).2 = s.run calls := by
  rw [ingest_eq]
  cases index.resolve name with
  | none =>
    refine ⟨[.synthesizeNamed name], ?_⟩
    simp only [run, List.foldl_cons, List.foldl_nil, step]
    cases s.synthesizeNamed name with
    | mk result t => cases result <;> rfl
  | some p =>
    obtain ⟨archive, entry?⟩ := p
    cases entry? with
    | none => exact ⟨[.setLogo (settings.isLogoArchive archive)], rfl⟩
    | some e =>
      obtain ⟨sent, -, hrun⟩ := exists_run_receiveAll e.events (s.setLogo (settings.isLogoArchive archive))
      exact ⟨.setLogo (settings.isLogoArchive archive) :: sent.map .ofEvent, by
        simp only [e.deliver_eq_receiveAll, hrun]; rfl⟩

/-! ## What a sink may refuse

A refusal leaves the sink as it is, so whether the sums of its search fit is read off the sink afterwards. -/

theorem isBufferFull_reported {w h : Nat} {refusal : Refusal} (hr : t.canvas.grid.find w h = .error refusal)
    (hfit : Grid.SumsFit t.canvas.width t.canvas.height) :
    (refusal.reported t.canvas.width t.canvas.height w h).isBufferFull = true := by
  rcases reported_cases hr with hfull | ⟨-, hover⟩
  · rw [hfull]
    rfl
  · exact absurd hfit hover

theorem beginFrame_error {header : FrameHeader} {e : AtlasError} (h : s.beginFrame header = (.error e, t))
    (hfit : Grid.SumsFit t.canvas.width t.canvas.height) : e.isBufferFull = true := by
  obtain ⟨rfl, ⟨refusal, hfind, rfl⟩, -⟩ := beginFrame_refused h
  exact isBufferFull_reported hfind hfit

theorem deliver_error {entry : ArchiveEntry} {e : AtlasError} (h : entry.deliver receiver s = (.error e, t))
    (hfit : Grid.SumsFit t.canvas.width t.canvas.height) : e.isBufferFull = true := by
  rw [entry.deliver_eq_receiveAll] at h
  obtain ⟨header, u, hrefused⟩ := receiver.exists_refused h
  exact beginFrame_error hrefused hfit

theorem synthesize_error {n : UInt32} {e : AtlasError} (h : s.synthesize n = (.error e, t))
    (hfit : Grid.SumsFit t.canvas.width t.canvas.height) : e.isBufferFull = true := by
  cases hn : s.contains (ColorIndex.name n) with
  | true => rw [synthesize_known hn] at h; cases h
  | false =>
    rw [synthesize_new hn] at h
    split at h
    · cases h
    · rename_i hfind
      cases h
      exact isBufferFull_reported hfind hfit

theorem synthesizeNamed_error {e : AtlasError} (h : s.synthesizeNamed name = (.error e, t))
    (hfit : Grid.SumsFit t.canvas.width t.canvas.height) : e.isBufferFull = true := by
  rw [synthesizeNamed] at h
  split at h
  · cases h
  · split at h
    · cases h
    · rename_i hn
      cases h
      exact synthesize_error hn hfit

/-- Of a name that is not missing, the canvas alone can be the obstacle. -/
theorem ingest_error {e : AtlasError} (h : s.ingest index settings name = (.error e, t))
    (hhas : ∀ archive, index.resolve name ≠ some (archive, none))
    (hfit : Grid.SumsFit t.canvas.width t.canvas.height) : e.isBufferFull = true := by
  rw [ingest_eq] at h
  cases hr : index.resolve name with
  | none =>
    rw [hr] at h
    simp only at h
    split at h
    · cases h
    · rename_i hn
      cases h
      exact synthesizeNamed_error hn hfit
  | some p =>
    obtain ⟨archive, entry?⟩ := p
    cases entry? with
    | none => exact absurd hr (hhas archive)
    | some entry =>
      rw [hr] at h
      exact deliver_error h hfit

/-! ## All names -/

theorem ingestAll_congr {l : List String} (h : ∀ name ∈ l, index.resolve name = index'.resolve name) (s : Sink) :
    ingestAll index settings l s = ingestAll index' settings l s := by
  induction l generalizing s with
  | nil => rfl
  | cons name l ih =>
    have hrest := ih fun m hm => h m (List.mem_cons_of_mem _ hm)
    simp only [ingestAll, ingest_congr (h name List.mem_cons_self), hrest]

/-- Names that leave every sink as it is may be left out. -/
theorem ingestAll_filter {l : List String} {p : String → Bool}
    (h : ∀ name, p name = false → index.resolve name = none ∧ ColorIndex.ofName? name = none) (s : Sink) :
    ingestAll index settings (l.filter p) s = ingestAll index settings l s := by
  induction l generalizing s with
  | nil => rfl
  | cons name l ih =>
    cases hp : p name with
    | true => simp only [List.filter_cons_of_pos hp, ingestAll, ih]
    | false =>
      obtain ⟨hr, hn⟩ := h name hp
      rw [List.filter_cons_of_neg (by simp [hp]), ih, ingestAll, ingest_of_unknown hr hn]

theorem ingestAll_append (l l' : List String) (s : Sink) :
    ingestAll index settings (l ++ l') s =
      (ingestAll index settings l s).bind (ingestAll index settings l') := by
  induction l generalizing s with
  | nil => rfl
  | cons name l ih =>
    rw [List.cons_append, ingestAll, ingestAll]
    split
    · exact ih _
    · rfl

theorem Sound.ingestAll_error (hs : s.Sound W H) (hfit : Grid.SumsFit W H) {l : List String} {e : AtlasError}
    (h : ingestAll index settings l s = .error e)
    (hhas : ∀ name ∈ l, ∀ archive, index.resolve name ≠ some (archive, none)) : e.isBufferFull = true := by
  induction l generalizing s with
  | nil => cases h
  | cons name l ih =>
    obtain ⟨calls, hcalls⟩ := s.exists_run_ingest index settings name
    have hafter : (s.ingest index settings name).2.Sound W H := hcalls ▸ hs.run calls
    rw [ingestAll] at h
    split at h
    · rename_i hname
      rw [hname] at hafter
      exact ih hafter h fun m hm => hhas m (List.mem_cons_of_mem _ hm)
    · rename_i hname
      cases h
      rw [hname] at hafter
      exact ingest_error hname (hhas name List.mem_cons_self) (by rwa [hafter.width_eq, hafter.height_eq])

end Sink

/-! ## Attempts and searches -/

theorem composeAtSize_congr
    (h : ∀ s, Sink.ingestAll index settings names.names s = Sink.ingestAll index' settings names'.names s) (W H : Nat) :
    composeAtSize names index settings W H = composeAtSize names' index' settings W H := by
  simp only [composeAtSize, h]

/-- The search sees names and index only through its attempts. -/
theorem compose_congr (h : ∀ W H, composeAtSize names index settings W H = composeAtSize names' index' settings W H) :
    compose names index settings = compose names' index' settings := by
  have hamong : ∀ sizes, composeAmong names index settings sizes = composeAmong names' index' settings sizes := by
    intro sizes
    induction sizes with
    | nil => rfl
    | cons p sizes ih => rw [composeAmong, composeAmong, h, ih]
  rw [compose, compose, hamong]

/-! ## Names that resolve alike -/

theorem TextureIndex.resolve_ofArchives (archives : List Archive) (name : String) :
    (ofArchives archives).resolve name =
      (archives.find? (·.contains name)).map fun a => (a.name, a.entry? name) := by
  rw [resolve, lookup_ofArchives, Option.map_map]
  rfl

/-- Some archive provides the name, or it stands for a swatch. -/
def Archive.anyKnows (archives : List Archive) (name : String) : Bool :=
  archives.any (·.contains name) || (ColorIndex.ofName? name).isSome

theorem Archive.unknown_of_anyKnows_eq_false {archives : List Archive} (h : Archive.anyKnows archives name = false) :
    (TextureIndex.ofArchives archives).resolve name = none ∧ ColorIndex.ofName? name = none := by
  rw [anyKnows, Bool.or_eq_false_iff, List.any_eq_false, Option.isSome_eq_false_iff,
    Option.isNone_iff_eq_none] at h
  rw [TextureIndex.resolve_ofArchives, List.find?_eq_none.2 h.1]
  exact ⟨rfl, h.2⟩

/-- Archives behind the others resolve no name that the others provide already. -/
theorem TextureIndex.resolve_append {archives further : List Archive}
    (h : ∀ a ∈ further, a.contains name = true → ∃ b ∈ archives, b.contains name = true) :
    (ofArchives (archives ++ further)).resolve name = (ofArchives archives).resolve name := by
  rw [resolve_ofArchives, resolve_ofArchives, List.find?_append]
  cases hfind : archives.find? (·.contains name) with
  | some a => rfl
  | none =>
    have hfurther : further.find? (·.contains name) = none := by
      refine List.find?_eq_none.2 fun a ha hcontains => ?_
      obtain ⟨b, hb, hprovides⟩ := h a ha hcontains
      exact List.find?_eq_none.1 hfind b hb hprovides
    rw [hfurther]
    rfl

/-- **The search depends on the index only through what it resolves for the requested names.** Two indices
that resolve them alike give the same result. So do archives with further ones behind them that provide none
of the names anew, and so does the set without the names that no archive provides and that stand for no
swatch. -/
theorem compose_depends_on_resolved_names (names : NameSet) (settings : Settings) (archives further : List Archive)
    (h : ∀ name, names.contains name = true → ∀ a ∈ further, a.contains name = true →
      ∃ b ∈ archives, b.contains name = true) :
    (∀ index index' : TextureIndex,
      (∀ name, names.contains name = true → index.resolve name = index'.resolve name) →
        compose names index settings = compose names index' settings) ∧
    compose names (.ofArchives (archives ++ further)) settings = compose names (.ofArchives archives) settings ∧
    ∀ all : List Archive, compose (names.filter (Archive.anyKnows all)) (.ofArchives all) settings =
      compose names (.ofArchives all) settings := by
  have halike : ∀ index index' : TextureIndex,
      (∀ name, names.contains name = true → index.resolve name = index'.resolve name) →
        compose names index settings = compose names index' settings := by
    intro index index' hresolve
    refine compose_congr (composeAtSize_congr (Sink.ingestAll_congr fun name hname => ?_))
    exact hresolve name (Table.mem_keys_iff.1 hname)
  refine ⟨halike, halike _ _ fun name hname => TextureIndex.resolve_append (h name hname), fun all => ?_⟩
  refine compose_congr (composeAtSize_congr fun s => ?_)
  rw [NameTable.names, Table.keys_filter]
  exact Sink.ingestAll_filter (fun name => Archive.unknown_of_anyKnows_eq_false) s

def plateArchive : Archive := ⟨"a.gaf", [⟨"plate", [⟨2, 1, 0, [#[5, 6]]⟩]⟩]⟩

/-- A second archive with a larger `plate` and some `wood` is not seen, and `fog`, which is in neither, may be
left out. -/
theorem compose_ignores_second_plate :
    compose (.ofNames ["fog", "plate"]) (.ofArchives [plateArchive,
        ⟨"b.gaf", [⟨"plate", [.solid 3 3 7]⟩, ⟨"wood", [.solid 1 1 8]⟩]⟩]) {} =
      compose (.ofNames ["fog", "plate"]) (.ofArchives [plateArchive]) {} ∧
    compose (.ofNames ["plate"]) (.ofArchives [plateArchive]) {} =
      compose (.ofNames ["fog", "plate"]) (.ofArchives [plateArchive]) {} := by
  have hprovided : ∀ name, (NameTable.ofNames ["fog", "plate"]).contains name = true →
      ∀ a ∈ [(⟨"b.gaf", [⟨"plate", [.solid 3 3 7]⟩, ⟨"wood", [.solid 1 1 8]⟩]⟩ : Archive)],
        a.contains name = true → ∃ b ∈ [plateArchive], b.contains name = true := by
    intro name hname a ha hcontains
    obtain rfl := List.mem_singleton.1 ha
    have hmem : name ∈ ["fog", "plate"] := Table.mem_keys_iff.2 hname
    rcases List.mem_pair.1 hmem with rfl | rfl
    · exact absurd hcontains (by decide)
    · exact ⟨plateArchive, List.mem_singleton_self _, by decide⟩
  have hleft : (NameTable.ofNames ["fog", "plate"]).filter (Archive.anyKnows [plateArchive]) =
      NameTable.ofNames ["plate"] := rfl
  obtain ⟨-, hbehind, hwithout⟩ := compose_depends_on_resolved_names (.ofNames ["fog", "plate"]) {}
    [plateArchive] _ hprovided
  exact ⟨hbehind, hleft ▸ hwithout [plateArchive]⟩

/-! ## Names that are missing -/

namespace TextureIndex

/-- Whether a reader provides the name and has no entry of it. -/
def isMissing (t : TextureIndex) (name : String) : Bool := (t.resolve name).any (·.2.isNone)

theorem isMissing_iff : index.isMissing name = true ↔ ∃ archive, index.resolve name = some (archive, none) := by
  rw [isMissing, Option.any_eq_true]
  constructor
  · rintro ⟨⟨archive, entry?⟩, hr, hnone⟩
    obtain rfl : entry? = none := Option.isNone_iff_eq_none.1 hnone
    exact ⟨archive, hr⟩
  · rintro ⟨archive, hr⟩
    exact ⟨_, hr, rfl⟩

/-- The first of the names that a reader provides without having an entry of it. -/
structure FirstMissing (t : TextureIndex) (names : NameSet) (name archive : String) : Prop where
  requested : names.contains name = true
  missing : t.resolve name = some (archive, none)
  first : ∀ other, names.contains other = true → other < name → ∀ archive, t.resolve other ≠ some (archive, none)

theorem exists_firstMissing (hname : names.contains name = true) (hmissing : index.isMissing name = true) :
    ∃ first archive, index.FirstMissing names first archive := by
  obtain ⟨first, hfind, -⟩ := exists_find?_le names.pairwise_names (Table.mem_keys_iff.2 hname) hmissing
  obtain ⟨archive, hr⟩ := isMissing_iff.1 (List.find?_some hfind)
  refine ⟨first, archive, Table.mem_keys_iff.1 (List.mem_of_find?_eq_some hfind), hr, ?_⟩
  intro other hother hlt archive' hr'
  obtain ⟨m, hm, hle⟩ := exists_find?_le names.pairwise_names (Table.mem_keys_iff.2 hother)
    (isMissing_iff.2 ⟨archive', hr'⟩)
  obtain rfl : first = m := Option.some.inj (hfind.symm.trans hm)
  rcases hle with rfl | hlt'
  · exact Std.lt_irrefl hlt
  · exact Std.lt_irrefl (Std.lt_trans hlt hlt')

end TextureIndex

/-- An attempt ends at a missing name, if it gets there. -/
theorem composeAtSize_of_missing (hname : names.contains name = true)
    (hr : index.resolve name = some (archive, none)) (settings : Settings) (W H : Nat) :
    composeAtSize names index settings W H =
      (composeAtSize (names.filter (· < name)) index settings W H).bind fun _ =>
        .error (.unknownEntry archive name) := by
  obtain ⟨after, hsplit⟩ := NameTable.exists_names_eq_append hname
  have hends : ∀ s, Sink.ingestAll index settings (name :: after) s = .error (.unknownEntry archive name) := by
    intro s
    rw [Sink.ingestAll, Sink.ingest_of_missing hr]
  simp only [composeAtSize, hsplit, Sink.ingestAll_append]
  cases Sink.blank? W H with
  | error e => rfl
  | ok start =>
    simp only [bind, Except.bind]
    cases Sink.ingestAll index settings (NameTable.names (names.filter (· < name)))
        { start with swatchSize := settings.swatchSize } with
    | error e => rfl
    | ok s => simp only [hends, pure, Except.pure]

/-- Without missing names the canvas alone can be the obstacle. -/
theorem isBufferFull_of_composeAtSize (hW : 0 < W) (hH : 0 < H) (hfit : Grid.SumsFit W H)
    (hhas : ∀ name, names.contains name = true → ∀ archive, index.resolve name ≠ some (archive, none))
    {e : AtlasError} (h : composeAtSize names index settings W H = .error e) : e.isBufferFull = true := by
  obtain ⟨start, hstart⟩ := Sink.exists_blank? hW hH
  have hsound := Sink.sound_of_blank? hstart settings.swatchSize
  simp only [composeAtSize, hstart, bind, Except.bind] at h
  split at h
  · rename_i hall
    cases h
    exact hsound.ingestAll_error hfit hall fun name hname => hhas name (Table.mem_keys_iff.1 hname)
  · cases h

/-- Up to the first missing name, an attempt fails only by filling its canvas. -/
theorem TextureIndex.FirstMissing.isBufferFull_before (h : index.FirstMissing names name archive)
    (hs : settings.Valid) (hgrid : settings.InGrid W H) {e : AtlasError}
    (he : composeAtSize (names.filter (· < name)) index settings W H = .error e) : e.isBufferFull = true := by
  obtain ⟨hW, hH⟩ := hgrid.pos hs.minWidth_pos
  refine isBufferFull_of_composeAtSize hW hH hgrid.sumsFit (fun m hm => ?_) he
  obtain ⟨hm, hlt⟩ := (Table.contains_filter names _ m).1 hm
  exact h.first m hm (of_decide_eq_true hlt)

/-! ## Searches that meet a missing name -/

/-- Full canvases are passed over up to the first attempt that fails otherwise, and that failure stands. -/
theorem composeAmong_eq_error {sizes : List (Nat × Nat)} {u : AtlasError} (hu : u.isBufferFull = false)
    (hfail : ∀ p ∈ sizes, composeAtSize names index settings p.1 p.2 = .error u ∨
      ∃ e, composeAtSize names index settings p.1 p.2 = .error e ∧ e.isBufferFull = true)
    (hsome : ∃ p ∈ sizes, composeAtSize names index settings p.1 p.2 = .error u) :
    composeAmong names index settings sizes = .error u := by
  induction sizes with
  | nil =>
    obtain ⟨p, hp, -⟩ := hsome
    cases hp
  | cons p sizes ih =>
    obtain ⟨width, height⟩ := p
    rw [composeAmong]
    rcases hfail (width, height) List.mem_cons_self with h | ⟨e, h, hfull⟩
    · simp only [h, hu, Bool.false_eq_true, if_false]
    · simp only [h, hfull, if_true]
      refine ih (fun p hp => hfail p (List.mem_cons_of_mem _ hp)) ?_
      obtain ⟨p, hp, herror⟩ := hsome
      rcases List.mem_cons.1 hp with rfl | hp
      · rw [h, Except.error.injEq] at herror
        rw [herror, hu] at hfull
        cases hfull
      · exact ⟨p, hp, herror⟩

theorem composeAmong_eq_none {sizes : List (Nat × Nat)}
    (hfull : ∀ p ∈ sizes, ∃ e, composeAtSize names index settings p.1 p.2 = .error e ∧ e.isBufferFull = true) :
    composeAmong names index settings sizes = .ok none := by
  rw [composeAmong_eq_findSome? fun p hp e he => ?_, List.findSome?_eq_none_iff.2 fun p hp => ?_]
  · obtain ⟨e, he, -⟩ := hfull p hp
    rw [he]
    rfl
  · obtain ⟨e', he', hfull⟩ := hfull p hp
    cases he.symm.trans he'
    exact hfull

/-- A canvas that holds the names before lets the search get to the missing one. -/
theorem TextureIndex.FirstMissing.compose_eq_error (h : index.FirstMissing names name archive)
    (hs : settings.Valid) (hgrid : settings.InGrid W H) {a : Atlas}
    (ha : composeAtSize (names.filter (· < name)) index settings W H = .ok a) :
    compose names index settings = .error (.unknownEntry archive name) := by
  have hattempt := composeAtSize_of_missing h.requested h.missing settings
  rw [compose_eq_composeAmong hs]
  refine composeAmong_eq_error rfl (fun p hp => ?_) ⟨(W, H), ?_, ?_⟩
  · rw [hattempt]
    cases hbefore : composeAtSize (names.filter (· < name)) index settings p.1 p.2 with
    | ok a => exact .inl rfl
    | error e => exact .inr ⟨e, rfl, h.isBufferFull_before hs (Settings.mem_sizes_iff.1 hp).2 hbefore⟩
  · exact Settings.mem_sizes_iff.2 ⟨hs.minWidth_pos, hgrid⟩
  · rw [hattempt, ha]
    rfl

/-- Where no canvas holds the names before, the search does not get to the missing one. -/
theorem TextureIndex.FirstMissing.compose_eq_none (h : index.FirstMissing names name archive)
    (hs : settings.Valid)
    (hnone : ∀ W H a, settings.InGrid W H → composeAtSize (names.filter (· < name)) index settings W H ≠ .ok a) :
    compose names index settings = .ok none := by
  rw [compose_eq_composeAmong hs]
  refine composeAmong_eq_none fun p hp => ?_
  have hgrid := (Settings.mem_sizes_iff.1 hp).2
  rw [composeAtSize_of_missing h.requested h.missing]
  cases hbefore : composeAtSize (names.filter (· < name)) index settings p.1 p.2 with
  | ok a => exact absurd hbefore (hnone p.1 p.2 a hgrid)
  | error e => exact ⟨e, rfl, h.isBufferFull_before hs hgrid hbefore⟩

/-- **A name that its reader lacks is never dropped.** If the index promises one of the names and its reader has
no entry of it, the search gives no atlas. Let `g` be the first such name: if some candidate size holds the names
before it, the search fails with the error of `g`, and otherwise it finds no size. -/
theorem missing_entry_is_reported (names : NameSet) (index : TextureIndex) (settings : Settings)
    (hs : settings.Valid)
    (hmissing : ∃ name archive, names.contains name = true ∧ index.resolve name = some (archive, none)) :
    (∀ a, compose names index settings ≠ .ok (some a)) ∧
      ∃ g archive, index.FirstMissing names g archive ∧
        ((∃ W H a, settings.InGrid W H ∧ composeAtSize (names.filter (· < g)) index settings W H = .ok a) →
          compose names index settings = .error (.unknownEntry archive g)) ∧
        ((∀ W H a, settings.InGrid W H → composeAtSize (names.filter (· < g)) index settings W H ≠ .ok a) →
          compose names index settings = .ok none) := by
  obtain ⟨name, archive, hname, hr⟩ := hmissing
  obtain ⟨g, archive, hg⟩ := TextureIndex.exists_firstMissing hname (TextureIndex.isMissing_iff.2 ⟨archive, hr⟩)
  refine ⟨fun a ha => ?_, g, archive, hg, ?_, hg.compose_eq_none hs⟩
  · by_cases hfits : ∃ W H a, settings.InGrid W H ∧
        composeAtSize (names.filter (· < g)) index settings W H = .ok a
    · obtain ⟨W, H, a', hgrid, ha'⟩ := hfits
      cases ha.symm.trans (hg.compose_eq_error hs hgrid ha')
    · cases ha.symm.trans (hg.compose_eq_none hs fun W H a' hgrid ha' => hfits ⟨W, H, a', hgrid, ha'⟩)
  · rintro ⟨W, H, a, hgrid, ha⟩
    exact hg.compose_eq_error hs hgrid ha

/-- The only archive, announcing a `wreck` that it does not have. -/
def wreckIndex : TextureIndex := .ofReaders [(Reader.ofArchive plateArchive).announcing ["wreck"]]

/-- The plate does not fit the first canvas; the second one holds it, and there the wreck is missed. -/
theorem missing_wreck_is_reported :
    ({ minWidth := 1, maxWidth := 2, tallVariants := false } : Settings).Valid ∧
      wreckIndex.resolve "wreck" = some ("a.gaf", none) ∧
      compose (.ofNames ["plate", "wreck"]) wreckIndex { minWidth := 1, maxWidth := 2, tallVariants := false } =
        .error (.unknownEntry "a.gaf" "wreck") := by
  have hvalid : ({ minWidth := 1, maxWidth := 2, tallVariants := false } : Settings).Valid := rfl
  have hplate : wreckIndex.resolve "plate" = (TextureIndex.ofArchives [plateArchive]).resolve "plate" := by
    rw [TextureIndex.resolve_ofArchives, wreckIndex, TextureIndex.resolve, TextureIndex.lookup_ofReaders]
    rfl
  have hwreck : wreckIndex.resolve "wreck" = some ("a.gaf", none) := by
    rw [wreckIndex, TextureIndex.resolve, TextureIndex.lookup_ofReaders]
    rfl
  refine ⟨hvalid, hwreck, ?_⟩
  obtain ⟨-, g, archive, hg, hfits, -⟩ := missing_entry_is_reported (.ofNames ["plate", "wreck"]) wreckIndex
    { minWidth := 1, maxWidth := 2, tallVariants := false } hvalid ⟨"wreck", "a.gaf", by decide, hwreck⟩
  have hmem : g ∈ ["plate", "wreck"] := Table.mem_keys_iff.2 hg.requested
  rcases List.mem_pair.1 hmem with rfl | rfl
  · have hmissing := hplate.symm.trans hg.missing
    rw [TextureIndex.resolve_ofArchives] at hmissing
    cases hmissing
  · cases hg.missing.symm.trans hwreck
    refine hfits ⟨2, 2, ?_⟩
    have hbefore : (NameTable.ofNames ["plate", "wreck"]).filter (· < "wreck") = NameTable.ofNames ["plate"] := rfl
    have halike : composeAtSize (.ofNames ["plate"]) wreckIndex
          { minWidth := 1, maxWidth := 2, tallVariants := false } 2 2 =
        composeAtSize (.ofNames ["plate"]) (.ofArchives [plateArchive])
          { minWidth := 1, maxWidth := 2, tallVariants := false } 2 2 := by
      refine composeAtSize_congr (Sink.ingestAll_congr fun name hname => ?_) 2 2
      obtain rfl := List.mem_singleton.1 hname
      exact hplate
    rw [hbefore, halike, composeAtSize_eq_layout _ _ _ Nat.two_pos Nat.two_pos (by decide)]
    exact ⟨_, ⟨⟨1, rfl⟩, by decide, .inl rfl, by decide⟩, rfl⟩

end TextureAtlas
