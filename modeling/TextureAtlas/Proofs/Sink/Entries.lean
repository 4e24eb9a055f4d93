import TextureAtlas.Proofs.Layout
import TextureAtlas.Proofs.Sink.Extraction
import TextureAtlas.Proofs.Sink.WriteOnce
import TextureAtlas.Proofs.Stream

/-!
# Extracting an entry

What one extraction does to a sink in any state. A refused one has registered the name and changed nothing
else (`Sink.refused_entry_leaves_attempt_intact`); a painted name stays as it is however often it is
extracted again (`Sink.extract_again_changes_nothing`); and a new name shows the first layer of its entry,
which is that of the first frame unless only a later frame has one (`Sink.extract_shows_first_layer`).
-/

namespace TextureAtlas

/-- An archive finds an entry by its own name. -/
theorem Archive.name_of_entry? {a : Archive} {name : String} {e : ArchiveEntry} (h : a.entry? name = some e) :
    e.name = name := by
  simpa using List.find?_some h

theorem Archive.extract_eq_deliver {σ : Type} {a : Archive} {name : String} {e : ArchiveEntry}
    (h : a.entry? name = some e) (sink : FrameSink σ) (s : σ) : a.extract name sink s = e.deliver sink s := by
  rw [extract, h]

/-- With no layer in any frame there is no first one. -/
theorem ArchiveEntry.firstLayer?_eq_none {e : ArchiveEntry} (h : ∀ frame ∈ e.frames, frame.layers = []) :
    e.firstLayer? = none := by
  rw [firstLayer?, List.flatMap_eq_nil_iff.2 h, List.head?_nil]

theorem ArchiveEntry.exists_firstLayer? {e : ArchiveEntry} (h : ∃ frame ∈ e.frames, frame.layers ≠ []) :
    ∃ layer, e.firstLayer? = some layer := by
  obtain ⟨frame, hframe, hlayers⟩ := h
  rw [firstLayer?, ← Option.isSome_iff_exists, List.isSome_head?]
  exact fun hnil => hlayers (List.flatMap_eq_nil_iff.1 hnil frame hframe)

/-- The first layer is one of the first frame, if that has any or no other frame has. -/
theorem ArchiveEntry.firstLayer?_eq_head? {e : ArchiveEntry} {frame : ArchiveFrame} {rest : List ArchiveFrame}
    (hfr : e.frames = frame :: rest) (h : frame.layers ≠ [] ∨ ∀ later ∈ rest, later.layers = []) :
    e.firstLayer? = frame.layers.head? := by
  rw [firstLayer?, hfr, List.flatMap_cons]
  cases hl : frame.layers with
  | nil =>
    have hrest : ∀ later ∈ rest, later.layers = [] := h.resolve_left fun hne => hne hl
    rw [List.nil_append, List.flatMap_eq_nil_iff.2 hrest]
  | cons layer layers => rfl

namespace Sink
variable {s t : Sink} {name : String} {a : Archive} {e : ArchiveEntry}

/-! ## An entry makes calls -/

/-- The call that an event of a stream makes. -/
def Call.ofEvent : FrameEvent → Call
  | .beginEntity name => .beginEntity name
  | .beginFrame header => .beginFrame header
  | .frameLayer pixels => .frameLayer pixels
  | .endFrame => .endFrame
  | .endEntity => .endEntity

theorem receive_snd (event : FrameEvent) (s : Sink) : (receiver.receive event s).2 = s.step (.ofEvent event) := by
  cases event <;> rfl

/-- What has been received of a stream is a run of calls. -/
theorem exists_run_receiveAll (events : List FrameEvent) (s : Sink) :
    ∃ sent, sent <+: events ∧ (receiver.receiveAll events s).2 = s.run (sent.map Call.ofEvent) := by
  induction events generalizing s with
  | nil => exact ⟨[], List.nil_prefix, rfl⟩
  | cons event events ih =>
    have hstep := receive_snd event s
    rw [FrameSink.receiveAll]
    cases h : receiver.receive event s with
    | mk result t =>
      rw [h] at hstep
      cases result with
      | error e => exact ⟨[event], List.prefix_cons_inj event |>.2 List.nil_prefix, hstep⟩
      | ok =>
        obtain ⟨sent, hsent, hrun⟩ := ih t
        refine ⟨event :: sent, List.prefix_cons_inj event |>.2 hsent, hrun.trans ?_⟩
        rw [show t = s.step (.ofEvent event) from hstep]
        rfl

/-- Extraction is a run of calls, successful or not. -/
theorem exists_run_extract (a : Archive) (name : String) (s : Sink) :
    ∃ calls, (a.extract name receiver s).2 = s.run calls := by
  cases he : a.entry? name with
  | none => exact ⟨[], by rw [Archive.extract, he]; rfl⟩
  | some e =>
    obtain ⟨sent, -, hrun⟩ := exists_run_receiveAll e.events s
    exact ⟨sent.map Call.ofEvent, by rw [Archive.extract_eq_deliver he, e.deliver_eq_receiveAll, hrun]⟩

/-- An entry is extracted if there is room for its first frame. -/
theorem exists_extract (he : a.entry? name = some e) {frame : ArchiveFrame} {rest : List ArchiveFrame} {r : Rect}
    (hfr : e.frames = frame :: rest) (hr : s.canvas.grid.find frame.width.toNat frame.height.toNat = .ok r) :
    ∃ t, a.extract name receiver s = (.ok (), t) := by
  obtain ⟨t, ht⟩ := exists_deliverFrames (s := s.beginEntity e.name) hr rest
  refine ⟨t.endEntity, ?_⟩
  rw [Archive.extract_eq_deliver he, ArchiveEntry.deliver, hfr]
  simp only [show receiver.beginEntity e.name s = s.beginEntity e.name from rfl, ht]
  rfl

/-! ## Refused entries -/

/-- The name is registered in `t` and has neither place nor pixels. The canvas, the other fragments and the
painted names are those of `s`. -/
structure Refused (s : Sink) (name : String) (t : Sink) : Prop where
  canvas_eq : t.canvas = s.canvas
  filled_eq : t.filled = s.filled
  others : ∀ n, n ≠ name → t.fragment? n = s.fragment? n
  registered : t.contains name = true
  unplaced : ∀ f, ¬ t.Places name f
  unpainted : ¬ t.Filled name

theorem contains_beginEntity (s : Sink) (name : String) : (s.beginEntity name).contains name = true := by
  have hf := fragment?_beginEntity s name name
  rw [if_pos rfl] at hf
  rw [contains, Table.contains, show (s.beginEntity name).fragments.get? name = _ from hf]
  rfl

/-- An entity that waits for its place when it begins has not been painted. -/
theorem refused_beginEntity {n : String} {f : Fragment} (hw : (s.beginEntity name).waiting? = some (n, f))
    (hp : f.placed = false) : s.Refused name (s.beginEntity name) := by
  obtain ⟨hpend, hf⟩ := waiting?_eq_some.1 hw
  have hunfilled : ¬ s.Filled name := fun hfill => by
    rw [beginEntity, if_pos (show s.filled.contains name = true from hfill)] at hpend
    cases hpend
  obtain rfl : name = n := by
    rw [waiting?_beginEntity hunfilled] at hw
    exact congrArg Prod.fst (Option.some.inj hw)
  refine ⟨rfl, rfl, fun m hm => ?_, contains_beginEntity s name, fun g hg => ?_, hunfilled⟩
  · rw [fragment?_beginEntity, if_neg hm]
  · obtain rfl : f = g := Option.some.inj (hf.symm.trans hg.1)
    cases hp.symm.trans hg.2

/-- A refusal is reported as a full canvas, unless the search stopped. -/
theorem reported_cases {c : Canvas} {w h : Nat} {refusal : Refusal} (hr : c.grid.find w h = .error refusal) :
    refusal.reported c.width c.height w h = .bufferFull c.width c.height w h ∨
      refusal.reported c.width c.height w h = .overflow ∧ ¬ Grid.SumsFit c.width c.height := by
  cases refusal with
  | full => exact .inl rfl
  | overflow => exact .inr ⟨rfl, (Grid.find_overflow hr).2.1⟩

/-- **A refused entry leaves the attempt intact.** In whatever state a sink is, extraction fails only for want
of the entry, and then nothing has changed, or for want of room for its first frame. Then the name is
registered without a place, and neither the canvas nor any other fragment nor what counts as painted has
changed. On a canvas too large for its sums the search for that room may also end the program, with the same in
place. Once the first frame has been accepted, no later header is refused. -/
theorem refused_entry_leaves_attempt_intact (s : Sink) (a : Archive) (name : String) :
    (∀ err t, a.extract name receiver s = (.error err, t) →
      (a.entry? name = none ∧ err = .unknownEntry a.name name ∧ t = s) ∨
      ∃ e frame rest, a.entry? name = some e ∧ e.frames = frame :: rest ∧
        (s.beginEntity name).beginFrame frame.header = (.error err, t) ∧
        (err = .bufferFull s.canvas.width s.canvas.height frame.width.toNat frame.height.toNat ∨
          err = .overflow ∧ ¬ Grid.SumsFit s.canvas.width s.canvas.height) ∧
        s.Refused name t) ∧
    ∀ e frame done next rest t, a.entry? name = some e → e.frames = (frame :: done) ++ next :: rest →
      ArchiveEntry.deliverFrames receiver (frame :: done) (s.beginEntity name) = (.ok (), t) →
        t.beginFrame next.header = (.ok (), t) := by
  constructor
  · intro err t ht
    cases he : a.entry? name with
    | none =>
      rw [Archive.extract, he] at ht
      cases ht
      exact .inl ⟨rfl, rfl, rfl⟩
    | some e =>
      obtain rfl := Archive.name_of_entry? he
      rw [Archive.extract_eq_deliver he, ArchiveEntry.deliver] at ht
      split at ht
      · cases ht
      · rename_i hframes
        cases ht
        obtain ⟨frame, rest, hfr, hheader⟩ := deliverFrames_refused hframes
        obtain ⟨rfl, ⟨refusal, hfind, rfl⟩, n, f, hw, hp⟩ := beginFrame_refused hheader
        exact .inr ⟨e, frame, rest, rfl, hfr, hheader, reported_cases hfind, refused_beginEntity hw hp⟩
  · intro e frame done next rest t _ _ ht
    exact (settled_of_deliverFrames ht).beginFrame next.header

/-- On a canvas of two pixels in a row there is room for neither the mast nor the second frame of the spar. -/
def rigging : Archive :=
  ⟨"rigging", [⟨"mast", [⟨1, 3, 0, [#[1, 2, 3]]⟩]⟩, ⟨"spar", [⟨1, 1, 0, [#[5]]⟩, ⟨1, 3, 0, []⟩]⟩]⟩

theorem rigging_refused : ∃ start, blank? 2 1 = .ok start ∧
    (∃ t, rigging.extract "mast" receiver start = (.error (.bufferFull 2 1 1 3), t) ∧ start.Refused "mast" t) ∧
    rigging.extract "sail" receiver start = (.error (.unknownEntry "rigging" "sail"), start) ∧
    ∃ t, ArchiveEntry.deliverFrames receiver [⟨1, 1, 0, [#[5]]⟩] (start.beginEntity "spar") = (.ok (), t) ∧
      t.beginFrame ⟨1, 3, 0⟩ = (.ok (), t) := by
  obtain ⟨start, hstart⟩ : ∃ start, blank? 2 1 = .ok start := exists_blank? (by decide) (by decide)
  refine ⟨start, hstart, ?_⟩
  obtain ⟨c, rfl, hgrid, -⟩ := eq_of_blank? hstart
  obtain ⟨hrefusal, -⟩ := refused_entry_leaves_attempt_intact { canvas := c } rigging "mast"
  refine ⟨?_, rfl, ?_⟩
  · have hfull : c.grid.find 1 3 = .error .full := by
      rw [hgrid]
      rfl
    have hmast : rigging.extract "mast" receiver { canvas := c } =
        (.error (.bufferFull c.grid.width c.grid.height 1 3), awaiting { canvas := c } "mast") := by
      have hunfilled : ¬ Filled { canvas := c } "mast" := fun hf => nomatch hf
      rw [Archive.extract_eq_deliver (e := ⟨"mast", [⟨1, 3, 0, [#[1, 2, 3]]⟩]⟩) rfl, deliver_new rfl hunfilled]
      simp only [UInt32.reduceToNat, hfull]
      rfl
    rw [hgrid] at hmast
    refine ⟨_, hmast, ?_⟩
    rcases hrefusal _ _ hmast with ⟨hnone, -⟩ | ⟨_, _, _, -, -, -, -, hrefused⟩
    · cases hnone
    · exact hrefused
  · have hroom : c.grid.find 1 1 = .ok ⟨0, 0, 1, 1⟩ :=
    find_of_blank? hstart (by decide) (by decide) (by decide) (by decide)
    obtain ⟨t, ht⟩ : ∃ t, ArchiveEntry.deliverFrames receiver [⟨1, 1, 0, [#[5]]⟩]
        (beginEntity { canvas := c } "spar") = (.ok (), t) := exists_deliverFrames hroom []
    obtain ⟨-, hlater⟩ := refused_entry_leaves_attempt_intact { canvas := c } rigging "spar"
    exact ⟨t, ht, hlater _ _ [] ⟨1, 3, 0, []⟩ [] t rfl rfl ht⟩

/-! ## The same name again -/

/-- An entry with a layer ends painted. -/
theorem Sound.filled_of_deliver {W H : Nat} (h : s.Sound W H) (hlayer : ∃ frame ∈ e.frames, frame.layers ≠ [])
    (ht : e.deliver receiver s = (.ok (), t)) : t.Filled e.name := by
  obtain ⟨layer, hl⟩ := ArchiveEntry.exists_firstLayer? hlayer
  rw [ArchiveEntry.firstLayer?] at hl
  have hshown : ∀ (u : Sink) (r : Rect), (u.shown e.name r (some layer)).endEntity.Filled e.name :=
    fun u r => filled_insert.2 (.inl rfl)
  by_cases hf : s.Filled e.name
  · obtain ⟨f, hp⟩ := h.filled_placed e.name hf
    rw [deliver_filled hp.contains hf] at ht
    cases ht
    exact hf
  · by_cases hp : ∃ f, s.Places e.name f
    · obtain ⟨f, hp⟩ := hp
      rw [deliver_placed hp hf, hl] at ht
      cases ht
      exact hshown _ _
    · rw [deliver_unplaced (not_exists.1 hp) hf, hl] at ht
      split at ht
      · rename_i hnil
        obtain ⟨frame, hframe, -⟩ := hlayer
        rw [hnil] at hframe
        cases hframe
      · split at ht
        · cases ht
          exact hshown _ _
        · cases ht

/-- Beginning an entity that is registered changes the wait alone. -/
theorem endEntity_beginEntity (h : s.contains name = true) : (s.beginEntity name).endEntity = s.endEntity := by
  simp only [beginEntity, if_pos (show s.fragments.contains name = true from h), endEntity]

theorem beginEntity_beginEntity (s : Sink) (name : String) :
    (s.beginEntity name).beginEntity name = s.beginEntity name := by
  have h := contains_beginEntity s name
  rw [beginEntity, if_pos (show (s.beginEntity name).fragments.contains name = true from h)]
  rfl

theorem not_places_beginEntity (h : ∀ f, ¬ s.Places name f) (f : Fragment) : ¬ (s.beginEntity name).Places name f := by
  rintro ⟨hf, hp⟩
  rw [fragment?_beginEntity, if_pos rfl, Option.some.injEq] at hf
  rw [← hf, placed_getD_eq_false h] at hp
  cases hp

/-- A fragment in its place is left alone by an entry without layers. -/
theorem deliver_placed_layerless {f : Fragment} (h : s.Places e.name f) (hf : ¬ s.Filled e.name)
    (hl : e.firstLayer? = none) : e.deliver receiver s = (.ok (), s.endEntity) := by
  rw [ArchiveEntry.firstLayer?] at hl
  rw [deliver_placed h hf, hl]
  exact congrArg (Except.ok (), ·) (endEntity_beginEntity h.contains)

/-- A name without a place either gets one from the first delivery, or still has none and gets none again. -/
theorem deliver_unplaced_again (hp : ∀ f, ¬ s.Places e.name f) (hf : ¬ s.Filled e.name)
    (hl : e.firstLayer? = none) : e.deliver receiver (e.deliver receiver s).2 = e.deliver receiver s := by
  have hbegun := not_places_beginEntity hp
  have hfirst := deliver_unplaced hp hf
  rw [← ArchiveEntry.firstLayer?, hl] at hfirst
  cases hfr : e.frames with
  | nil =>
    have hagain := deliver_unplaced (s := (s.beginEntity e.name).endEntity) hbegun hf
    simp only [hfr] at hfirst hagain
    rw [hfirst, hagain]
    have hcontains : (s.beginEntity e.name).endEntity.contains e.name = true := contains_beginEntity s e.name
    exact congrArg (Except.ok (), ·) (endEntity_beginEntity hcontains)
  | cons frame rest =>
    simp only [hfr] at hfirst
    cases hr : s.canvas.grid.find frame.width.toNat frame.height.toNat with
    | error refusal =>
      have hagain := deliver_unplaced hbegun hf
      simp only [hfr, canvas_beginEntity, hr, beginEntity_beginEntity] at hfirst hagain
      rw [hfirst, hagain]
    | ok r =>
      simp only [hr] at hfirst
      rw [hfirst]
      refine deliver_placed_layerless (f := ⟨r, frame.transparencyIndex, s.logoActive, true⟩) ⟨?_, rfl⟩ hf hl
      exact (Table.get?_insert ..).trans (if_pos rfl)

/-- An entry without layers does at the second time what it did at the first. -/
theorem Sound.deliver_layerless_again {W H : Nat} (h : s.Sound W H) (hl : e.firstLayer? = none) :
    e.deliver receiver (e.deliver receiver s).2 = e.deliver receiver s := by
  by_cases hf : s.Filled e.name
  · obtain ⟨f, hp⟩ := h.filled_placed e.name hf
    have hagain : s.endEntity.contains e.name = true := hp.contains
    rw [deliver_filled hp.contains hf, deliver_filled hagain hf]
    rfl
  · by_cases hp : ∃ f, s.Places e.name f
    · obtain ⟨f, hp⟩ := hp
      have hagain : s.endEntity.Places e.name f := hp
      rw [deliver_placed_layerless hp hf hl, deliver_placed_layerless hagain hf hl]
      rfl
    · exact deliver_unplaced_again (not_exists.1 hp) hf hl

/-- **Extracting a name again changes nothing.** Once an entry with a layer has been extracted, a later
extraction of its name succeeds at any moment, from any archive that has it and under either flag, and only
ends the wait. An entry without layers has the same result and leaves the same sink when it is extracted
twice in a row, even if it is refused. -/
theorem extract_again_changes_nothing (hs : s.Reachable) (he : a.entry? name = some e) :
    ((∃ frame ∈ e.frames, frame.layers ≠ []) → ∀ t, a.extract name receiver s = (.ok (), t) →
      ∀ (later : List Call) (isLogo : Bool) (b : Archive), b.contains name = true →
        b.extract name receiver ((t.run later).setLogo isLogo) =
          (.ok (), { t.run later with logoActive := isLogo, pending := none })) ∧
    ((∀ frame ∈ e.frames, frame.layers = []) →
      a.extract name receiver (a.extract name receiver s).2 = a.extract name receiver s) := by
  obtain ⟨W, H, hsound⟩ := hs.sound
  constructor
  · intro hlayer t ht later isLogo b hb
    have hfilled : t.Filled name := by
      rw [← Archive.name_of_entry? he]
      exact hsound.filled_of_deliver hlayer (by rw [← Archive.extract_eq_deliver he, ht])
    have htsound : t.Sound W H := by
      obtain ⟨calls, hcalls⟩ := exists_run_extract a name s
      rw [ht] at hcalls
      rw [show t = s.run calls from hcalls]
      exact hsound.run calls
    -- What is painted stays painted over the calls in between.
    have hlater : (t.run later).Filled name := (htsound.extends_run later).filled name hfilled
    obtain ⟨f, hplace⟩ := (htsound.run later).filled_placed name hlater
    obtain ⟨again, hagain⟩ := Option.isSome_iff_exists.1 hb
    obtain rfl := Archive.name_of_entry? hagain
    rw [Archive.extract_eq_deliver hagain, deliver_filled (s := (t.run later).setLogo isLogo) hplace.contains hlater]
    rfl
  · intro hbare
    rw [Archive.extract_eq_deliver he, Archive.extract_eq_deliver he]
    exact hsound.deliver_layerless_again (ArchiveEntry.firstLayer?_eq_none hbare)

/-- A plate, and a rib that has no layer. -/
def hull : Archive := ⟨"hull", [⟨"plate", [⟨1, 1, 0, [#[5]]⟩]⟩, ⟨"rib", [⟨1, 1, 0, []⟩]⟩]⟩

theorem hull_extracted_again : ∃ start t, blank? 2 2 = .ok start ∧ start.Reachable ∧
    hull.extract "plate" receiver start = (.ok (), t) ∧
    (⟨"deck", [⟨"plate", [⟨2, 2, 0, [#[9, 9, 9, 9]]⟩]⟩]⟩ : Archive).extract "plate" receiver
        ((t.run [.beginEntity "rib", .beginFrame ⟨2, 1, 0⟩, .synthesize 3]).setLogo true) =
      (.ok (), { t.run [.beginEntity "rib", .beginFrame ⟨2, 1, 0⟩, .synthesize 3] with
        logoActive := true, pending := none }) ∧
    hull.extract "rib" receiver (hull.extract "rib" receiver start).2 = hull.extract "rib" receiver start := by
  obtain ⟨start, hstart⟩ : ∃ start, blank? 2 2 = .ok start := exists_blank? (by decide) (by decide)
  have hreach := reachable_of_blank? hstart
  have hroom : start.canvas.grid.find 1 1 = .ok ⟨0, 0, 1, 1⟩ :=
    find_of_blank? hstart (by decide) (by decide) (by decide) (by decide)
  have heplate : hull.entry? "plate" = some ⟨"plate", [⟨1, 1, 0, [#[5]]⟩]⟩ := rfl
  have herib : hull.entry? "rib" = some ⟨"rib", [⟨1, 1, 0, []⟩]⟩ := rfl
  obtain ⟨t, ht⟩ := exists_extract heplate rfl hroom
  obtain ⟨hplate, -⟩ := extract_again_changes_nothing hreach heplate
  obtain ⟨-, hrib⟩ := extract_again_changes_nothing hreach herib
  exact ⟨start, t, hstart, hreach, ht,
    hplate (by decide) t ht [.beginEntity "rib", .beginFrame ⟨2, 1, 0⟩, .synthesize 3] true _ rfl, hrib (by decide)⟩

/-! ## A new name -/

/-- The pixels of the rectangle are the rows of the layer; where that has no byte they are 0. -/
def ShowsLayer (s : Sink) (r : Rect) (layer? : Option (Array UInt8)) : Prop :=
  ∀ i < r.w, ∀ j < r.h, s.canvas.pixel (r.x + i) (r.y + j) = (layer?.getD #[]).getD (j * r.w + i) 0

/-- In `t` the fragment has the size of the entry's first frame and shows the entry's first layer; every other
pixel is as in `s`. -/
structure Paints (s : Sink) (e : ArchiveEntry) (f : Fragment) (t : Sink) : Prop where
  fits : f.rect.Fits s.canvas.width s.canvas.height
  sized : ∀ frame ∈ e.frames.head?, f.placed = true ∧ f.rect.w = frame.width.toNat ∧ f.rect.h = frame.height.toNat
  shows : t.ShowsLayer f.rect e.firstLayer?
  outside : ∀ px py, ¬ f.rect.HasPixel px py → t.canvas.pixel px py = s.canvas.pixel px py

theorem Sound.paints_first_fit {W H : Nat} (h : s.Sound W H) {frame : ArchiveFrame} {rest : List ArchiveFrame}
    (hfr : e.frames = frame :: rest) {r : Rect}
    (hr : s.canvas.grid.find frame.width.toNat frame.height.toNat = .ok r) :
    s.Paints e ⟨r, frame.transparencyIndex, s.logoActive, true⟩
      (((s.awaiting e.name).placing e.name r frame.transparencyIndex s.logoActive).shown
        e.name r e.firstLayer?).endEntity := by
  obtain ⟨hw, hh, hfit⟩ := Grid.find_firstFit hr
  have hpixel (px py : Nat) : (((s.awaiting e.name).placing e.name r frame.transparencyIndex
        s.logoActive).shown e.name r e.firstLayer?).canvas.pixel px py =
      if r.HasPixel px py then (e.firstLayer?.getD #[]).getD ((py - r.y) * r.w + (px - r.x)) 0
      else s.canvas.pixel px py :=
    pixel_shown_placing (s := s.awaiting e.name) hfit.fits (fun _ _ => h.blank_find hr) e.firstLayer? px py
  refine ⟨hfit.fits, ?_, fun i hi j hj => ?_, fun px py hp => (hpixel px py).trans (if_neg hp)⟩
  · rw [hfr]
    rintro _ ⟨⟩
    exact ⟨rfl, hw, hh⟩
  · have hin : r.HasPixel (r.x + i) (r.y + j) :=
      ⟨Nat.le_add_right .., Nat.add_lt_add_left hi _, Nat.le_add_right .., Nat.add_lt_add_left hj _⟩
    refine (hpixel (r.x + i) (r.y + j)).trans ?_
    rw [if_pos hin, Nat.add_sub_cancel_left, Nat.add_sub_cancel_left]

theorem Sound.exists_paints {W H : Nat} (h : s.Sound W H) (hn : s.contains e.name = false)
    (ht : e.deliver receiver s = (.ok (), t)) : ∃ f, t.fragment? e.name = some f ∧ s.Paints e f t := by
  rw [deliver_new hn (h.not_filled hn), ← ArchiveEntry.firstLayer?] at ht
  cases hfr : e.frames with
  | nil =>
    -- Without a frame the name is registered with an empty rectangle.
    simp only [hfr] at ht
    cases ht
    refine ⟨{}, (Table.get?_insert ..).trans (if_pos rfl), ⟨Nat.zero_le _, Nat.zero_le _⟩, ?_, ?_, fun _ _ _ => rfl⟩
    · rw [hfr]
      exact fun frame hframe => nomatch hframe
    · exact fun i hi => absurd hi (Nat.not_lt_zero i)
  | cons frame rest =>
    simp only [hfr] at ht
    cases hr : s.canvas.grid.find frame.width.toNat frame.height.toNat with
    | error refusal => simp only [hr] at ht; cases ht
    | ok r =>
      simp only [hr] at ht
      cases ht
      refine ⟨_, ?_, h.paints_first_fit hfr hr⟩
      simp only [fragment?, endEntity, fragments_shown, placing, Table.get?_insert, if_true]

/-- **A new name shows its first layer.** When an entry of a name that is not registered has been extracted, its
fragment shows the first layer of the entry with the row length of the first frame, and no other layer has
reached the canvas. That is the first layer of the first frame, if that has one or no frame has. Otherwise it is
one of a later frame, whose rows may be of another length. -/
theorem extract_shows_first_layer (hs : s.Reachable) (hn : s.contains name = false) (he : a.entry? name = some e)
    (isLogo : Bool) (ht : a.extract name receiver (s.setLogo isLogo) = (.ok (), t)) :
    ∃ f, t.fragment? name = some f ∧ s.Paints e f t ∧
      ∀ frame rest, e.frames = frame :: rest → (frame.layers ≠ [] ∨ ∀ later ∈ rest, later.layers = []) →
        t.ShowsLayer f.rect frame.layers.head? := by
  obtain ⟨W, H, hsound⟩ := hs.sound
  obtain rfl := Archive.name_of_entry? he
  rw [Archive.extract_eq_deliver he] at ht
  obtain ⟨f, hf, hpaints⟩ := (hsound.run [.setLogo isLogo]).exists_paints hn ht
  refine ⟨f, hf, ⟨hpaints.fits, hpaints.sized, hpaints.shows, hpaints.outside⟩, fun frame rest hfr hlayers => ?_⟩
  rw [← ArchiveEntry.firstLayer?_eq_head? hfr hlayers]
  exact hpaints.shows

/-- A lamp whose first frame has two layers, and one whose first frame has none. -/
def lamps : Archive :=
  ⟨"lamps", [⟨"lamp", [⟨2, 1, 9, [#[5, 4], #[6, 6]]⟩, ⟨4, 4, 0, [#[7]]⟩]⟩,
    ⟨"dark lamp", [⟨1, 2, 0, []⟩, ⟨2, 1, 0, [#[7, 8]]⟩]⟩]⟩

theorem lamp_shows_first_layer : ∃ start t f, blank? 2 1 = .ok start ∧ start.contains "lamp" = false ∧
    lamps.extract "lamp" receiver (start.setLogo true) = (.ok (), t) ∧ t.fragment? "lamp" = some f ∧
    f.rect = ⟨0, 0, 2, 1⟩ ∧ t.canvas.pixel 0 0 = 5 ∧ t.canvas.pixel 1 0 = 4 := by
  obtain ⟨start, hstart⟩ : ∃ start, blank? 2 1 = .ok start := exists_blank? (by decide) (by decide)
  have hroom : (start.setLogo true).canvas.grid.find 2 1 = .ok ⟨0, 0, 2, 1⟩ :=
    find_of_blank? hstart (by decide) (by decide) (by decide) (by decide)
  have hnew : start.contains "lamp" = false := by
    obtain ⟨c, rfl, -⟩ := eq_of_blank? hstart
    rfl
  have he : lamps.entry? "lamp" = some ⟨"lamp", [⟨2, 1, 9, [#[5, 4], #[6, 6]]⟩, ⟨4, 4, 0, [#[7]]⟩]⟩ := rfl
  obtain ⟨t, ht⟩ := exists_extract he rfl hroom
  obtain ⟨f, hf, hpaints, hlayer⟩ := extract_shows_first_layer (reachable_of_blank? hstart) hnew he true ht
  -- The frame is as large as the canvas, which leaves it one place.
  have hrect : f.rect = ⟨0, 0, 2, 1⟩ := by
    obtain ⟨-, hw, hh⟩ : _ ∧ f.rect.w = 2 ∧ f.rect.h = 1 := hpaints.sized _ rfl
    have hfits := hpaints.fits
    obtain ⟨c, rfl, hgrid, -⟩ := eq_of_blank? hstart
    obtain ⟨⟨x, y, w, h⟩, _, _, _⟩ := f
    obtain rfl : w = 2 := hw
    obtain rfl : h = 1 := hh
    simp only [Rect.Fits, Canvas.width, Canvas.height, hgrid, Grid.empty] at hfits
    simp only [Rect.mk.injEq, and_true]
    omega
  have hshows := hlayer _ _ rfl (.inl (List.cons_ne_nil _ _))
  rw [hrect] at hshows
  exact ⟨start, t, f, hstart, hnew, ht, hf, hrect,
    hshows 0 (by decide) 0 (by decide), hshows 1 (by decide) 0 (by decide)⟩

/-- The first layer of an entry is not always one of its first frame. -/
theorem later_frame_is_shown : ¬ ∀ (s t : Sink) (a : Archive) (e : ArchiveEntry) (isLogo : Bool) (f : Fragment)
    (frame : ArchiveFrame) (rest : List ArchiveFrame), s.Reachable → s.contains e.name = false →
    s.pending = none → a.entry? e.name = some e → a.extract e.name receiver (s.setLogo isLogo) = (.ok (), t) →
    e.frames = frame :: rest → t.fragment? e.name = some f → t.ShowsLayer f.rect frame.layers.head? := by
  intro hall
  obtain ⟨start, hstart⟩ : ∃ start, blank? 1 2 = .ok start := exists_blank? (by decide) (by decide)
  have hreach := reachable_of_blank? hstart
  obtain ⟨_, _, hsound⟩ := hreach.sound
  have hroom : start.canvas.grid.find 1 2 = .ok ⟨0, 0, 1, 2⟩ :=
    find_of_blank? hstart (by decide) (by decide) (by decide) (by decide)
  obtain ⟨c, rfl, -⟩ := eq_of_blank? hstart
  have he : lamps.entry? "dark lamp" = some ⟨"dark lamp", [⟨1, 2, 0, []⟩, ⟨2, 1, 0, [#[7, 8]]⟩]⟩ := rfl
  obtain ⟨t, ht⟩ := exists_extract he rfl hroom
  rw [Archive.extract_eq_deliver he] at ht
  obtain ⟨f, hf, hpaints⟩ := hsound.exists_paints rfl ht
  obtain ⟨-, hw, hh⟩ : _ ∧ f.rect.w = 1 ∧ f.rect.h = 2 := hpaints.sized _ rfl
  rw [← Archive.extract_eq_deliver he] at ht
  have hdark := hall _ t lamps _ false f _ _ hreach rfl rfl he ht rfl hf
  -- The pixel below the first one has the second byte of a row.
  have hcolumn := (hdark 0 (by omega) 1 (by omega)).symm.trans (hpaints.shows 0 (by omega) 1 (by omega))
  rw [hw] at hcolumn
  exact absurd hcolumn (by decide)

end Sink
end TextureAtlas
