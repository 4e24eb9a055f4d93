import TextureAtlas.Proofs.Sink.Calls

/-!
# Streaming one entry into a sink

An entry of a new name registers it; its first header then takes the first fit, and the first layer
of all its frames is painted there (`Sink.deliver_new`). An entry whose name is painted already
changes nothing but the wait (`Sink.deliver_filled`). Only a fragment without a place can be refused, so
after its first header an entry is delivered to the end (`Sink.deliverFrames_refused`).
-/

namespace TextureAtlas

/-! ## Writing a table twice -/

theorem Table.insertIn_insertIn {α : Type} (k : String) (v w : α) (l : List (String × α)) :
    insertIn k w (insertIn k v l) = insertIn k w l := by
  fun_induction insertIn k v l with
  | case1 => simp [insertIn]
  | case2 k' v' rest hlt => simp [insertIn, hlt]
  | case3 v' rest hlt => simp [insertIn]
  | case4 k' v' rest hlt hne ih => simp [insertIn, hlt, hne, ih]

/-- The later value under a name replaces the earlier one. -/
theorem Table.insert_insert {α : Type} (t : NameTable α) (k : String) (v w : α) :
    (t.insert k v).insert k w = t.insert k w := by
  simp only [Table.insert, insertIn_insertIn]

namespace Sink
variable {s : Sink} {name : String} {f : Fragment}

/-! ## Layers and frames after placement -/

theorem foldl_frameLayer_idle (h : s.pending = none) (layers : List (Array UInt8)) :
    layers.foldl (fun s pixels => s.frameLayer pixels) s = s := by
  induction layers with
  | nil => rfl
  | cons layer layers ih => rw [List.foldl_cons, frameLayer_idle (waiting?_of_idle h), ih]

/-- The sink after a placed fragment has been shown these layers: the first one is painted. -/
def shown (s : Sink) (name : String) (r : Rect) : Option (Array UInt8) → Sink
  | some pixels => s.painting name (s.canvas.writeRows r pixels)
  | none => s

@[simp] theorem grid_shown (s : Sink) (name : String) (r : Rect) (layer? : Option (Array UInt8)) :
    (s.shown name r layer?).canvas.grid = s.canvas.grid := by
  cases layer? with
  | some layer => exact Canvas.grid_writeRows s.canvas r layer
  | none => rfl

@[simp] theorem fragments_shown (s : Sink) (name : String) (r : Rect) (layer? : Option (Array UInt8)) :
    (s.shown name r layer?).fragments = s.fragments := by
  cases layer? <;> rfl

@[simp] theorem swatchSize_shown (s : Sink) (name : String) (r : Rect) (layer? : Option (Array UInt8)) :
    (s.shown name r layer?).swatchSize = s.swatchSize := by
  cases layer? <;> rfl

theorem filled_shown (s : Sink) (name : String) (r : Rect) (layer? : Option (Array UInt8)) :
    (s.shown name r layer?).filled = s.filled.insert name () ∨ (s.shown name r layer?).filled = s.filled := by
  cases layer? with
  | some layer => exact .inl rfl
  | none => exact .inr rfl

/-- A block placed on the canvas shows the rows of its layer. -/
theorem pixel_shown_placing {r : Rect} {key : UInt32} {isLogo : Bool} (hr : r.Fits s.canvas.width s.canvas.height)
    (hblank : ∀ px py, r.HasPixel px py → s.canvas.pixel px py = 0) (layer? : Option (Array UInt8))
    (px py : Nat) :
    ((s.placing name r key isLogo).shown name r layer?).canvas.pixel px py =
      if r.HasPixel px py then (layer?.getD #[]).getD ((py - r.y) * r.w + (px - r.x)) 0
      else s.canvas.pixel px py := by
  cases layer? with
  | some layer =>
    have hreserved : r.Fits (s.canvas.reserve r isLogo).width (s.canvas.reserve r isLogo).height := hr
    exact Canvas.pixel_writeRows_blank hreserved hblank layer px py
  | none =>
    have hsame : ((s.placing name r key isLogo).shown name r none).canvas.pixel px py =
        s.canvas.pixel px py := rfl
    rw [hsame]
    split
    · rename_i hp
      simpa using hblank px py hp
    · rfl

theorem foldl_frameLayer_placed (h : s.waiting? = some (name, f)) (hp : f.placed = true)
    (layers : List (Array UInt8)) :
    layers.foldl (fun s pixels => s.frameLayer pixels) s = s.shown name f.rect layers.head? := by
  cases layers with
  | nil => rfl
  | cons layer layers =>
    rw [List.foldl_cons, frameLayer_placed h hp]
    exact foldl_frameLayer_idle rfl layers

theorem deliverFrames_idle (h : s.pending = none) (frames : List ArchiveFrame) :
    ArchiveEntry.deliverFrames receiver frames s = (.ok (), s) := by
  induction frames with
  | nil => rfl
  | cons frame frames ih =>
    simp only [ArchiveEntry.deliverFrames, receiver, beginFrame_idle (waiting?_of_idle h), endFrame,
      foldl_frameLayer_idle h]
    exact ih

/-- Once the fragment is placed, no frame is refused, and of all layers the first one is painted. -/
theorem deliverFrames_placed (h : s.waiting? = some (name, f)) (hp : f.placed = true)
    (frames : List ArchiveFrame) :
    ArchiveEntry.deliverFrames receiver frames s =
      (.ok (), s.shown name f.rect (frames.flatMap (·.layers)).head?) := by
  induction frames with
  | nil => rfl
  | cons frame frames ih =>
    simp only [ArchiveEntry.deliverFrames, receiver, beginFrame_placed h hp, endFrame,
      foldl_frameLayer_placed h hp]
    rw [List.flatMap_cons]
    cases hl : frame.layers with
    | nil => exact ih
    | cons layer layers => exact deliverFrames_idle rfl frames

/-! ## Settled sinks -/

/-- No fragment is waiting for its place. -/
def Settled (s : Sink) : Prop := ∀ name f, s.waiting? = some (name, f) → f.placed = true

theorem Settled.of_idle (h : s.pending = none) : s.Settled := fun name f hw => by
  rw [waiting?_of_idle h] at hw
  cases hw

/-- A settled sink refuses no header. -/
theorem Settled.beginFrame (h : s.Settled) (header : FrameHeader) : s.beginFrame header = (.ok (), s) := by
  cases hw : s.waiting? with
  | none => exact beginFrame_idle hw header
  | some p => exact beginFrame_placed hw (h p.1 p.2 hw) header

theorem Settled.foldl_frameLayer (h : s.Settled) (layers : List (Array UInt8)) :
    (layers.foldl (fun s pixels => s.frameLayer pixels) s).Settled := by
  cases hw : s.waiting? with
  | none =>
    induction layers with
    | nil => exact h
    | cons layer layers ih => rwa [List.foldl_cons, frameLayer_idle hw]
  | some p =>
    obtain ⟨name, f⟩ := p
    rw [foldl_frameLayer_placed hw (h name f hw)]
    cases layers with
    | nil => exact h
    | cons layer layers => exact .of_idle rfl

/-- A header that is accepted leaves nothing to be placed. -/
theorem settled_of_beginFrame {t : Sink} {header : FrameHeader} (h : s.beginFrame header = (.ok (), t)) :
    t.Settled := by
  cases hw : s.waiting? with
  | none =>
    rw [beginFrame_idle hw] at h
    cases h
    intro name f hw'
    rw [hw] at hw'
    cases hw'
  | some p =>
    obtain ⟨n, g⟩ := p
    cases hp : g.placed with
    | true =>
      rw [beginFrame_placed hw hp] at h
      cases h
      intro name f hw'
      rw [hw] at hw'
      cases hw'
      exact hp
    | false =>
      rw [beginFrame_unplaced hw hp] at h
      split at h
      · cases h
        intro name f hw'
        obtain ⟨hpend, hf⟩ := waiting?_eq_some.1 hw'
        obtain rfl : n = name := Option.some.inj ((waiting?_eq_some.1 hw).1.symm.trans hpend)
        simp only [fragment?, placing, Table.get?_insert, if_true, Option.some.injEq] at hf
        rw [← hf]
      · cases h

theorem Settled.deliverFrames (h : s.Settled) (frames : List ArchiveFrame) :
    ∃ t, ArchiveEntry.deliverFrames receiver frames s = (.ok (), t) ∧ t.Settled := by
  induction frames generalizing s with
  | nil => exact ⟨s, rfl, h⟩
  | cons frame frames ih =>
    rw [ArchiveEntry.deliverFrames, show receiver.beginFrame frame.header s = (.ok (), s) from h.beginFrame _]
    exact ih (h.foldl_frameLayer frame.layers)

/-- Frames can be refused at their first header only. -/
theorem deliverFrames_refused {t : Sink} {frames : List ArchiveFrame} {e : AtlasError}
    (h : ArchiveEntry.deliverFrames receiver frames s = (.error e, t)) :
    ∃ frame rest, frames = frame :: rest ∧ s.beginFrame frame.header = (.error e, t) := by
  cases frames with
  | nil => cases h
  | cons frame rest =>
    refine ⟨frame, rest, rfl, ?_⟩
    rw [ArchiveEntry.deliverFrames] at h
    split at h
    · rename_i hframe
      cases h
      exact hframe
    · rename_i u hframe
      obtain ⟨v, hv, -⟩ := (settled_of_beginFrame hframe).foldl_frameLayer frame.layers |>.deliverFrames rest
      cases hv.symm.trans h

/-- Frames are delivered if there is room for the first of them. -/
theorem exists_deliverFrames {frame : ArchiveFrame} {r : Rect}
    (h : s.canvas.grid.find frame.width.toNat frame.height.toNat = .ok r) (rest : List ArchiveFrame) :
    ∃ t, ArchiveEntry.deliverFrames receiver (frame :: rest) s = (.ok (), t) := by
  cases ht : ArchiveEntry.deliverFrames receiver (frame :: rest) s with
  | mk result t =>
    cases result with
    | ok => exact ⟨t, rfl⟩
    | error e =>
      obtain ⟨_, _, hfr, hheader⟩ := deliverFrames_refused ht
      obtain ⟨-, ⟨_, hnone, -⟩, -⟩ := beginFrame_refused hheader
      cases hfr
      cases h.symm.trans hnone

/-- Once frames have been delivered, and at least one, the sink is settled. -/
theorem settled_of_deliverFrames {t : Sink} {frame : ArchiveFrame} {rest : List ArchiveFrame}
    (h : ArchiveEntry.deliverFrames receiver (frame :: rest) s = (.ok (), t)) : t.Settled := by
  rw [ArchiveEntry.deliverFrames] at h
  split at h
  · cases h
  · rename_i u hframe
    obtain ⟨v, hv, hsettled⟩ := (settled_of_beginFrame hframe).foldl_frameLayer frame.layers |>.deliverFrames rest
    cases hv.symm.trans h
    exact hsettled

/-! ## Whole entries -/

@[simp] theorem canvas_beginEntity (s : Sink) (name : String) : (s.beginEntity name).canvas = s.canvas := rfl

/-- An entity is registered from its beginning on, and what was registered is kept. -/
theorem fragment?_beginEntity (s : Sink) (name n : String) :
    (s.beginEntity name).fragment? n = if n = name then some ((s.fragment? name).getD {}) else s.fragment? n := by
  cases hf : s.fragments.get? name with
  | none =>
    have hn : s.fragments.contains name = false := Table.contains_eq_false_iff.2 hf
    simp only [fragment?, beginEntity, hn, Bool.false_eq_true, if_false, Table.get?_insert, hf, Option.getD_none]
  | some f =>
    have hn : s.fragments.contains name = true := by rw [Table.contains, hf]; rfl
    simp only [fragment?, beginEntity, hn, if_true, hf, Option.getD_some]
    split
    · rename_i hname; rw [hname, hf]
    · rfl

theorem waiting?_beginEntity (hf : ¬ s.Filled name) :
    (s.beginEntity name).waiting? = some (name, (s.fragment? name).getD {}) := by
  rw [waiting?_eq_some]
  refine ⟨if_neg hf, ?_⟩
  rw [fragment?_beginEntity, if_pos rfl]

/-- A name without a place has a record without one from its beginning on. -/
theorem placed_getD_eq_false (h : ∀ f, ¬ s.Places name f) : ((s.fragment? name).getD {}).placed = false := by
  cases hf : s.fragment? name with
  | none => rfl
  | some f => exact Bool.eq_false_iff.2 fun hp => h f ⟨hf, hp⟩

theorem beginEntity_known (h : s.contains name = true) (hf : s.Filled name) :
    s.beginEntity name = s.endEntity := by
  simp only [beginEntity, if_pos (show s.fragments.contains name = true from h),
    if_pos (show s.filled.contains name = true from hf), endEntity]

/-- The sink that awaits the pixels of a name it did not know. -/
def awaiting (s : Sink) (name : String) : Sink :=
  { s with fragments := s.fragments.insert name {}, pending := some name }

theorem beginEntity_new (h : s.contains name = false) (hf : ¬ s.Filled name) :
    s.beginEntity name = s.awaiting name := by
  have hn : ¬ s.fragments.contains name = true := by
    rw [show s.fragments.contains name = false from h]
    exact Bool.false_ne_true
  simp only [beginEntity, if_neg hn, if_neg (show ¬ s.filled.contains name = true from hf), awaiting]

/-- An entry whose pixels are there already is passed over. -/
theorem deliver_filled {e : ArchiveEntry} (h : s.contains e.name = true) (hf : s.Filled e.name) :
    e.deliver receiver s = (.ok (), s.endEntity) := by
  rw [ArchiveEntry.deliver, show receiver.beginEntity e.name s = s.endEntity from beginEntity_known h hf,
    deliverFrames_idle rfl]
  rfl

/-- An entry whose fragment has its place is painted there with its first layer. -/
theorem deliver_placed {e : ArchiveEntry} (h : s.Places e.name f) (hf : ¬ s.Filled e.name) :
    e.deliver receiver s =
      (.ok (), ((s.beginEntity e.name).shown e.name f.rect (e.frames.flatMap (·.layers)).head?).endEntity) := by
  have hw : (s.beginEntity e.name).waiting? = some (e.name, f) := by
    rw [waiting?_beginEntity hf, h.1, Option.getD_some]
  rw [ArchiveEntry.deliver, show receiver.beginEntity e.name s = s.beginEntity e.name from rfl,
    deliverFrames_placed hw h.2]
  rfl

/-- An entry whose fragment has no place is placed at the first fit of its first frame, and painted with
its first layer. -/
theorem deliver_unplaced {e : ArchiveEntry} (h : ∀ f, ¬ s.Places e.name f) (hf : ¬ s.Filled e.name) :
    e.deliver receiver s = match e.frames with
      | [] => (.ok (), (s.beginEntity e.name).endEntity)
      | frame :: _ =>
        match s.canvas.grid.find frame.width.toNat frame.height.toNat with
        | .ok r =>
          (.ok (), (((s.beginEntity e.name).placing e.name r frame.transparencyIndex s.logoActive).shown
            e.name r (e.frames.flatMap (·.layers)).head?).endEntity)
        | .error err =>
          (.error (err.reported s.canvas.width s.canvas.height frame.width.toNat frame.height.toNat),
            s.beginEntity e.name) := by
  have hw := waiting?_beginEntity hf
  rw [ArchiveEntry.deliver, show receiver.beginEntity e.name s = s.beginEntity e.name from rfl]
  cases hfr : e.frames with
  | nil => rfl
  | cons frame frames =>
    have hheader := beginFrame_unplaced hw (placed_getD_eq_false h) frame.header
    simp only [ArchiveFrame.header, canvas_beginEntity] at hheader
    simp only [ArchiveEntry.deliverFrames, receiver, ArchiveFrame.header, hheader]
    cases s.canvas.grid.find frame.width.toNat frame.height.toNat with
    | error err => rfl
    | ok r =>
      -- From here on the frame counts as one more frame of a placed fragment.
      have hplaced : ((s.beginEntity e.name).placing e.name r frame.transparencyIndex s.logoActive).waiting? =
          some (e.name, ⟨r, frame.transparencyIndex, s.logoActive, true⟩) := by
        rw [waiting?_eq_some]
        exact ⟨if_neg hf, by simp [fragment?, placing]⟩
      have hframes := deliverFrames_placed hplaced rfl (frame :: frames)
      simp only [ArchiveEntry.deliverFrames, receiver, beginFrame_placed hplaced rfl] at hframes
      simp only [show (s.beginEntity e.name).logoActive = s.logoActive from rfl, hframes]

/-- An entry of a new name is registered, placed at the first fit of its first frame, and painted
with its first layer. -/
theorem deliver_new {e : ArchiveEntry} (h : s.contains e.name = false) (hf : ¬ s.Filled e.name) :
    e.deliver receiver s = match e.frames with
      | [] => (.ok (), (s.awaiting e.name).endEntity)
      | frame :: _ =>
        match s.canvas.grid.find frame.width.toNat frame.height.toNat with
        | .ok r =>
          (.ok (), (((s.awaiting e.name).placing e.name r frame.transparencyIndex s.logoActive).shown
            e.name r (e.frames.flatMap (·.layers)).head?).endEntity)
        | .error err =>
          (.error (err.reported s.canvas.width s.canvas.height frame.width.toNat frame.height.toNat),
            s.awaiting e.name) := by
  have hunplaced : ∀ f, ¬ s.Places e.name f := fun f hp => by
    rw [hp.contains] at h
    cases h
  rw [deliver_unplaced hunplaced hf, beginEntity_new h hf]

end Sink
end TextureAtlas
