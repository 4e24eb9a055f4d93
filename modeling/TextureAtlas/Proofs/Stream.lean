import TextureAtlas.Archive

/-!
# Entries as streams

A receiver takes events one by one until it refuses one (`FrameSink.receiveAll`). Delivering an entry is
having its stream received so (`ArchiveEntry.deliver_eq_receiveAll`): after a refusal nothing more is sent.
Only a header is refused (`FrameSink.exists_refused`), so an entry that is there is never reported missing
unless the receiver does so itself (`Archive.extract_ne_unknownEntry`).
-/

namespace TextureAtlas
variable {σ : Type}

/-- Receives events until one is refused. -/
def FrameSink.receiveAll (sink : FrameSink σ) : List FrameEvent → σ → Except AtlasError Unit × σ
  | [], s => (.ok (), s)
  | event :: events, s =>
    match sink.receive event s with
    | (.error e, s) => (.error e, s)
    | (.ok (), s) => sink.receiveAll events s

namespace FrameSink
variable (sink : FrameSink σ)

theorem receiveAll_append (events more : List FrameEvent) (s : σ) :
    sink.receiveAll (events ++ more) s = match sink.receiveAll events s with
      | (.error e, s) => (.error e, s)
      | (.ok (), s) => sink.receiveAll more s := by
  induction events generalizing s with
  | nil => rfl
  | cons event events ih =>
    simp only [List.cons_append, receiveAll]
    cases h : sink.receive event s with
    | mk result t =>
      cases result with
      | error e => rfl
      | ok => exact ih t

/-- Layers are never refused. -/
theorem receiveAll_layers (layers : List (Array UInt8)) (s : σ) :
    sink.receiveAll (layers.map .frameLayer) s =
      (.ok (), layers.foldl (fun s pixels => sink.frameLayer pixels s) s) := by
  induction layers generalizing s with
  | nil => rfl
  | cons layer layers ih => exact ih (sink.frameLayer layer s)

/-- Of the events of a frame only the header may be refused. -/
theorem receiveAll_frame (f : ArchiveFrame) (s : σ) :
    sink.receiveAll f.events s = match sink.beginFrame f.header s with
      | (.error e, s) => (.error e, s)
      | (.ok (), s) =>
        (.ok (), sink.endFrame (f.layers.foldl (fun s pixels => sink.frameLayer pixels s) s)) := by
  simp only [ArchiveFrame.events, receiveAll, receive]
  cases sink.beginFrame f.header s with
  | mk result t =>
    cases result with
    | error e => rfl
    | ok => simp only [receiveAll_append, receiveAll_layers, receiveAll, receive]

/-- A stream is broken off by a refused header, and for the reason of the refusal. -/
theorem exists_refused {events : List FrameEvent} {s t : σ} {err : AtlasError}
    (h : sink.receiveAll events s = (.error err, t)) : ∃ header u, sink.beginFrame header u = (.error err, t) := by
  induction events generalizing s with
  | nil => cases h
  | cons event events ih =>
    rw [receiveAll] at h
    split at h
    · rename_i hrefused
      cases h
      cases event with
      | beginFrame header => exact ⟨header, s, hrefused⟩
      | _ => cases hrefused
    · exact ih h

/-- The receiver itself never reports an entry missing. -/
def NeverUnknown : Prop :=
  ∀ header s archive entry, (sink.beginFrame header s).1 ≠ .error (.unknownEntry archive entry)

end FrameSink

namespace ArchiveEntry

theorem deliverFrames_eq_receiveAll (sink : FrameSink σ) (frames : List ArchiveFrame) (s : σ) :
    deliverFrames sink frames s = sink.receiveAll (frames.flatMap ArchiveFrame.events) s := by
  induction frames generalizing s with
  | nil => rfl
  | cons f frames ih =>
    rw [deliverFrames, List.flatMap_cons, FrameSink.receiveAll_append, FrameSink.receiveAll_frame]
    cases sink.beginFrame f.header s with
    | mk result t =>
      cases result with
      | error e => rfl
      | ok => exact ih _

/-- Delivering an entry is having its stream received. -/
theorem deliver_eq_receiveAll (e : ArchiveEntry) (sink : FrameSink σ) (s : σ) :
    e.deliver sink s = sink.receiveAll e.events s := by
  rw [deliver, deliverFrames_eq_receiveAll, events]
  simp only [FrameSink.receiveAll, FrameSink.receive, FrameSink.receiveAll_append]
  cases sink.receiveAll (e.frames.flatMap ArchiveFrame.events) (sink.beginEntity e.name s) with
  | mk result t =>
    cases result with
    | error e => rfl
    | ok => rfl

end ArchiveEntry

/-- An entry that is there is not reported missing. -/
theorem Archive.extract_ne_unknownEntry {a : Archive} {name : String} (h : a.contains name = true)
    {sink : FrameSink σ} (hsink : sink.NeverUnknown) (s : σ) (archive entry : String) :
    (a.extract name sink s).1 ≠ .error (.unknownEntry archive entry) := by
  obtain ⟨e, he⟩ := Option.isSome_iff_exists.1 h
  rw [extract, he]
  simp only [e.deliver_eq_receiveAll]
  intro herr
  obtain ⟨header, u, hrefused⟩ := sink.exists_refused (Prod.ext herr rfl)
  exact hsink header u archive entry (congrArg Prod.fst hrefused)

end TextureAtlas
