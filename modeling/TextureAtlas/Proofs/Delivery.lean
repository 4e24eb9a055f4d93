import TextureAtlas.Proofs.Stream

/-!
# What a receiver is sent

A receiver that records its events (`FrameSink.recording`) shows what is sent to it. Events are sent as long as
the headers among them are accepted, and a refused header is the last (`FrameSink.receiveAll_of_refused`). So
extracting an entry sends its whole stream, or the part of it that ends with the first refused header
(`Archive.extract_sends_stream`).
-/

namespace TextureAtlas
variable {σ : Type}

namespace FrameSink
variable {sink : FrameSink σ} {event : FrameEvent} {events sent : List FrameEvent} {header : FrameHeader}
  {err : AtlasError} {s : σ}

/-! ## Accepted and refused headers -/

/-- The state after the events, whether or not headers among them are refused. -/
def after (sink : FrameSink σ) (events : List FrameEvent) (s : σ) : σ :=
  events.foldl (fun s event => (sink.receive event s).2) s

/-- Each header among the events is accepted when its turn comes. -/
def AcceptsHeaders (sink : FrameSink σ) (events : List FrameEvent) (s : σ) : Prop :=
  ∀ before header rest, events = before ++ .beginFrame header :: rest →
    (sink.beginFrame header (sink.after before s)).1 = .ok ()

/-- The header right behind the events `sent` is the first one to be refused. -/
structure FirstRefused (sink : FrameSink σ) (events : List FrameEvent) (s : σ) (sent : List FrameEvent)
    (header : FrameHeader) (err : AtlasError) : Prop where
  split : ∃ rest, events = sent ++ .beginFrame header :: rest
  accepted : sink.AcceptsHeaders sent s
  refused : (sink.beginFrame header (sink.after sent s)).1 = .error err

theorem after_cons : sink.after (event :: events) s = sink.after events (sink.receive event s).2 := rfl

theorem after_concat : sink.after (events ++ [event]) s = (sink.receive event (sink.after events s)).2 := by
  rw [after, List.foldl_append]
  rfl

theorem acceptsHeaders_nil : sink.AcceptsHeaders [] s := by
  intro before header rest h
  cases before <;> cases h

/-- An event that is no header is accepted. -/
theorem receive_ok (h : ∀ header, event ≠ .beginFrame header) : (sink.receive event s).1 = .ok () := by
  cases event with
  | beginFrame header => exact absurd rfl (h header)
  | _ => rfl

theorem acceptsHeaders_cons : sink.AcceptsHeaders (event :: events) s ↔
    (sink.receive event s).1 = .ok () ∧ sink.AcceptsHeaders events (sink.receive event s).2 := by
  constructor
  · intro h
    constructor
    · by_cases hheader : ∃ header, event = .beginFrame header
      · obtain ⟨header, rfl⟩ := hheader
        exact h [] header events rfl
      · exact receive_ok fun header he => hheader ⟨header, he⟩
    · intro before header rest he
      exact h (event :: before) header rest (by rw [he, List.cons_append])
  · rintro ⟨hfirst, hrest⟩ before header rest he
    cases before with
    | nil =>
      cases he
      exact hfirst
    | cons event' before =>
      cases he
      exact hrest before header rest rfl

theorem FirstRefused.cons (hfirst : (sink.receive event s).1 = .ok ())
    (h : sink.FirstRefused events (sink.receive event s).2 sent header err) :
    sink.FirstRefused (event :: events) s (event :: sent) header err where
  split := by
    obtain ⟨rest, he⟩ := h.split
    exact ⟨rest, by rw [he, List.cons_append]⟩
  accepted := acceptsHeaders_cons.2 ⟨hfirst, h.accepted⟩
  refused := h.refused

/-- Either all headers are accepted or one is the first to be refused. -/
theorem exists_firstRefused (h : ¬ sink.AcceptsHeaders events s) :
    ∃ sent header err, sink.FirstRefused events s sent header err := by
  induction events generalizing s with
  | nil => exact absurd acceptsHeaders_nil h
  | cons event events ih =>
    cases hfirst : (sink.receive event s).1 with
    | ok u =>
      have hrest : ¬ sink.AcceptsHeaders events (sink.receive event s).2 :=
        fun hrest => h (acceptsHeaders_cons.2 ⟨hfirst, hrest⟩)
      obtain ⟨sent, header, err, hrefused⟩ := ih hrest
      exact ⟨event :: sent, header, err, hrefused.cons hfirst⟩
    | error err =>
      cases event with
      | beginFrame header => exact ⟨[], header, err, ⟨events, rfl⟩, acceptsHeaders_nil, hfirst⟩
      | _ => cases hfirst

theorem receiveAll_of_accepts (h : sink.AcceptsHeaders events s) :
    sink.receiveAll events s = (.ok (), sink.after events s) := by
  induction events generalizing s with
  | nil => rfl
  | cons event events ih =>
    obtain ⟨hfirst, hrest⟩ := acceptsHeaders_cons.1 h
    rw [receiveAll, after_cons, ← ih hrest]
    split
    · rename_i hevent
      rw [hevent] at hfirst
      cases hfirst
    · rename_i hevent
      rw [hevent]

/-- Nothing is received behind the first refused header. -/
theorem receiveAll_of_refused (h : sink.FirstRefused events s sent header err) :
    sink.receiveAll events s = (.error err, sink.after (sent ++ [.beginFrame header]) s) := by
  obtain ⟨rest, rfl⟩ := h.split
  have hrefused : sink.receive (.beginFrame header) (sink.after sent s) =
      (.error err, (sink.receive (.beginFrame header) (sink.after sent s)).2) := Prod.ext h.refused rfl
  rw [receiveAll_append, receiveAll_of_accepts h.accepted, after_concat]
  simp only [receiveAll]
  rw [hrefused]

/-! ## Recorded events -/

/-- The receiver that also records the events sent to it, refused headers included. -/
def recording (sink : FrameSink σ) : FrameSink (σ × List FrameEvent) where
  beginEntity name s := (sink.beginEntity name s.1, s.2 ++ [.beginEntity name])
  beginFrame header s :=
    ((sink.beginFrame header s.1).1, (sink.beginFrame header s.1).2, s.2 ++ [.beginFrame header])
  frameLayer pixels s := (sink.frameLayer pixels s.1, s.2 ++ [.frameLayer pixels])
  endFrame s := (sink.endFrame s.1, s.2 ++ [.endFrame])
  endEntity s := (sink.endEntity s.1, s.2 ++ [.endEntity])

theorem receive_recording (event : FrameEvent) (s : σ) (log : List FrameEvent) :
    sink.recording.receive event (s, log) =
      ((sink.receive event s).1, (sink.receive event s).2, log ++ [event]) := by
  cases event <;> rfl

/-- The record of what is received is the events themselves. -/
theorem after_recording (events : List FrameEvent) (s : σ) (log : List FrameEvent) :
    sink.recording.after events (s, log) = (sink.after events s, log ++ events) := by
  induction events generalizing s log with
  | nil => rw [List.append_nil]; rfl
  | cons event events ih => rw [after_cons, receive_recording, ih, after_cons, List.append_assoc, List.singleton_append]

/-- Recording makes no difference to what is accepted. -/
theorem acceptsHeaders_recording (log : List FrameEvent) :
    sink.recording.AcceptsHeaders events (s, log) ↔ sink.AcceptsHeaders events s := by
  induction events generalizing s log with
  | nil => exact iff_of_true acceptsHeaders_nil acceptsHeaders_nil
  | cons event events ih => rw [acceptsHeaders_cons, acceptsHeaders_cons, receive_recording, ih]

theorem FirstRefused.recording (h : sink.FirstRefused events s sent header err) (log : List FrameEvent) :
    sink.recording.FirstRefused events (s, log) sent header err where
  split := h.split
  accepted := (acceptsHeaders_recording log).2 h.accepted
  refused := by
    rw [after_recording]
    exact h.refused

/-- Recording makes no difference to what comes of the events. -/
theorem receiveAll_recording (events : List FrameEvent) (s : σ) (log : List FrameEvent) :
    sink.receiveAll events s =
      ((sink.recording.receiveAll events (s, log)).1, (sink.recording.receiveAll events (s, log)).2.1) := by
  by_cases h : sink.AcceptsHeaders events s
  · rw [receiveAll_of_accepts h, receiveAll_of_accepts ((acceptsHeaders_recording log).2 h), after_recording]
  · obtain ⟨sent, header, err, hrefused⟩ := exists_firstRefused h
    rw [receiveAll_of_refused hrefused, receiveAll_of_refused (hrefused.recording log), after_recording]

end FrameSink

/-! ## Extracting an entry -/

/-- **Extracting sends the stream of the entry up to the first refused header.** The record that a receiver
keeps changes nothing else. From an archive without the entry nothing is sent, and the entry is reported
unknown. Otherwise the stream of the first entry of that name is sent: all of it, and with success, if every
header is accepted; else the part that ends with the first refused header, whose refusal is the result. -/
theorem Archive.extract_sends_stream (a : Archive) (name : String) (sink : FrameSink σ) (s : σ) :
    a.extract name sink s =
      ((a.extract name sink.recording (s, [])).1, (a.extract name sink.recording (s, [])).2.1) ∧
    ((∀ e ∈ a.entries, e.name ≠ name) →
      a.extract name sink.recording (s, []) = (.error (.unknownEntry a.name name), s, [])) ∧
    ∀ before e behind, a.entries = before ++ e :: behind → e.name = name → (∀ b ∈ before, b.name ≠ name) →
      (sink.AcceptsHeaders e.events s →
        a.extract name sink.recording (s, []) = (.ok (), sink.after e.events s, e.events)) ∧
      (¬ sink.AcceptsHeaders e.events s → ∃ sent header err, sink.FirstRefused e.events s sent header err ∧
        a.extract name sink.recording (s, []) =
          (.error err, sink.after (sent ++ [.beginFrame header]) s, sent ++ [.beginFrame header])) := by
  refine ⟨?_, fun hlacks => ?_, fun before e behind hentries hname hbefore => ?_⟩
  · simp only [extract]
    cases a.entry? name with
    | none => rfl
    | some e =>
      simp only [ArchiveEntry.deliver_eq_receiveAll]
      exact FrameSink.receiveAll_recording e.events s []
  · have hnone : a.entry? name = none := by
      refine List.find?_eq_none.2 ?_
      intro e he
      simpa using hlacks e he
    rw [extract, hnone]
  · have hentry : a.entry? name = some e :=
      List.find?_eq_some_iff_append.2
        ⟨by simpa using hname, before, behind, hentries, fun b hb => by simpa using hbefore b hb⟩
    have hextract : a.extract name sink.recording (s, []) = sink.recording.receiveAll e.events (s, []) := by
      rw [extract, hentry]
      exact e.deliver_eq_receiveAll sink.recording (s, [])
    rw [hextract]
    constructor
    · intro haccepts
      rw [FrameSink.receiveAll_of_accepts ((FrameSink.acceptsHeaders_recording []).2 haccepts),
        FrameSink.after_recording, List.nil_append]
    · intro hrefuses
      obtain ⟨sent, header, err, hfirst⟩ := FrameSink.exists_firstRefused hrefuses
      refine ⟨sent, header, err, hfirst, ?_⟩
      rw [FrameSink.receiveAll_of_refused (hfirst.recording []), FrameSink.after_recording, List.nil_append]

/-- A receiver that counts headers and takes the first one only is sent nothing behind the second one. -/
example :
    let sink : FrameSink Nat :=
      ⟨fun _ n => n, fun _ n => (if n = 0 then .ok () else .error .json, n + 1), fun _ n => n, id, id⟩
    let lamp : ArchiveEntry := ⟨"lamp", [⟨1, 1, 0, [#[5]]⟩, ⟨2, 1, 0, [#[7, 8]]⟩, ⟨3, 1, 0, []⟩]⟩
    (Archive.extract ⟨"a.gaf", [lamp]⟩ "lamp" sink.recording (0, [])).2 =
      (2, [.beginEntity "lamp", .beginFrame ⟨1, 1, 0⟩, .frameLayer #[5], .endFrame, .beginFrame ⟨2, 1, 0⟩]) := rfl

end TextureAtlas
