import TextureAtlas.CommandLine.Session

/-!
# Runs and how they end

`Run.outcome` is what comes of a run. `Run.Leaves` says that it ends well, with which result and which file tree;
what is reported or printed is left out, for nothing reads it. A chain of steps ends well iff each of them does in
turn.
-/

namespace TextureAtlas.CommandLine.Run
variable {α β ε : Type} {x : Run α} {f : α → Run β} {s : Session} {a : α} {b : β} {t : FileTree}

/-! ## Outcomes -/

/-- What the run gives and the session it leaves. -/
def outcome (x : Run α) (s : Session) : Except Trouble α × Session := (ExceptT.run x).run s

theorem outcome_bind : outcome (x >>= f) s = match outcome x s with
    | (.ok a, s') => outcome (f a) s'
    | (.error e, s') => (.error e, s') := by
  simp only [outcome, ExceptT.run_bind, StateT.run_bind]
  cases (ExceptT.run x).run s with
  | mk result s' => cases result <;> rfl

theorem outcome_files_bind {f : FileTree → Run β} : outcome (files >>= f) s = outcome (f s.files) s := by
  rw [outcome_bind]
  rfl

theorem outcome_report_bind {event : LogEvent} {f : Unit → Run β} :
    outcome (report event >>= f) s = outcome (f ()) { s with log := s.log ++ [event] } := by
  rw [outcome_bind]
  rfl

theorem outcome_lift_bind {result : Except ε α} {trouble : ε → Trouble} :
    outcome (lift trouble result >>= f) s =
      match result with
      | .ok a => outcome (f a) s
      | .error e => (.error (trouble e), s) := by
  rw [outcome_bind]
  cases result with
  | ok a => rfl
  | error e => rfl

theorem outcome_write {p : Path} {content : FileContent} : outcome (write p content) s =
    match s.files.write p content with
    | .ok t => (.ok (), { s with files := t })
    | .error e => (.error (.notWritten p e), s) := by
  rw [write, outcome_files_bind, outcome_lift_bind]
  cases s.files.write p content with
  | ok t => rfl
  | error e => rfl

theorem outcome_attempt : outcome (attempt x) s = (.ok (outcome x s).1, (outcome x s).2) := rfl

theorem outcome_createAll_bind {p : Path} {trouble : IoError → Trouble} {f : Unit → Run β}
    (h : s.files.createAll p = (.ok (), t)) :
    outcome (createAll p trouble >>= f) s = outcome (f ()) { s with files := t } := by
  have hmade : outcome (createAll p trouble) s =
    outcome (lift trouble (s.files.createAll p).1) { s with files := (s.files.createAll p).2 } := rfl
  rw [outcome_bind, hmade, h]
  rfl

theorem outcome_bind_report (x : Run α) (event : LogEvent) (s : Session) :
    (outcome (x >>= fun _ => report event) s).1.isOk = (outcome x s).1.isOk ∧
      (outcome (x >>= fun _ => report event) s).2.files = (outcome x s).2.files := by
  rw [outcome_bind]
  cases outcome x s with
  | mk result s' =>
    cases result with
    | ok a => exact ⟨rfl, rfl⟩
    | error e => exact ⟨rfl, rfl⟩

/-! ## Good ends -/

/-- Done in the session, the run ends well with the result and leaves the file tree. -/
def Leaves (x : Run α) (s : Session) (a : α) (t : FileTree) : Prop :=
  ∃ s', outcome x s = (.ok a, s') ∧ s'.files = t

theorem leaves_pure {a' : α} : Leaves (pure a') s a t ↔ a = a' ∧ t = s.files := by
  constructor
  · rintro ⟨s', hrun, rfl⟩
    cases hrun
    exact ⟨rfl, rfl⟩
  · rintro ⟨rfl, rfl⟩
    exact ⟨s, rfl, rfl⟩

theorem leaves_bind : Leaves (x >>= f) s b t ↔ ∃ a s', outcome x s = (.ok a, s') ∧ Leaves (f a) s' b t := by
  rw [Leaves, outcome_bind]
  cases outcome x s with
  | mk result s' =>
    cases result with
    | ok a => simp [Leaves, and_assoc]
    | error e => simp

theorem leaves_bind_pure {g : α → β} :
    Leaves (x >>= fun a => pure (g a)) s b t ↔ ∃ a, Leaves x s a t ∧ b = g a := by
  rw [leaves_bind]
  constructor
  · rintro ⟨a, s', hrun, hrest⟩
    obtain ⟨hb, ht⟩ := leaves_pure.1 hrest
    exact ⟨a, ⟨s', hrun, ht.symm⟩, hb⟩
  · rintro ⟨a, ⟨s', hrun, ht⟩, hb⟩
    exact ⟨a, s', hrun, leaves_pure.2 ⟨hb, ht.symm⟩⟩

theorem leaves_throw_bind {trouble : Trouble} : ¬ Leaves (throw trouble >>= f) s b t := by
  rw [leaves_bind]
  rintro ⟨a, s', hrun, -⟩
  cases hrun

/-! ## The steps -/

theorem leaves_files_bind {f : FileTree → Run β} : Leaves (files >>= f) s b t ↔ Leaves (f s.files) s b t := by
  rw [leaves_bind]
  constructor
  · rintro ⟨a, s', hrun, hrest⟩
    cases hrun
    exact hrest
  · exact fun hrest => ⟨s.files, s, rfl, hrest⟩

theorem leaves_report_bind {event : LogEvent} {f : Unit → Run β} :
    Leaves (report event >>= f) s b t ↔ Leaves (f ()) { s with log := s.log ++ [event] } b t := by
  rw [leaves_bind]
  constructor
  · rintro ⟨a, s', hrun, hrest⟩
    cases hrun
    exact hrest
  · exact fun hrest => ⟨(), _, rfl, hrest⟩

theorem leaves_reports_bind {ι : Type} {event : ι → LogEvent} {items : List ι} {f : Unit → Run β} :
    Leaves ((items.forM fun item => report (event item)) >>= f) s b t ↔
      Leaves (f ()) { s with log := s.log ++ items.map event } b t := by
  induction items generalizing s with
  | nil => simp
  | cons item items ih =>
    simp only [List.forM_eq_forM, List.forM_cons, bind_assoc, leaves_report_bind] at ih ⊢
    simp [ih]

theorem leaves_reportAll_bind {events : List LogEvent} {f : Unit → Run β} :
    Leaves (events.forM report >>= f) s b t ↔ Leaves (f ()) { s with log := s.log ++ events } b t := by
  have h := @leaves_reports_bind β s b t LogEvent id events f
  rw [List.map_id] at h
  exact h

/-- A report at the end changes nothing. -/
theorem leaves_bind_report_pure {event : α → LogEvent} {g : α → β} :
    Leaves (x >>= fun a => report (event a) >>= fun _ => pure (g a)) s b t ↔ ∃ a, Leaves x s a t ∧ b = g a := by
  rw [leaves_bind]
  simp only [leaves_report_bind, leaves_pure]
  constructor
  · rintro ⟨a, s', hrun, hb, ht⟩
    exact ⟨a, ⟨s', hrun, ht.symm⟩, hb⟩
  · rintro ⟨a, ⟨s', hrun, ht⟩, hb⟩
    exact ⟨a, s', hrun, hb, ht.symm⟩

/-- Reports at the end change nothing. -/
theorem leaves_bind_reports_pure {ι : Type} {event : ι → LogEvent} {items : α → List ι} {g : α → β} :
    Leaves (x >>= fun a => ((items a).forM fun item => report (event item)) >>= fun _ => pure (g a)) s b t ↔
      ∃ a, Leaves x s a t ∧ b = g a := by
  rw [leaves_bind]
  simp only [leaves_reports_bind, leaves_pure]
  constructor
  · rintro ⟨a, s', hrun, hb, ht⟩
    exact ⟨a, ⟨s', hrun, ht.symm⟩, hb⟩
  · rintro ⟨a, ⟨s', hrun, ht⟩, hb⟩
    exact ⟨a, s', hrun, hb, ht.symm⟩

theorem leaves_lift_bind {trouble : ε → Trouble} {result : Except ε α} :
    Leaves (lift trouble result >>= f) s b t ↔ ∃ a, result = .ok a ∧ Leaves (f a) s b t := by
  cases result with
  | ok a => simp [lift]
  | error e =>
    constructor
    · exact fun h => absurd h leaves_throw_bind
    · rintro ⟨a, ⟨⟩, -⟩

theorem leaves_write_bind {p : Path} {content : FileContent} {f : Unit → Run β} :
    Leaves (write p content >>= f) s b t ↔
      ∃ t', s.files.write p content = .ok t' ∧ Leaves (f ()) { s with files := t' } b t := by
  rw [write, bind_assoc, leaves_files_bind, bind_assoc, leaves_lift_bind]
  refine exists_congr fun t' => and_congr_right fun _ => ?_
  rw [leaves_bind]
  constructor
  · rintro ⟨a, s', hrun, hrest⟩
    cases hrun
    exact hrest
  · exact fun hrest => ⟨(), _, rfl, hrest⟩

end TextureAtlas.CommandLine.Run
