import KepServerLogger.Ingestor.Main

/-!
# What ends the heartbeat's task

Of the loop's body only the send is guarded. The report of a stale heartbeat
stands after it in the open, and in the ingestor it is a write to the
database; when it raises, the task is over without having been cancelled, and
no other beat follows.
-/

namespace KepServerLogger.Lib.HeartbeatRun

open KepServerLogger.Py

variable {millis : Int → PyFloat} {handler : SystemHeartbeatHandler} {stale_after : Int}
  {reports : Bool} {s s' : HeartbeatRun} {e : Event} {tr : List (HeartbeatRun × Event)}

/-! ## One step -/

/-- What a step does, with what it needs. -/
inductive Stepped (millis : Int → PyFloat) (s : HeartbeatRun) : Event → HeartbeatRun → Prop
  | started (now : Utc) (hphase : s.phase = .starting) :
      Stepped millis s (.started now) { s with phase := .created }
  | beat (monotonic : Int) (now : Utc)
      (hphase : s.phase = .created ∨ ∃ since, s.phase = .sleeping since) :
      Stepped millis s (.beat monotonic now) (s.send monotonic now)
  | sent (outcome : Except Exc Unit) (now since : Utc) (report : Except Exc Unit)
      (hphase : s.phase = .sending since) :
      Stepped millis s (.sent outcome now report) (s.check now report)
  | cancel (hphase : ¬ s.phase.IsOver) :
      Stepped millis s .cancel { s with phase := .cancelled }
  | notified (val : Int) (now : Utc) (monotonic : Int) :
      Stepped millis s (.notified val now monotonic)
        { s with handler := (s.handler.datachangeNotification millis val now monotonic).1 }

theorem step_cases (hs : step millis s e = some s') : Stepped millis s e s' := by
  cases e with
  | started now =>
      simp only [step] at hs
      split at hs
      · next hphase =>
          cases hs
          exact .started now hphase
      · cases hs
  | beat monotonic now =>
      simp only [step] at hs
      split at hs
      · next hphase =>
          cases hs
          exact .beat monotonic now (.inl hphase)
      · next since hphase =>
          cases hs
          exact .beat monotonic now (.inr ⟨since, hphase⟩)
      · cases hs
  | sent outcome now report =>
      simp only [step] at hs
      split at hs
      · next since hphase =>
          cases hs
          exact .sent outcome now since report hphase
      · cases hs
  | cancel =>
      simp only [step] at hs
      split at hs
      all_goals first | cases hs; done | skip
      all_goals
        next hphase =>
          cases hs
          exact .cancel (by rw [hphase]; exact id)
  | notified val now monotonic =>
      cases hs
      exact .notified val now monotonic

/-- Where the check leaves the task. -/
theorem phase_check (s : HeartbeatRun) (now : Utc) (report : Except Exc Unit) :
    (s.check now report).phase = .sleeping now ∨
      s.callsOnStale now = true ∧ ∃ exc, report = .error exc ∧
        (s.check now report).phase = .raised exc := by
  unfold check
  split
  · next hcalls =>
      cases report with
      | ok _ => exact .inl rfl
      | error exc => exact .inr ⟨hcalls, exc, rfl, rfl⟩
  · exact .inl rfl

/-! ## Runs -/

/-- `on_stale` is called after this send, and raises. -/
def ReportRaises (p : HeartbeatRun × Event) : Prop :=
  ∃ outcome now exc, p.2 = .sent outcome now (.error exc) ∧ p.1.callsOnStale now = true

theorem phase_check_of_not_raises {now : Utc} {outcome report : Except Exc Unit}
    (h : ¬ ReportRaises (s, .sent outcome now report)) :
    (s.check now report).phase = .sleeping now := by
  rcases phase_check s now report with hphase | ⟨hcalls, exc, rfl, -⟩
  · exact hphase
  · exact absurd ⟨outcome, now, exc, rfl, hcalls⟩ h

theorem cancelled_of_isOver
    (h : Run (step millis) (new handler stale_after reports) tr s)
    (hquiet : ∀ p ∈ tr, ¬ ReportRaises p) (hover : s.phase.IsOver) : ∃ p ∈ tr, p.2 = .cancel := by
  induction h with
  | nil => exact hover.elim
  | @snoc tr s s' e h hs ih =>
      have hearlier : s.phase.IsOver → ∃ p ∈ tr ++ [(s, e)], p.2 = .cancel := by
        intro hover
        obtain ⟨p, hp, hcancel⟩ := ih (fun p hp => hquiet p (List.mem_append_left _ hp)) hover
        exact ⟨p, List.mem_append_left _ hp, hcancel⟩
      have hlast : (s, e) ∈ tr ++ [(s, e)] := List.mem_append_right _ (List.mem_singleton_self _)
      cases step_cases hs with
      | started now hphase => exact hover.elim
      | beat monotonic now hphase => exact hover.elim
      | sent outcome now since report hphase =>
          rw [phase_check_of_not_raises (hquiet _ hlast)] at hover
          exact hover.elim
      | cancel hphase => exact ⟨_, hlast, rfl⟩
      | notified val now monotonic => exact hearlier hover

/-- The task is over only when it has been cancelled, and after every send,
whatever became of it, another beat can follow. -/
structure GoesOn (millis : Int → PyFloat) (s₀ : HeartbeatRun)
    (tr : List (HeartbeatRun × Event)) : Prop where
  ends : ∀ past s, past <+: tr → Run (step millis) s₀ past s → s.phase.IsOver →
    ∃ p ∈ past, p.2 = .cancel
  beats : ∀ s s' outcome now report, (s, Event.sent outcome now report) ∈ tr →
    step millis s (.sent outcome now report) = some s' →
    ∀ monotonic later, (step millis s' (.beat monotonic later)).isSome = true

/-- The loop goes on until it is cancelled exactly if no call of `on_stale`
raises. -/
theorem goesOn_iff (h : Run (step millis) (new handler stale_after reports) tr s) :
    GoesOn millis (new handler stale_after reports) tr ↔ ∀ p ∈ tr, ¬ ReportRaises p := by
  constructor
  · intro hon p hp hraises
    obtain ⟨q, e⟩ := p
    obtain ⟨outcome, now, exc, rfl, hcalls⟩ := hraises
    obtain ⟨_, q', -, -, hs⟩ := h.of_mem hp
    have hbeat := hon.beats q q' outcome now (.error exc) hp hs 0 now
    cases step_cases hs with
    | sent _ _ since _ hphase =>
        rw [check, if_pos hcalls] at hbeat
        cases hbeat
  · intro hquiet
    refine ⟨?_, ?_⟩
    · intro past q hpast hrun hover
      exact cancelled_of_isOver hrun (fun p hp => hquiet p (hpast.subset hp)) hover
    · intro q q' outcome now report hmem hs monotonic later
      cases step_cases hs with
      | sent _ _ since _ hphase =>
          have hsleeping := phase_check_of_not_raises (hquiet _ hmem)
          rw [step, hsleeping]
          rfl

/-- Some milliseconds after noon, within the minute, for the runs below. -/
def atNoon (millis : Nat) : Utc :=
  ⟨⟨2026, 2, 2, 12, 0, millis / 1000 % 60, millis % 1000 * 1000, by decide, by decide, by decide,
    by decide, by decide, Nat.mod_lt _ (by decide), by omega⟩⟩

/-- A notification, silence for longer than the limit, and a report that the
database refuses. -/
def refusedReport : List Event :=
  [.started (atNoon 0),
    .notified 0 (atNoon 500) 0,
    .beat 1000 (atNoon 1000),
    .sent (.ok ()) (atNoon 1000) (.ok ()),
    .beat 2000 (atNoon 6000),
    .sent (.ok ()) (atNoon 6000) (.error ProjectDatabase.connectionLost)]

theorem execute_refusedReport :
    (execute (step fun _ => ⟨"0.0"⟩) (Ingestor.collectorHeartbeat 1) refusedReport).isSome =
      true := by
  decide

/-- The task is over, and nobody has cancelled it. -/
theorem refusedReport_ends :
    let run := executed (step fun _ => ⟨"0.0"⟩) (Ingestor.collectorHeartbeat 1) refusedReport
      execute_refusedReport
    Run (step fun _ => ⟨"0.0"⟩) (Ingestor.collectorHeartbeat 1) run.1 run.2 ∧
      run.2.phase = .raised ProjectDatabase.connectionLost ∧
      ¬ GoesOn (fun _ => ⟨"0.0"⟩) (Ingestor.collectorHeartbeat 1) run.1 := by
  have hrun := Run.executed execute_refusedReport
  have hphase : (executed (step fun _ => ⟨"0.0"⟩) (Ingestor.collectorHeartbeat 1) refusedReport
      execute_refusedReport).2.phase = .raised ProjectDatabase.connectionLost := by decide
  refine ⟨hrun, hphase, fun hon => ?_⟩
  obtain ⟨p, hp, hcancel⟩ := hon.ends _ _ (List.prefix_refl _) hrun (by rw [hphase]; trivial)
  have hmap := map_snd_executed execute_refusedReport
  have hmem : Event.cancel ∈ refusedReport := hmap ▸ hcancel ▸ List.mem_map_of_mem hp
  exact absurd hmem (by decide)

theorem goesOn_refusedReport :
    let run := executed (step fun _ => ⟨"0.0"⟩) (Ingestor.collectorHeartbeat 1) refusedReport
      execute_refusedReport
    GoesOn (fun _ => ⟨"0.0"⟩) (Ingestor.collectorHeartbeat 1) run.1 ↔
      ∀ p ∈ run.1, ¬ ReportRaises p :=
  goesOn_iff (Run.executed execute_refusedReport)

end KepServerLogger.Lib.HeartbeatRun
