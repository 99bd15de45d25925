import KepServerLogger.Ingestor.Main

/-!
# What ends a session and what ends the coroutine

The database is called in four places of a session. The write of a flush and
the report of a stale heartbeat are guarded: what they raise goes no further
than the flush and the heartbeat's own task. The report that the session is
active and the one that a subscription is silent are not, so what they raise
ends the session.

`main` itself calls the database in three more places, none of them guarded:
when it starts, and twice when it handles the failure of a session. What is
raised there ends the coroutine.
-/

namespace KepServerLogger.Ingestor.Main

open KepServerLogger.Py KepServerLogger.Lib

variable {env : Externals} {accepts : Write → Bool} {metrics : List String}
  {s s' : Main} {e : Event}

/-! ## One step -/

theorem advance_tasks (hs : s.advance accepts e = some s') : s'.tasks = s.tasks := by
  cases e <;> simp only [advance, threadEnds] at hs <;> repeat' split at hs
  all_goals first | cases hs; rfl | cases hs

/-- A step is what the event does to the coroutine and what it does to
`Ingest`. -/
theorem step_cases (hs : step accepts env metrics s e = some s') :
    ∃ s₁, s.advance accepts e = some s₁ ∧ s' = { s₁ with tasks := s'.tasks } ∧
      ((s.taskEvent accepts metrics e = none ∧ s'.tasks = s.tasks) ∨
        ∃ event, s.taskEvent accepts metrics e = some event ∧
          Tasks.step env s.tasks event = some s'.tasks) := by
  unfold step at hs
  split at hs
  · cases hs
  · next s₁ hadvance =>
      split at hs
      · next hnone =>
          cases hs
          exact ⟨s', hadvance, rfl, Or.inl ⟨hnone, advance_tasks hadvance⟩⟩
      · next event hevent =>
          obtain ⟨tasks, htasks, rfl⟩ := Option.map_eq_some_iff.mp hs
          exact ⟨s₁, hadvance, rfl, Or.inr ⟨event, hevent, htasks⟩⟩

theorem phase_step (hs : step accepts env metrics s e = some s') :
    ∃ s₁, s.advance accepts e = some s₁ ∧ s'.phase = s₁.phase := by
  obtain ⟨s₁, hadvance, heq, _⟩ := step_cases hs
  exact ⟨s₁, hadvance, by rw [heq]⟩

/-- A call of the database in `main` that raises. -/
def givesUp (accepts : Write → Bool) : Main × Event → Bool
  | (_, .dbInitialize (some _)) => true
  | (s, .reportFailure event_id now _) =>
      match s.phase with
      | .handling (.raised _ reason) =>
          !s.returns accepts (.logEvent "ERROR" "RECONNECT" reason event_id now)
      | _ => false
  | (s, .reportInactive now _) =>
      match s.phase with
      | .reporting error_id => !s.returns accepts (inactive none (some error_id) now)
      | _ => false
  | _ => false

/-- What a step does to the connection and to the life of the coroutine. -/
theorem advance_cases (hs : s.advance accepts e = some s') :
    (e = .dbInitialize none ∧ s.phase = .initializing ∧ s'.phase = .connecting ∧
      s'.attached = true ∧ s'.usable = true) ∨
    (s.phase.isEnded = false ∧ e ≠ .linkBreaks ∧
      ∃ exc, s'.phase = .ended (!givesUp accepts (s, e)) exc) ∨
    (e = .linkBreaks ∧ s.usable = true ∧ s' = { s with usable := false }) ∨
    (e ≠ .linkBreaks ∧ givesUp accepts (s, e) = false ∧ s'.attached = s.attached ∧
      s'.usable = s.usable ∧
      (s'.phase = s.phase ∨ s.phase ≠ .initializing ∧ s.phase.isEnded = false ∧
        s'.phase ≠ .initializing ∧ s'.phase.isEnded = false)) := by
  cases e <;> simp only [advance, threadEnds] at hs <;> repeat' split at hs
  all_goals cases hs
  all_goals simp_all [givesUp, close, Phase.isEnded]

/-! ## The end of a session -/

/-- A report that nothing guards is not written. -/
def unreported (accepts : Write → Bool) : Main × Event → Bool
  | (s, .hostRead host_name now _) =>
      !s.returns accepts (.logStatus "active" host_name none none now)
  | (s, .silent message event_id now _) =>
      !s.returns accepts (.logEvent "WARNING" "SUBSCRIPTION" (timeoutError message) event_id now)
  | _ => false

theorem endedBy_step (hs : step accepts env metrics s e = some s')
    (h : s'.phase.endedBy = some .database) :
    s.phase.endedBy = some .database ∨ unreported accepts (s, e) = true := by
  obtain ⟨s₁, hadvance, hphase⟩ := phase_step hs
  rw [hphase] at h
  clear hphase hs
  cases e <;> simp only [advance, threadEnds] at hadvance <;> repeat' split at hadvance
  all_goals cases hadvance
  all_goals simp_all [unreported, Phase.endedBy, Phase.exit, Exit.origin, close]

theorem endedBy_of_unreported (hs : step accepts env metrics s e = some s')
    (h : unreported accepts (s, e) = true) : s'.phase.endedBy = some .database := by
  obtain ⟨s₁, hadvance, hphase⟩ := phase_step hs
  rw [hphase]
  cases e <;> simp only [unreported, Bool.not_eq_true', reduceCtorEq] at h
  · simp only [advance, h] at hadvance
    split at hadvance <;> cases hadvance
    rfl
  · simp only [advance, h] at hadvance
    split at hadvance <;> cases hadvance
    rfl

/-- In every run: no session is ended by an exception of the database, exactly
if every report that a session is active and that a subscription is silent is
written. -/
theorem sessions_survive_iff {tr : List (Main × Event)}
    (h : Run (step accepts env metrics) start tr s) :
    (∀ t ∈ tr.map Prod.fst ++ [s], t.phase.endedBy ≠ some .database) ↔
      ∀ p ∈ tr, unreported accepts p = false := by
  induction h with
  | nil => exact iff_of_true (by decide) fun _ hp => absurd hp List.not_mem_nil
  | @snoc tr s s' e _ hs ih =>
      have hstates : (tr ++ [(s, e)]).map Prod.fst ++ [s'] = (tr.map Prod.fst ++ [s]) ++ [s'] := by
        rw [List.map_append, List.map_singleton]
      rw [hstates, List.forall_mem_append, ih, List.forall_mem_append, List.forall_mem_singleton,
        List.forall_mem_singleton]
      refine and_congr_right fun hbefore => ?_
      have hsurvives := ih.mpr hbefore s (List.mem_append_right _ List.mem_cons_self)
      constructor
      · intro hnow
        rw [← Bool.not_eq_true]
        exact fun hun => hnow (endedBy_of_unreported hs hun)
      · intro hwritten hended
        rcases endedBy_step hs hended with hbefore | hun
        · exact hsurvives hbefore
        · rw [hwritten] at hun
          cases hun

def brokenLink : Reported :=
  ⟨"OperationalError", "the connection is closed",
    "psycopg.OperationalError: the connection is closed\n"⟩

def someTime : Datetime := ⟨⟨2026, 1, 1, 12, 0, 2, 0, by decide⟩, some .utc⟩

/-- A subscription is silent while the database is away. -/
def silentInOutage : List Event :=
  [.dbInitialize none, .connected, .hostRead (.str "plc-1") someTime brokenLink, .heartbeatStarts,
    .started, .linkBreaks,
    .silent "[Line1][CPU] No changes received for 61s" "e1" someTime brokenLink]

theorem execute_silentInOutage :
    (execute (step acceptsNoNul (.ofTexts []) ["cpu"]) start silentInOutage).isSome = true := by
  decide

theorem silentInOutage_ends_session :
    let run := executed (step acceptsNoNul (.ofTexts []) ["cpu"]) start silentInOutage
      execute_silentInOutage
    Run (step acceptsNoNul (.ofTexts []) ["cpu"]) start run.1 run.2 ∧
      ¬ ∀ t ∈ run.1.map Prod.fst ++ [run.2], t.phase.endedBy ≠ some .database :=
  ⟨Run.executed execute_silentInOutage, by decide⟩

theorem sessions_survive_silentInOutage :
    let run := executed (step acceptsNoNul (.ofTexts []) ["cpu"]) start silentInOutage
      execute_silentInOutage
    (∀ t ∈ run.1.map Prod.fst ++ [run.2], t.phase.endedBy ≠ some .database) ↔
      ∀ p ∈ run.1, unreported acceptsNoNul p = false :=
  sessions_survive_iff (Run.executed execute_silentInOutage)

/-! ## The end of the coroutine -/

/-- If `main` is over, it was cancelled. -/
def EndedCancelled (phase : Phase) : Prop :=
  ∀ cancelled exc, phase = .ended cancelled exc → cancelled = true

theorem endedCancelled_of_live {phase : Phase} (h : phase.isEnded = false) :
    EndedCancelled phase := by
  rintro cancelled exc rfl
  cases h

theorem endedCancelled_step (hs : step accepts env metrics s e = some s') :
    EndedCancelled s'.phase ↔ EndedCancelled s.phase ∧ givesUp accepts (s, e) = false := by
  obtain ⟨s₁, hadvance, hphase⟩ := phase_step hs
  rw [hphase]
  rcases advance_cases hadvance with ⟨rfl, hinit, hconnecting, _⟩ | ⟨hlive, _, exc, hended⟩ |
    ⟨rfl, _, rfl⟩ | ⟨_, hgives, _, _, hsame | ⟨_, hlive, _, hlive'⟩⟩
  · rw [hinit, hconnecting]
    exact iff_of_true nofun ⟨nofun, rfl⟩
  · rw [hended, and_iff_right (endedCancelled_of_live hlive)]
    constructor
    · intro hcancelled
      simpa using hcancelled _ _ rfl
    · intro hgives cancelled exc' heq
      cases heq
      simpa using hgives
  · exact ⟨fun h => ⟨h, rfl⟩, And.left⟩
  · rw [hsame, hgives]
    exact ⟨fun h => ⟨h, rfl⟩, And.left⟩
  · rw [hgives]
    exact iff_of_true (endedCancelled_of_live hlive') ⟨endedCancelled_of_live hlive, rfl⟩

/-- In every run: `main` ends only by being cancelled, exactly if nothing it
asks of the database, when it starts and when it handles the failure of a
session, raises. -/
theorem ends_cancelled_iff {tr : List (Main × Event)}
    (h : Run (step accepts env metrics) start tr s) :
    EndedCancelled s.phase ↔ ∀ p ∈ tr, givesUp accepts p = false := by
  induction h with
  | nil => exact iff_of_true nofun fun _ hp => absurd hp List.not_mem_nil
  | snoc _ hs ih =>
      rw [List.forall_mem_append, List.forall_mem_singleton, ← ih]
      exact endedCancelled_step hs

/-- The server of the plant is not there, and the database is not either. -/
def bothAway : List Event :=
  [.dbInitialize none, .linkBreaks,
    .connectFails ⟨"ConnectionRefusedError", "[Errno 111] Connect call failed",
      "ConnectionRefusedError: [Errno 111] Connect call failed\n"⟩,
    .reportFailure "e1" someTime brokenLink]

theorem execute_bothAway :
    (execute (step acceptsNoNul (.ofTexts []) ["cpu"]) start bothAway).isSome = true := by
  decide

theorem bothAway_ends_main :
    let run := executed (step acceptsNoNul (.ofTexts []) ["cpu"]) start bothAway execute_bothAway
    Run (step acceptsNoNul (.ofTexts []) ["cpu"]) start run.1 run.2 ∧
      ¬ EndedCancelled run.2.phase := by
  intro run
  have hended : run.2.phase = .ended false (some brokenLink) := by decide
  exact ⟨Run.executed execute_bothAway, fun h => absurd (h _ _ hended) (by decide)⟩

theorem ends_cancelled_bothAway :
    let run := executed (step acceptsNoNul (.ofTexts []) ["cpu"]) start bothAway execute_bothAway
    EndedCancelled run.2.phase ↔ ∀ p ∈ run.1, givesUp acceptsNoNul p = false :=
  ends_cancelled_iff (Run.executed execute_bothAway)

end KepServerLogger.Ingestor.Main
