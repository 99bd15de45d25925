import KepServerLogger.Proofs.Cancellation
import KepServerLogger.Proofs.Outage

/-!
# What a shutdown leaves in memory

Ctrl-C cancels `main` in the middle of a session. The session is then taken
down as it is after a failure: the subscriptions and the heartbeats stop
delivering, and one last flush takes what they have left on the queue, with
the rows that earlier writes have failed to store. If the database takes this
batch, nothing is in memory any more when `main` reports the shutdown: every
row there ever was is committed, or was trimmed or lost before, or is with the
thread of the flush that the cancellation cut off.

All this is about the one path from the cancellation to the report, which a
second cancellation would leave.
-/

namespace KepServerLogger.Ingestor.Main

open KepServerLogger.Py KepServerLogger.Lib

variable {env : Externals} {accepts : Write → Bool} {metrics : List String}
  {s s' s₁ : Main} {e : Event} {tr : List (Main × Event)}

/-- A session is there to be taken down. -/
def inBody : Phase → Bool
  | .starting | .subscribing | .running => true
  | _ => false

/-- The last flush of a session that was cancelled, and what comes after it. -/
def winding : Phase → Bool
  | .flushing .cancelled | .disconnecting .cancelled | .handling .cancelled => true
  | _ => false

/-- What a step has to be for the shutdown to be a clean one: a cancellation
finds a session to take down, and nothing comes in the way of the last flush. -/
def clean : Main × Event → Bool
  | (s, .cancel) => inBody s.phase
  | (s, .onMetric ..) | (s, .onTag ..) | (s, .onRtt _) | (s, .writeRaises) => !winding s.phase
  | _ => true

/-- Nothing is queued, nothing is waiting. -/
structure Drained (s : Main) : Prop where
  queue : s.tasks.ingest.queue.items = []
  pending : ∀ table, s.tasks.pendingRows table = []

/-- The way down. -/
structure WindsDown (s : Main) : Prop where
  drained : winding s.phase = true → Drained s
  thread : winding s.phase = true → ∀ flight, s.tasks.flushing = some flight →
    s.phase = .flushing .cancelled ∧ flight.thread ≠ .raised

/-! ## One step -/

/-- The way down begins with the last flush and goes on when this is over. -/
theorem winding_step (hs : s.advance accepts e = some s₁) (hclean : clean (s, e) = true)
    (h : winding s₁.phase = true) :
    (s.phase = .stopping .cancelled ∧ e = .stopped ∧ s₁.phase = .flushing .cancelled) ∨
      (winding s.phase = true ∧
        (s.phase = .flushing .cancelled → s₁.phase = s.phase ∨ s.tasks.flushing = none)) := by
  cases e with
  | stopped =>
      simp only [advance] at hs
      split at hs
      · next exit hphase =>
          cases hs
          cases exit with
          | cancelled => exact .inl ⟨hphase, rfl, rfl⟩
          | raised => cases h
      · cases hs
  | flushed =>
      simp only [advance] at hs
      split at hs
      · next exit hphase hidle =>
          cases hs
          cases exit with
          | cancelled => exact .inr ⟨by rw [hphase]; rfl, fun _ => .inr hidle⟩
          | raised => cases h
      · cases hs
  | disconnected =>
      simp only [advance] at hs
      split at hs
      · next exit hphase =>
          cases hs
          cases exit with
          | cancelled =>
              exact .inr ⟨by rw [hphase]; rfl, fun hflushing => by rw [hphase] at hflushing; cases hflushing⟩
          | raised => cases h
      · cases hs
  | cancel =>
      have hbody : inBody s.phase = true := hclean
      simp only [advance] at hs
      split at hs
      all_goals first | cases hs; cases h | skip
      all_goals next hphase => rw [hphase] at hbody; cases hbody
  | _ =>
      simp only [advance, threadEnds] at hs
      repeat' split at hs
      all_goals cases hs
      all_goals first | cases h | exact .inr ⟨h, fun _ => .inl rfl⟩

theorem not_winding {phase : Phase} (h : inBody phase = true) : winding phase = false := by
  cases phase <;> first | rfl | cases h

/-- All that is left for `Ingest` is the end of writes. -/
theorem taskEvent_winding (hs : s.advance accepts e = some s₁) (hclean : clean (s, e) = true)
    (hwinding : winding s.phase = true) {event : Tasks.Event}
    (h : s.taskEvent accepts metrics e = some event) :
    event = .flushResumes ∨ event = .writeReturns ∨
      ∃ i, event = .orphanReturns i ∨ event = .orphanRaises i := by
  cases e with
  | onMetric | onTag | onRtt | writeRaises =>
      have hnot : (!winding s.phase) = true := hclean
      rw [hwinding] at hnot
      cases hnot
  | flushResumes =>
      cases h
      exact .inl rfl
  | writeReturns =>
      cases h
      exact .inr (.inl rfl)
  | orphanReturns i =>
      cases h
      exact .inr (.inr ⟨i, .inl rfl⟩)
  | orphanRaises i =>
      cases h
      exact .inr (.inr ⟨i, .inr rfl⟩)
  | hostRead | tick | stopped | silent | subscriptionEnded =>
      simp only [advance] at hs
      split at hs
      · next hphase =>
          rw [hphase] at hwinding
          cases hwinding
      · cases hs
  | cancel =>
      rw [not_winding hclean] at hwinding
      cases hwinding
  | _ => cases h

/-- What has been drained stays so. -/
theorem tasks_winding {t t' : Tasks} {event : Tasks.Event} (hs : Tasks.step env t event = some t')
    (hevent : event = .flushResumes ∨ event = .writeReturns ∨
      ∃ i, event = .orphanReturns i ∨ event = .orphanRaises i)
    (hthread : ∀ flight, t.flushing = some flight → flight.thread ≠ .raised) :
    t'.ingest.queue = t.ingest.queue ∧ t'.ingest.pending = t.ingest.pending ∧
      ∀ flight, t'.flushing = some flight → t.flushing ≠ none ∧ flight.thread ≠ .raised := by
  have hflying : ∀ flight, t.flushing = some flight → t.flushing ≠ none := by
    intro flight hflight
    rw [hflight]
    exact Option.some_ne_none _
  cases Tasks.step_cases hs with
  | writeReturns hrunning =>
      refine ⟨rfl, rfl, fun flight hflight => ?_⟩
      cases hflight
      exact ⟨hflying _ hrunning, nofun⟩
  | wrote => exact ⟨rfl, rfl, fun flight hflight => by cases hflight⟩
  | failed hraised => exact absurd rfl (hthread _ hraised)
  | orphanReturns | orphanRaises =>
      exact ⟨rfl, rfl, fun flight hflight => ⟨hflying flight hflight, hthread flight hflight⟩⟩
  | onMetric | onTag | addModel | newSession | flush | writeRaises | cancelRunning | cancelReturned
    | cancelRaised => simp at hevent

theorem windsDown_of_flush (hs : Tasks.step env s.tasks .flush = some s'.tasks)
    (hphase : s'.phase = .flushing .cancelled) : WindsDown s' := by
  generalize htasks : s'.tasks = t at hs
  cases Tasks.step_cases hs with
  | flush hidle =>
      refine ⟨fun _ => ⟨?_, fun table => ?_⟩, fun _ flight hflight => ⟨hphase, ?_⟩⟩
      · rw [htasks]
        show (s.tasks.ingest.flushStart env).1.queue.items = []
        rw [(Ingest.flushStart_queue env s.tasks.ingest).1]
        rfl
      · rw [htasks]
        exact (Ingest.flushStart_rows env s.tasks.ingest table).2
      · rw [htasks] at hflight
        obtain ⟨batch, -, rfl⟩ := Option.map_eq_some_iff.mp hflight
        exact nofun

theorem WindsDown.step (h : WindsDown s) (hs : step accepts env metrics s e = some s')
    (hclean : clean (s, e) = true) : WindsDown s' := by
  obtain ⟨s₁, hadvance, heq, htasks⟩ := step_cases hs
  have hphase : s'.phase = s₁.phase := by rw [heq]
  by_cases hwinding : winding s₁.phase = true
  · rcases winding_step hadvance hclean hwinding with ⟨hstopping, rfl, hflushing⟩ |
      ⟨hbefore, hstays⟩
    · -- the last flush takes all there is
      rcases htasks with ⟨hnone, -⟩ | ⟨event, hevent, htasks⟩
      · cases hnone
      · cases hevent
        exact windsDown_of_flush htasks (hphase.trans hflushing)
    · have hthread : ∀ flight, s.tasks.flushing = some flight → flight.thread ≠ .raised :=
        fun flight hflight => (h.thread hbefore flight hflight).2
      have hkept : s'.tasks.ingest.queue = s.tasks.ingest.queue ∧
          s'.tasks.ingest.pending = s.tasks.ingest.pending ∧
          ∀ flight, s'.tasks.flushing = some flight →
            s.tasks.flushing ≠ none ∧ flight.thread ≠ .raised := by
        rcases htasks with ⟨-, hsame⟩ | ⟨event, hevent, htasks⟩
        · rw [hsame]
          refine ⟨rfl, rfl, fun flight hflight => ⟨?_, hthread flight hflight⟩⟩
          rw [hflight]
          exact Option.some_ne_none _
        · exact tasks_winding htasks (taskEvent_winding hadvance hclean hbefore hevent) hthread
      obtain ⟨hqueue, hpending, hflights⟩ := hkept
      have hdrained := h.drained hbefore
      refine ⟨fun _ => ⟨by rw [hqueue]; exact hdrained.queue, fun table => ?_⟩,
        fun _ flight hflight => ?_⟩
      · rw [Tasks.pendingRows, hpending]
        exact hdrained.pending table
      · obtain ⟨hflying, hnot⟩ := hflights flight hflight
        obtain ⟨flight', hflight'⟩ := Option.ne_none_iff_exists'.mp hflying
        have hflushing := (h.thread hbefore flight' hflight').1
        refine ⟨?_, hnot⟩
        rcases hstays hflushing with hsame | hnone
        · rw [hphase, hsame, hflushing]
        · exact absurd hnone hflying
  · rw [← hphase] at hwinding
    exact ⟨fun h => absurd h hwinding, fun h => absurd h hwinding⟩

theorem windsDown (h : Run (step accepts env metrics) start tr s) (hclean : ∀ p ∈ tr, clean p = true) :
    WindsDown s := by
  induction h with
  | nil => exact ⟨fun h => (by cases h), fun h => (by cases h)⟩
  | snoc _ hs ih =>
      rw [List.forall_mem_append, List.forall_mem_singleton] at hclean
      exact (ih hclean.1).step hs hclean.2

/-- When `main` reports its shutdown, after a run in which no cancellation
came but in the body of a session, and in which the last flush was not
disturbed and its write did not raise: nothing is queued, pending or being
flushed, and every row that was ever decoded is committed, was trimmed or lost
by an earlier write, or is with a thread that a cancelled flush left behind. -/
theorem shutdown_drained {now : Datetime} {exc : Reported}
    (h : Run (step accepts env metrics) start tr s) (hclean : ∀ p ∈ tr, clean p = true)
    (hs : step accepts env metrics s (.shutdown now exc) = some s') :
    Drained s' ∧ s'.tasks.flushing = none ∧
      ∀ table row, ((tasksOf accepts metrics tr).flatMap (Tasks.produced env table)).count row =
        (s'.tasks.committedRows table).count row +
          ((tasksOf accepts metrics tr).flatMap (Tasks.trimmed table)).count row +
          ((tasksOf accepts metrics tr).flatMap (Tasks.lost table)).count row +
          (s'.tasks.orphanRows table).count row := by
  obtain ⟨s₁, hadvance, -, ⟨-, hsame⟩ | ⟨event, hevent, -⟩⟩ := step_cases hs
  · have hphase : s.phase = .handling .cancelled := by
      simp only [advance] at hadvance
      split at hadvance
      · assumption
      · cases hadvance
    have hwinding : winding s.phase = true := by rw [hphase]; rfl
    have hwinds := windsDown h hclean
    have hdrained := hwinds.drained hwinding
    have hidle : s.tasks.flushing = none := by
      rw [← Option.not_isSome_iff_eq_none]
      intro hsome
      obtain ⟨flight, hflight⟩ := Option.isSome_iff_exists.mp hsome
      have hflushing := (hwinds.thread hwinding flight hflight).1
      rw [hphase] at hflushing
      cases hflushing
    refine ⟨⟨by rw [hsame]; exact hdrained.queue, by rw [hsame]; exact hdrained.pending⟩,
      by rw [hsame]; exact hidle, fun table row => ?_⟩
    have hcount := Tasks.Run.rows_count (Run.tasks h) table row
    rw [hdrained.pending table, Tasks.inFlight, hidle, List.count_nil] at hcount
    rw [hsame]
    exact hcount
  · cases hevent

/-- A value whose write failed, and one that arrives after Ctrl-C. -/
def stoppedInOutage : List Event :=
  [.dbInitialize none, .connected, .hostRead (.str "plc-1") someTime brokenLink, .heartbeatStarts,
    .started, .databaseDown, .onTag "Line1.Speed" (.good (.int 7)) someTime, .tick, .writeRaises,
    .flushResumes, .databaseUp, .cancel, .onTag "Line1.Speed" (.good (.int 8)) someTime, .stopped,
    .writeReturns, .flushResumes, .flushed, .disconnected]

theorem execute_stoppedInOutage :
    (execute (step acceptsNoNul (.ofTexts []) ["cpu"]) start stoppedInOutage).isSome = true := by
  decide

theorem shutdown_drained_stoppedInOutage :
    let run := executed (step acceptsNoNul (.ofTexts []) ["cpu"]) start stoppedInOutage
      execute_stoppedInOutage
    let s' := (step acceptsNoNul (.ofTexts []) ["cpu"] run.2 (.shutdown someTime brokenLink)).get
      (by decide)
    (s'.tasks.committedRows "tags").length = 2 ∧ Drained s' := by
  intro run s'
  exact ⟨by decide, (shutdown_drained (Run.executed execute_stoppedInOutage) (by decide)
    (Option.some_get _).symm).1⟩

end KepServerLogger.Ingestor.Main
