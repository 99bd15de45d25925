import KepServerLogger.Proofs.Poison
import KepServerLogger.Proofs.Supervisor

/-!
# After an outage of the database

The connection is opened once, when `main` initializes the database, and kept
for as long as the coroutine lives. A flush whose write raises keeps its rows
and writes them again a second later, on the same connection. As long as the
link of that connection holds this is all it takes: the first write after the
server is back commits everything. A link that has broken is never replaced,
neither by a flush nor by a new session, so from then on every write raises
and the rows grow old in the pending tables.
-/

namespace KepServerLogger.Ingestor.Main

open KepServerLogger.Py KepServerLogger.Lib

variable {env : Externals} {accepts : Write → Bool} {metrics : List String}
  {s s' : Main} {e : Event} {tr : List (Main × Event)}

/-! ## The connection -/

/-- What is known of the connection while `main` is not over. -/
structure Linked (tr : List (Main × Event)) (s : Main) : Prop where
  before : s.phase = .initializing →
    s.tasks = .start ∧ s.usable = false ∧ ∀ p ∈ tr, p.2 ≠ .linkBreaks
  after : s.phase ≠ .initializing → s.phase.isEnded = false →
    s.attached = true ∧ (s.usable = true ↔ ∀ p ∈ tr, p.2 ≠ .linkBreaks)

/-- Before the database is initialized there is nothing to do for `Ingest`. -/
theorem taskEvent_initializing (hphase : s.phase = .initializing) (htasks : s.tasks = .start)
    (hs : s.advance accepts e = some s') : s.taskEvent accepts metrics e = none := by
  cases e <;>
    simp_all [advance, taskEvent, threadEnds, writing, Phase.inSession, Tasks.start]

theorem Linked.step (h : Linked tr s) (hs : step accepts env metrics s e = some s') :
    Linked (tr ++ [(s, e)]) s' := by
  obtain ⟨s₁, hadvance, heq, htasks⟩ := step_cases hs
  have hunbroken : e ≠ .linkBreaks →
      ((∀ p ∈ tr ++ [(s, e)], p.2 ≠ .linkBreaks) ↔ ∀ p ∈ tr, p.2 ≠ .linkBreaks) := by
    intro he
    rw [List.forall_mem_append, List.forall_mem_singleton]
    exact and_iff_left he
  rw [heq]
  rcases advance_cases hadvance with ⟨he, hinit, hconnecting, hattached, husable⟩ |
    ⟨_, _, exc, hended⟩ | ⟨rfl, husable, rfl⟩ | ⟨he, _, hattached, husable, hphase⟩
  · refine ⟨fun hphase => ?_, fun _ _ => ⟨hattached, ?_⟩⟩
    · rw [hconnecting] at hphase
      cases hphase
    · rw [hunbroken (he ▸ nofun)]
      exact iff_of_true husable (h.before hinit).2.2
  · refine ⟨fun hphase => ?_, fun _ hlive => ?_⟩
    · rw [hended] at hphase
      cases hphase
    · rw [hended] at hlive
      cases hlive
  · have hphase : s.phase ≠ .initializing := fun hinit => by
      rw [(h.before hinit).2.1] at husable
      cases husable
    refine ⟨fun hinit => absurd hinit hphase, fun _ hlive => ⟨(h.after hphase hlive).1, ?_⟩⟩
    exact iff_of_false nofun fun hall => hall (s, .linkBreaks) (by simp) rfl
  · refine ⟨fun hinit => ?_, fun hnot hlive => ?_⟩
    · rcases hphase with hsame | ⟨_, _, hnot, _⟩
      · have hinit' : s.phase = .initializing := hsame.symm.trans hinit
        obtain ⟨hstart, hunusable, hbefore⟩ := h.before hinit'
        have hbroken := (hunbroken he).mpr hbefore
        rcases htasks with ⟨_, hsame'⟩ | ⟨event, hevent, _⟩
        · exact ⟨hsame'.trans hstart, husable.trans hunusable, hbroken⟩
        · rw [taskEvent_initializing hinit' hstart hadvance] at hevent
          cases hevent
      · exact absurd hinit hnot
    · have hpast : s.phase ≠ .initializing ∧ s.phase.isEnded = false := by
        rcases hphase with hsame | ⟨hnot', hlive', _⟩
        · exact ⟨hsame ▸ hnot, hsame ▸ hlive⟩
        · exact ⟨hnot', hlive'⟩
      obtain ⟨hattached', husable'⟩ := h.after hpast.1 hpast.2
      exact ⟨hattached.trans hattached', by rw [hunbroken he, ← husable', ← husable]⟩

theorem Run.linked (h : Run (step accepts env metrics) start tr s) : Linked tr s := by
  induction h with
  | nil => exact ⟨fun _ => ⟨rfl, rfl, fun _ hp => absurd hp List.not_mem_nil⟩, fun h => absurd rfl h⟩
  | snoc _ hs ih => exact ih.step hs

/-! ## What happens to `Ingest` -/

/-- The run of `Ingest` that a run of `main` contains. -/
def tasksOf (accepts : Write → Bool) (metrics : List String) (tr : List (Main × Event)) :
    List (Tasks × Tasks.Event) :=
  tr.filterMap fun p => (p.1.taskEvent accepts metrics p.2).map (p.1.tasks, ·)

theorem Run.tasks (h : Run (step accepts env metrics) start tr s) :
    Run (Tasks.step env) Tasks.start (tasksOf accepts metrics tr) s.tasks := by
  induction h with
  | nil => exact .nil
  | @snoc tr s s' e _ hs ih =>
      obtain ⟨_, _, _, ⟨hnone, hsame⟩ | ⟨event, hevent, hstep⟩⟩ := step_cases hs
      · have hno : tasksOf accepts metrics (tr ++ [(s, e)]) = tasksOf accepts metrics tr := by
          simp [tasksOf, hnone]
        rw [hno, hsame]
        exact ih
      · have hmore : tasksOf accepts metrics (tr ++ [(s, e)]) =
            tasksOf accepts metrics tr ++ [(s.tasks, event)] := by
          simp [tasksOf, hevent]
        rw [hmore]
        exact ih.snoc hstep

theorem addsRtt_taskEvent {event : Tasks.Event}
    (h : s.taskEvent accepts metrics e = some event) : event.addsRtt = true := by
  have hends : s.endsFlush = some event → event.addsRtt = true := by
    intro hends
    obtain ⟨_, _, rfl⟩ := Option.map_eq_some_iff.mp hends
    rfl
  cases e with
  | hostRead =>
      simp only [taskEvent] at h
      split at h <;> cases h
      rfl
  | silent =>
      simp only [taskEvent] at h
      split at h
      · cases h
      · exact hends h
  | subscriptionEnded | cancel => exact hends h
  | onMetric | onTag | onRtt | tick | stopped | flushResumes | writeReturns | writeRaises
  | orphanReturns | orphanRaises =>
      cases h
      rfl
  | dbInitialize | connected | connectFails | hostFails | heartbeatStarts | startFails | started
  | heartbeatStale | leakedStale | flushed | disconnected | disconnectFails | shutdown
  | reportFailure | reportInactive | wake | linkBreaks | databaseDown | databaseUp => cases h

theorem addsRtt_tasksOf : ∀ p ∈ tasksOf accepts metrics tr, p.2.addsRtt = true := by
  intro p hp
  obtain ⟨q, _, hq⟩ := List.mem_filterMap.mp hp
  obtain ⟨event, hevent, rfl⟩ := Option.map_eq_some_iff.mp hq
  exact addsRtt_taskEvent hevent

/-! ## The writes -/

/-- The batch of a flush that starts: what is pending and what it decodes. -/
def startsFlush (env : Externals) (accepts : Write → Bool) (metrics : List String) (s : Main)
    (e : Event) : Option Batch :=
  match s.taskEvent accepts metrics e with
  | some .flush => (s.tasks.ingest.flushStart env).2.1
  | _ => none

/-- The batch of a write that ends. -/
def endsWrite (s : Main) : Event → Option Batch
  | .writeReturns | .writeRaises => s.writing
  | .orphanReturns i | .orphanRaises i => s.tasks.orphans[i]?
  | _ => none

/-- A thread ends as the database answers. -/
theorem returns_of_threadEnds {batch : Option Batch} {returned : Bool} {s₁ : Main}
    (h : s.threadEnds accepts batch returned = some s₁) {b : Batch} (hb : batch = some b) :
    s.returns accepts (.insertMany b) = returned := by
  rw [hb, threadEnds] at h
  split at h
  · next hreturned => exact hreturned
  · cases h

theorem writing_eq {batch : Batch} :
    s.writing = some batch ↔ s.tasks.flushing = some ⟨batch, .running⟩ := by
  unfold writing
  split
  · next b hflying => rw [hflying]; simp
  · next hnot =>
      refine iff_of_false nofun fun hflying => hnot batch hflying

/-- A write commits its batch or nothing. -/
theorem endsWrite_step (hs : step accepts env metrics s e = some s') {batch : Batch}
    (hends : s.endsWrite e = some batch) :
    s'.tasks.committed =
      if s.returns accepts (.insertMany batch) then s.tasks.committed ++ [batch]
      else s.tasks.committed := by
  obtain ⟨s₁, hadvance, _, ⟨hnone, _⟩ | ⟨event, hevent, htasks⟩⟩ := step_cases hs
  · cases e <;> first | cases hends | cases hnone
  · cases e with
    | writeReturns | writeRaises =>
        cases hevent
        rw [returns_of_threadEnds hadvance hends]
        simp only [Tasks.step, writing_eq.mp hends] at htasks
        rw [← Option.some.inj htasks]
        rfl
    | orphanReturns i | orphanRaises i =>
        cases hevent
        rw [returns_of_threadEnds hadvance hends]
        simp only [Tasks.step, show s.tasks.orphans[i]? = some batch from hends] at htasks
        rw [← Option.some.inj htasks]
        rfl
    | _ => cases hends

theorem insertMany_unavailable {batch : Batch} (h : SchemaRows batch) {table : String} {row : Row}
    (hrow : row ∈ batch.rows table) :
    (Request.insertMany batch).returns accepts false = false := by
  obtain ⟨statements, hstatements, hwrites⟩ := insertStatements_ok h
  rw [Request.returns, Request.statements, hstatements]
  cases statements with
  | nil =>
      have hmem := mem_writesOf.mpr ⟨_, mem_items_of_row hrow, row, hrow, rfl⟩
      rw [← hwrites] at hmem
      exact absurd hmem List.not_mem_nil
  | cons => rfl

/-- Nothing is written before the database is initialized. -/
theorem not_initializing (h : Run (step accepts env metrics) start tr s) {batch : Batch}
    (hends : s.endsWrite e = some batch) : s.phase ≠ .initializing := by
  intro hinit
  have hstart := ((Run.linked h).before hinit).1
  cases e <;> simp [endsWrite, writing, hstart, Tasks.start] at hends

/-- In every run: a flush whose rows can all be stored, and whose write ends
while the server is there, has its batch committed exactly if the link has
never broken since `main` connected. -/
theorem flush_commits_iff_unbroken (hdb : RefusesOnlyNul accepts)
    (h : Run (step accepts env metrics) start tr s) {t : Main} {f : Event} (hmem : (t, f) ∈ tr)
    {batch : Batch} (hflush : t.startsFlush env accepts metrics f = some batch)
    (hstorable : BatchStorable batch)
    (hs : step accepts env metrics s e = some s') (hends : s.endsWrite e = some batch)
    (hup : s.up = true) (hlive : s.phase.isEnded = false) :
    s'.tasks.committed = s.tasks.committed ++ [batch] ↔ ∀ p ∈ tr, p.2 ≠ .linkBreaks := by
  obtain ⟨pre, _, _, hrun, _⟩ := h.of_mem hmem
  have hbatch : (t.tasks.ingest.flushStart env).2.1 = some batch := by
    unfold startsFlush at hflush
    split at hflush
    · exact hflush
    · cases hflush
  have hrun' := Run.tasks hrun
  have hschema := Tasks.Run.batch_schemaRows hrun' addsRtt_tasksOf hbatch
  obtain ⟨hfilled, hne⟩ := Ingest.flushStart_batch (Tasks.Run.filled hrun').pending hbatch
  obtain ⟨table, hrows⟩ := hfilled.rows_ne_nil hne
  obtain ⟨row, hrow⟩ := List.exists_mem_of_ne_nil _ hrows
  obtain ⟨hattached, husable⟩ := (Run.linked h).after (not_initializing h hends) hlive
  have hreturns : s.returns accepts (.insertMany batch) = s.usable := by
    rw [returns, available, hattached, hup, Bool.true_and, Bool.and_true]
    cases s.usable with
    | false => exact insertMany_unavailable hschema hrow
    | true => exact (insertMany_returns_iff hdb hschema).mpr hstorable
  rw [endsWrite_step hs hends, hreturns, ← husable]
  cases s.usable with
  | true => exact iff_of_true rfl rfl
  | false => exact iff_of_false (by simp) nofun

/-! ## An outage in which the link breaks -/

theorem batchStorable_of_items {batch : Batch}
    (h : ∀ p ∈ batch.items, ∀ row ∈ p.2, Storable row) : BatchStorable batch :=
  fun _ row hrow => h _ (mem_items_of_row hrow) row hrow

/-- A value that arrives during the outage. Its second write ends, and raises,
when the server is back. -/
def outage : List Event :=
  [.dbInitialize none, .connected, .hostRead (.str "plc-1") someTime brokenLink, .heartbeatStarts,
    .started, .databaseDown, .linkBreaks, .onTag "Line1.Speed" (.good (.int 7)) someTime, .tick,
    .writeRaises, .flushResumes, .databaseUp, .tick]

theorem execute_outage :
    (execute (step acceptsNoNul (.ofTexts []) ["cpu"]) start outage).isSome = true := by
  decide

theorem outage_stops_writing :
    let run := executed (step acceptsNoNul (.ofTexts []) ["cpu"]) start outage execute_outage
    RefusesOnlyNul acceptsNoNul ∧ Run (step acceptsNoNul (.ofTexts []) ["cpu"]) start run.1 run.2 ∧
      ∃ p ∈ run.1, ∃ batch s', p.1.startsFlush (.ofTexts []) acceptsNoNul ["cpu"] p.2 = some batch ∧
        BatchStorable batch ∧
        step acceptsNoNul (.ofTexts []) ["cpu"] run.2 .writeRaises = some s' ∧
        run.2.endsWrite .writeRaises = some batch ∧ run.2.up = true ∧
        run.2.phase.isEnded = false ∧ s'.tasks.committed ≠ run.2.tasks.committed ++ [batch] := by
  intro run
  refine ⟨refusesOnlyNul_acceptsNoNul, Run.executed execute_outage,
    run.1.get ⟨12, by decide⟩, List.get_mem _ _, (run.2.endsWrite .writeRaises).get (by decide),
    (step acceptsNoNul (.ofTexts []) ["cpu"] run.2 .writeRaises).get (by decide), by decide,
    batchStorable_of_items (by decide), (Option.some_get _).symm, (Option.some_get _).symm,
    by decide, by decide, by decide⟩

theorem flush_commits_outage :
    let run := executed (step acceptsNoNul (.ofTexts []) ["cpu"]) start outage execute_outage
    let batch := (run.2.endsWrite .writeRaises).get (by decide)
    let s' := (step acceptsNoNul (.ofTexts []) ["cpu"] run.2 .writeRaises).get (by decide)
    s'.tasks.committed = run.2.tasks.committed ++ [batch] ↔ ∀ p ∈ run.1, p.2 ≠ .linkBreaks := by
  intro run batch s'
  have hflush : (run.1.get ⟨12, by decide⟩).1.startsFlush (.ofTexts []) acceptsNoNul ["cpu"]
      (run.1.get ⟨12, by decide⟩).2 = some batch := by decide
  exact flush_commits_iff_unbroken refusesOnlyNul_acceptsNoNul (Run.executed execute_outage)
    (List.get_mem _ _) hflush (batchStorable_of_items (by decide)) (Option.some_get _).symm
    (Option.some_get _).symm (by decide) (by decide)

end KepServerLogger.Ingestor.Main
