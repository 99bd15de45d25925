import KepServerLogger.Base.Entries
import KepServerLogger.Extractor.Publish
import KepServerLogger.Proofs.WireRoundTrip

/-!
# What a publish of the errors can lose

`drain` takes the records off the buffer before anything is written, and from
then on they are in the hands of the thread, and then of the task. Nobody puts
them back: a task whose write raises, or that is cancelled because another
metric has ended the session, takes its records with it, and so does a thread
whose task is gone.

The account below has a place for every record the buffer ever took in. It
counts, since a thread that outlives its session can take records after a
later one has.
-/

namespace KepServerLogger.Extractor

open KepServerLogger.Py KepServerLogger.Lib

/-! ## One operation of a thread -/

theorem Drain.step_ok {errors errors' : ErrorBuffer} {drain drain' : Drain}
    (h : drain.step errors = some (.ok (errors', drain'))) :
    drain'.taken ++ errors'.items = drain.taken ++ errors.items := by
  cases drain with
  | queued | started =>
      cases h
      rfl
  | taking remaining taken =>
      cases remaining with
      | zero => cases h
      | succ remaining =>
          simp only [Drain.step] at h
          split at h
          · next error rest hpop =>
              cases h
              rw [← Deque.popleft_conserves hpop]
              simp [Drain.taken]
          · cases h

/-- A cancelled task leaves its thread behind and loses the rest. -/
theorem Publish.orphaned_unsent (p : Publish) :
    p.orphaned.elim [] Drain.taken ++ p.unsent = p.held := by
  cases p with
  | getting drain => cases drain <;> simp [orphaned, unsent, held, Drain.taken]
  | writing models text => rfl

namespace Agent

variable {metrics : List String} {s s' : Agent} {e : Event} {r : AgentError}

/-! ## Ending a task -/

theorem count_orphaned (tasks : List Publish) :
    ((tasks.filterMap Publish.orphaned).flatMap Drain.taken).count r +
        (tasks.flatMap Publish.unsent).count r =
      (tasks.flatMap Publish.held).count r := by
  induction tasks with
  | nil => rfl
  | cons p tasks ih =>
      have hp := congrArg (List.count r) p.orphaned_unsent
      simp only [List.count_append] at hp
      simp only [List.flatMap_cons, List.count_append, List.filterMap_cons]
      cases horphaned : p.orphaned with
      | none =>
          simp only [horphaned, Option.elim_none, List.count_nil] at hp
          simp only
          omega
      | some drain =>
          simp only [horphaned, Option.elim_some] at hp
          simp only [List.flatMap_cons, List.count_append]
          omega

theorem count_held_abort (s : Agent) (phase : Phase) :
    (s.abort phase).held.count r + (s.tasks.flatMap Publish.unsent).count r = s.held.count r := by
  have horphaned := count_orphaned (r := r) s.tasks
  simp only [abort, held, List.flatMap_nil, List.nil_append, List.flatMap_append,
    List.count_append]
  omega

/-- What a settled task does to the records of the others. -/
theorem settle_spec (s : Agent) (component : String) (outcome : Except Exc Unit) :
    (s.settle component outcome).errors = s.errors ∧
      (s.settle component outcome).written = s.written ∧
      (s.settle component outcome).held.count r +
        (s.settleLoses component outcome).count r = s.held.count r := by
  unfold settle settleLoses
  cases safeHandle component s.monitor outcome with
  | mk monitor result =>
      cases result with
      | ok => exact ⟨rfl, rfl, rfl⟩
      | error e => exact ⟨rfl, rfl, count_held_abort { s with monitor } .away⟩

theorem settleLoses_ok (s : Agent) (component : String) : s.settleLoses component (.ok ()) = [] :=
  rfl

theorem taskEnds_spec {i : Nat} {p : Publish} (hi : s.tasks[i]? = some p)
    (outcome : Except Exc Unit) :
    (s.taskEnds i outcome).errors = s.errors ∧ (s.taskEnds i outcome).written = s.written ∧
      (s.taskEnds i outcome).held.count r +
        ({ s with tasks := s.tasks.eraseIdx i }.settleLoses "ERRORS" outcome).count r +
        p.held.count r = s.held.count r := by
  have hcount := count_flatMap_eraseIdx hi Publish.held r
  obtain ⟨herrors, hwritten, hheld⟩ :=
    settle_spec (r := r) { s with tasks := s.tasks.eraseIdx i } "ERRORS" outcome
  refine ⟨herrors, hwritten, ?_⟩
  simp only [taskEnds, held, List.count_append] at hheld ⊢
  omega

/-! ## One step -/

/-- What a step does, with what it needs. -/
inductive Stepped (metrics : List String) (s : Agent) : Event → Agent → Prop
  | emit (record : LogRecord) :
      Stepped metrics s (.emit record) { s with errors := ErrorBuffer.emit s.errors record }
  | connected (hphase : s.phase = .away) :
      Stepped metrics s .connected { s with phase := .sleeping, monitor := .new }
  | cycle (hphase : s.phase = .sleeping) :
      Stepped metrics s .cycle
        { s with
          phase := .publishing
          tasks := errorTasks metrics
          others := otherTasks metrics }
  | threadSteps {i : Nat} {drain drain' : Drain} {errors : ErrorBuffer}
      (hi : s.tasks[i]? = some (.getting drain))
      (hdrain : drain.step s.errors = some (.ok (errors, drain'))) :
      Stepped metrics s (.threadSteps i)
        { s with errors, tasks := s.tasks.set i (.getting drain') }
  | threadRaises {i : Nat} {drain : Drain} {e : Exc} (hi : s.tasks[i]? = some (.getting drain))
      (hdrain : drain.step s.errors = some (.error e)) :
      Stepped metrics s (.threadSteps i) (s.taskEnds i (.error e))
  | drainedNothing {i : Nat} (hi : s.tasks[i]? = some (.getting (.taking 0 []))) :
      Stepped metrics s (.drained i) (s.taskEnds i (.ok ()))
  | drained {i : Nat} {models : List AgentError}
      (hi : s.tasks[i]? = some (.getting (.taking 0 models))) :
      Stepped metrics s (.drained i)
        { s with
          tasks := s.tasks.set i (.writing models (payload (models.map .agentError)).dumps) }
  | writeReturns {i : Nat} {models : List AgentError} {text : String}
      (hi : s.tasks[i]? = some (.writing models text)) :
      Stepped metrics s (.writeReturns i)
        ({ s with written := s.written ++ [models] }.taskEnds i (.ok ()))
  | writeRaises {i : Nat} {models : List AgentError} {text : String} (e : Exc)
      (hi : s.tasks[i]? = some (.writing models text)) :
      Stepped metrics s (.writeRaises i e) (s.taskEnds i (.error e))
  | orphanSteps {i : Nat} {drain drain' : Drain} {errors : ErrorBuffer}
      (hi : s.orphans[i]? = some drain)
      (hdrain : drain.step s.errors = some (.ok (errors, drain'))) :
      Stepped metrics s (.orphanSteps i) { s with errors, orphans := s.orphans.set i drain' }
  | orphanRaises {i : Nat} {drain : Drain} {e : Exc} (hi : s.orphans[i]? = some drain)
      (hdrain : drain.step s.errors = some (.error e)) :
      Stepped metrics s (.orphanSteps i) { s with orphans := s.orphans.eraseIdx i }
  | orphanReturns {i : Nat} {taken : List AgentError}
      (hi : s.orphans[i]? = some (.taking 0 taken)) :
      Stepped metrics s (.orphanReturns i) { s with orphans := s.orphans.eraseIdx i }
  | ends (component : String) (outcome : Except Exc Unit) :
      Stepped metrics s (.ends component outcome)
        ({ s with others := s.others.erase component }.settle component outcome)
  | cycleEnds (htasks : s.tasks = []) : Stepped metrics s .cycleEnds { s with phase := .sleeping }
  | interrupt : Stepped metrics s .interrupt (s.abort .ended)

theorem step_cases (hs : step metrics s e = some s') : Stepped metrics s e s' := by
  cases e with
  | emit record =>
      simp only [step, Option.some.injEq] at hs
      subst hs
      exact .emit record
  | connected =>
      simp only [step] at hs
      split at hs <;> cases hs
      next hphase => exact .connected hphase
  | cycle =>
      simp only [step] at hs
      split at hs <;> cases hs
      next hphase => exact .cycle hphase
  | threadSteps i =>
      simp only [step] at hs
      split at hs
      · next drain hi =>
          split at hs
          · next errors drain' hdrain =>
              cases hs
              exact .threadSteps hi hdrain
          · next e hdrain =>
              cases hs
              exact .threadRaises hi hdrain
          · cases hs
      · cases hs
  | drained i =>
      -- Errors can always be encoded.
      simp only [step, encode_eq] at hs
      split at hs
      · next hi =>
          cases hs
          exact .drainedNothing hi
      · next models _ hi =>
          cases hs
          exact .drained hi
      · cases hs
  | writeReturns i =>
      simp only [step] at hs
      split at hs <;> cases hs
      next hi => exact .writeReturns hi
  | writeRaises i e =>
      simp only [step] at hs
      split at hs <;> cases hs
      next hi => exact .writeRaises e hi
  | orphanSteps i =>
      simp only [step] at hs
      split at hs
      · next drain hi =>
          split at hs
          · next errors drain' hdrain =>
              cases hs
              exact .orphanSteps hi hdrain
          · next e hdrain =>
              cases hs
              exact .orphanRaises hi hdrain
          · cases hs
      · cases hs
  | orphanReturns i =>
      simp only [step] at hs
      split at hs <;> cases hs
      next hi => exact .orphanReturns hi
  | ends component outcome =>
      simp only [step] at hs
      split at hs <;> cases hs
      exact .ends component outcome
  | cycleEnds =>
      simp only [step] at hs
      split at hs <;> cases hs
      next htasks _ => exact .cycleEnds htasks
  | interrupt =>
      simp only [step] at hs
      split at hs <;> cases hs
      exact .interrupt

/-- There are tasks in a task group only. -/
def Grouped (s : Agent) : Prop := s.phase ≠ .publishing → s.tasks = []

theorem Grouped.congr (h : s.Grouped) (hphase : s'.phase = s.phase)
    (htasks : s'.tasks = s.tasks) : s'.Grouped := by
  intro hnot
  rw [htasks]
  exact h (hphase ▸ hnot)

/-- A task that moves on is in a task group. -/
theorem Grouped.of_task (h : s.Grouped) {i : Nat} {p : Publish} (hi : s.tasks[i]? = some p)
    (hphase : s'.phase = s.phase) : s'.Grouped := by
  intro hnot
  rw [hphase] at hnot
  rw [h hnot] at hi
  cases hi

theorem Grouped.settle (h : s.Grouped) (component : String) (outcome : Except Exc Unit) :
    (s.settle component outcome).Grouped := by
  unfold Agent.settle
  cases safeHandle component s.monitor outcome with
  | mk monitor result =>
      cases result with
      | ok => exact h.congr rfl rfl
      | error e => exact fun _ => rfl

theorem Grouped.taskEnds (h : s.Grouped) {i : Nat} {p : Publish} (hi : s.tasks[i]? = some p)
    (outcome : Except Exc Unit) : (s.taskEnds i outcome).Grouped :=
  Grouped.settle (s := { s with tasks := s.tasks.eraseIdx i }) (h.of_task hi rfl) "ERRORS" outcome

theorem Grouped.step (h : s.Grouped) (hs : Agent.step metrics s e = some s') : s'.Grouped := by
  cases step_cases hs with
  | emit record => exact h.congr rfl rfl
  | connected hphase => exact fun _ => h (by rw [hphase]; decide)
  | cycle hphase => exact fun hnot => absurd rfl hnot
  | threadSteps hi hdrain => exact h.of_task hi rfl
  | threadRaises hi hdrain => exact h.taskEnds hi _
  | drainedNothing hi => exact h.taskEnds hi _
  | drained hi => exact h.of_task hi rfl
  | @writeReturns i models text hi =>
      exact Grouped.taskEnds (s := { s with written := s.written ++ [models] })
        (h.congr rfl rfl) hi _
  | writeRaises e hi => exact h.taskEnds hi _
  | orphanSteps hi hdrain => exact h.congr rfl rfl
  | orphanRaises hi hdrain => exact h.congr rfl rfl
  | orphanReturns hi => exact h.congr rfl rfl
  | ends component outcome =>
      exact Grouped.settle (s := { s with others := s.others.erase component })
        (h.congr rfl rfl) component outcome
  | cycleEnds htasks => exact fun _ => htasks
  | interrupt => exact fun _ => rfl

/-- A step at the end of which a task is over. -/
theorem records_taskEnds {i : Nat} {p : Publish} (hi : s.tasks[i]? = some p)
    {outcome : Except Exc Unit}
    (hevicted : evicted (s, e) = []) (harrivals : arrivals (s, e) = [])
    (hlost : (lost (s, e)).count r =
      p.held.count r + ({ s with tasks := s.tasks.eraseIdx i }.settleLoses "ERRORS" outcome).count r) :
    (s.taskEnds i outcome).errors.items.count r + (s.taskEnds i outcome).held.count r +
        (s.taskEnds i outcome).written.flatten.count r + (evicted (s, e)).count r +
        (lost (s, e)).count r =
      s.errors.items.count r + s.held.count r + s.written.flatten.count r +
        (arrivals (s, e)).count r := by
  obtain ⟨herrors, hwritten, hheld⟩ := taskEnds_spec (r := r) hi outcome
  rw [herrors, hwritten, hevicted, harrivals, hlost, List.count_nil]
  omega

/-- Every record is in one place before and after. -/
theorem records_step (hgroup : s.Grouped) (hs : step metrics s e = some s') :
    s'.errors.items.count r + s'.held.count r + s'.written.flatten.count r +
        (evicted (s, e)).count r + (lost (s, e)).count r =
      s.errors.items.count r + s.held.count r + s.written.flatten.count r +
        (arrivals (s, e)).count r := by
  cases step_cases hs with
  | emit record =>
      have hcount := congrArg (List.count r) (s.errors.append_conserves record.agentError)
      simp only [List.count_append] at hcount
      simp only [evicted, arrivals, lost, ErrorBuffer.emit, held, List.count_append,
        List.count_nil]
      omega
  | connected hphase => rfl
  | cycleEnds htasks => rfl
  | cycle hphase =>
      have htasks : s.tasks = [] := hgroup (by rw [hphase]; decide)
      have hfresh : (errorTasks metrics).flatMap Publish.held = [] := by
        simp [errorTasks, Publish.held, Drain.taken]
      simp only [evicted, arrivals, lost, held, htasks, hfresh, List.flatMap_nil]
      rfl
  | @threadSteps i drain drain' errors hi hdrain =>
      have hcount := congrArg (List.count r) (Drain.step_ok hdrain)
      have hset := count_flatMap_set hi (.getting drain') Publish.held r
      simp only [List.count_append, Publish.held] at hcount hset
      simp only [evicted, arrivals, lost, hi, hdrain, held, List.count_append, List.count_nil]
      omega
  | threadRaises hi hdrain =>
      refine records_taskEnds hi rfl rfl ?_
      simp only [lost, hi, hdrain, taskLoses, List.count_append, Publish.held]
  | drainedNothing hi =>
      refine records_taskEnds hi rfl rfl ?_
      simp only [lost, hi, encode_eq, settleLoses_ok, Publish.held, Drain.taken, List.count_nil]
  | @drained i models hi =>
      have hset := count_flatMap_set hi
        (.writing models (payload (models.map .agentError)).dumps) Publish.held r
      simp only [Publish.held, Drain.taken] at hset
      simp only [evicted, arrivals, lost, hi, encode_eq, held, List.count_append, List.count_nil]
      omega
  | @writeReturns i models text hi =>
      obtain ⟨herrors, hwritten, hheld⟩ :=
        taskEnds_spec (s := { s with written := s.written ++ [models] }) (r := r) hi (.ok ())
      simp only [settleLoses_ok, List.count_nil, Publish.held] at hheld
      simp only [evicted, arrivals, lost, List.count_nil, herrors, hwritten,
        List.flatten_append, List.flatten_singleton, List.count_append]
      simp only [held] at hheld ⊢
      omega
  | writeRaises e hi =>
      refine records_taskEnds hi rfl rfl ?_
      simp only [lost, hi, taskLoses, List.count_append, Publish.held]
  | @orphanSteps i drain drain' errors hi hdrain =>
      have hcount := congrArg (List.count r) (Drain.step_ok hdrain)
      have hset := count_flatMap_set hi drain' Drain.taken r
      simp only [List.count_append] at hcount
      simp only [evicted, arrivals, lost, hi, hdrain, held, List.count_append, List.count_nil]
      omega
  | orphanRaises hi hdrain =>
      have herase := count_flatMap_eraseIdx hi Drain.taken r
      simp only [evicted, arrivals, lost, hi, hdrain, held, List.count_append, List.count_nil]
      omega
  | orphanReturns hi =>
      have herase := count_flatMap_eraseIdx hi Drain.taken r
      simp only [evicted, arrivals, lost, hi, held, List.count_append, List.count_nil]
      omega
  | ends component outcome =>
      obtain ⟨herrors, hwritten, hheld⟩ :=
        settle_spec (r := r) { s with others := s.others.erase component } component outcome
      have hloses : { s with others := s.others.erase component }.settleLoses component outcome =
          s.settleLoses component outcome := rfl
      rw [hloses] at hheld
      simp only [evicted, arrivals, lost, List.count_nil]
      rw [herrors, hwritten]
      simp only [held, List.count_append] at hheld ⊢
      omega
  | interrupt =>
      have hheld := count_held_abort (r := r) s .ended
      simp only [evicted, arrivals, lost, List.count_nil]
      show s.errors.items.count r + (s.abort .ended).held.count r + s.written.flatten.count r +
        0 + (s.tasks.flatMap Publish.unsent).count r = _
      omega

/-! ## A whole run -/

theorem Run.grouped {tr : List (Agent × Event)} (h : Run (step metrics) start tr s) : s.Grouped :=
  h.invariant (fun _ => rfl) fun _ _ _ hi hs => hi.step hs

/-- Every record the buffer took in is in exactly one place. -/
theorem Run.records_count {tr : List (Agent × Event)} (h : Run (step metrics) start tr s)
    (r : AgentError) :
    (tr.flatMap arrivals).count r =
      s.errors.items.count r + s.held.count r + s.written.flatten.count r +
        (tr.flatMap evicted).count r + (tr.flatMap lost).count r := by
  induction h with
  | nil => rfl
  | snoc hrun hs ih =>
      have hstep := records_step (r := r) (Run.grouped hrun) hs
      simp only [List.flatMap_append, List.flatMap_singleton, List.count_append]
      omega

/-- In every run, once no publish is running: every record the buffer took in
was written, is still in the buffer or was dropped as the oldest, exactly if
no publish failed, raised or was cancelled with records in its hands. -/
theorem records_kept_iff {tr : List (Agent × Event)} (h : Run (step metrics) start tr s)
    (hidle : s.Idle) :
    (tr.flatMap arrivals).Perm (s.written.flatten ++ s.errors.items ++ tr.flatMap evicted) ↔
      ∀ p ∈ tr, lost p = [] := by
  have hheld : s.held = [] := by
    rw [held, hidle.1, hidle.2]
    rfl
  have hcount : ∀ r, (tr.flatMap arrivals).count r =
      (s.written.flatten ++ s.errors.items ++ tr.flatMap evicted).count r +
        (tr.flatMap lost).count r := by
    intro r
    have hrecords := Run.records_count h r
    rw [hheld, List.count_nil] at hrecords
    simp only [List.count_append]
    omega
  rw [← List.flatMap_eq_nil_iff]
  constructor
  · intro hperm
    rw [List.eq_nil_iff_forall_not_mem]
    intro r hr
    have hpos := List.count_pos_iff.mpr hr
    have heq := hperm.count_eq r
    have hsum := hcount r
    omega
  · intro hnone
    rw [List.perm_iff_count]
    intro r
    rw [hcount r, hnone, List.count_nil, Nat.add_zero]

/-! ## A write that fails -/

def lostConnection : LogRecord where
  name := "src.main"
  levelname := "WARNING"
  message := "[OPC] Session ended"
  exc_info := none
  created := ⟨⟨2026, 1, 1, 12, 0, 3, 0, by decide⟩⟩

/-- A record logged while disconnected is drained in the next session, whose
first write fails. -/
def failedWrite : List Event :=
  [.emit lostConnection, .connected, .cycle, .threadSteps 0, .threadSteps 0, .threadSteps 0,
    .drained 0, .writeRaises 0 ⟨.timeoutError, ""⟩]

theorem execute_failedWrite : (execute (step ["errors"]) start failedWrite).isSome = true := by
  decide

theorem failedWrite_loses_record :
    let run := executed (step ["errors"]) start failedWrite execute_failedWrite
    Run (step ["errors"]) start run.1 run.2 ∧ run.2.Idle ∧
      ¬ (run.1.flatMap arrivals).Perm
        (run.2.written.flatten ++ run.2.errors.items ++ run.1.flatMap evicted) :=
  ⟨Run.executed execute_failedWrite, by decide, fun h => absurd h.length_eq (by decide)⟩

/-- The same record, and a write that returns. -/
def writtenOnce : List Event :=
  [.emit lostConnection, .connected, .cycle, .threadSteps 0, .threadSteps 0, .threadSteps 0,
    .drained 0, .writeReturns 0]

theorem execute_writtenOnce : (execute (step ["errors"]) start writtenOnce).isSome = true := by
  decide

theorem records_kept_writtenOnce :
    let run := executed (step ["errors"]) start writtenOnce execute_writtenOnce
    (run.1.flatMap arrivals).Perm
        (run.2.written.flatten ++ run.2.errors.items ++ run.1.flatMap evicted) ↔
      ∀ p ∈ run.1, lost p = [] :=
  records_kept_iff (Run.executed execute_writtenOnce) (by decide)

end Agent

end KepServerLogger.Extractor
