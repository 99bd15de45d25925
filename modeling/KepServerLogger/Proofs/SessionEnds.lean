import KepServerLogger.Proofs.ErrorLog
import KepServerLogger.Proofs.FailureRuns

/-!
# What ends a session of the extractor

A metric that fails is skipped; a `ConnectionError`, or the same component
failing three cycles in a row, cancels the cycle and ends the session. Nothing
else does, Ctrl-C apart: neither how many components fail in one cycle, nor in
which order their tasks end, nor what came of an earlier session. So a session
lasts as long as no completion of its tasks triggers, and the one that does is
the last.
-/

namespace KepServerLogger.Extractor.Agent

open KepServerLogger.Py KepServerLogger.Lib

variable {metrics : List String} {s s' : Agent} {e : Event}

/-- The completion of a task that a step is. -/
def completion : Agent × Event → Option Completion
  | (s, .threadSteps i) =>
      match s.tasks[i]? with
      | some (.getting drain) =>
          match drain.step s.errors with
          | some (.error e) => some (completed "ERRORS" (.error e))
          | _ => none
      | _ => none
  | (s, .drained i) =>
      match s.tasks[i]? with
      | some (.getting (.taking 0 [])) => some (completed "ERRORS" (.ok ()))
      | _ => none
  | (_, .writeReturns _) => some (completed "ERRORS" (.ok ()))
  | (_, .writeRaises _ e) => some (completed "ERRORS" (.error e))
  | (_, .ends component outcome) => some (completed component outcome)
  | _ => none

/-- The step is neither the beginning of a session nor Ctrl-C. -/
def within : Agent × Event → Bool
  | (_, .connected) | (_, .interrupt) => false
  | _ => true

/-- What has become of a session after these completions. -/
inductive Session (cs : List Completion) (s : Agent) : Prop
  | lasts (hphase : s.phase = .sleeping ∨ s.phase = .publishing)
      (hmonitor : s.monitor = monitorAfter cs) (hcounts : Counts cs)
      (hquiet : EachWithPast (fun past c => ¬ Triggers past c) cs)
  | ended (hphase : s.phase = .away) (htasks : s.tasks = []) (hothers : s.others = [])
      {past : List Completion} {c : Completion} (hcs : cs = past ++ [c])
      (hfirst : IsFirst Triggers past c)

variable {cs : List Completion}

/-- A step that no task ends with. -/
theorem Session.quiet (h : Session cs s) (hphase : s'.phase = s.phase)
    (hmonitor : s'.monitor = s.monitor) (htasks : s.tasks = [] → s'.tasks = [])
    (hothers : s.others = [] → s'.others = []) : Session cs s' := by
  cases h with
  | lasts hp hm hcounts hquiet => exact .lasts (hphase ▸ hp) (hmonitor.trans hm) hcounts hquiet
  | ended hp ht ho hcs hfirst =>
      exact .ended (hphase.trans hp) (htasks ht) (hothers ho) hcs hfirst

theorem hookReturns_completed (component : String) (outcome : Except Exc Unit) :
    (completed component outcome).HookReturns :=
  fun f hf => absurd hf (Option.not_mem_none f)

/-- A task of a session ends. -/
theorem Session.settle (hphase : s.phase = .sleeping ∨ s.phase = .publishing)
    (hmonitor : s.monitor = monitorAfter cs) (hcounts : Counts cs)
    (hquiet : EachWithPast (fun past c => ¬ Triggers past c) cs) (component : String)
    (outcome : Except Exc Unit) :
    Session (cs ++ [completed component outcome]) (s.settle component outcome) := by
  have hhook := hookReturns_completed component outcome
  have hraises := hcounts.raises_iff_triggers hhook
  have hsafe : safeHandleWith none component (monitorAfter cs) outcome =
      safeHandle component s.monitor outcome := by
    rw [hmonitor]
    exact safeHandleWith_of_returns hhook component _
  unfold Agent.settle
  split
  · next monitor hok =>
      have hnot : ¬ Raises cs (completed component outcome) := by
        rintro ⟨e, he⟩
        have he : (safeHandleWith none component (monitorAfter cs) outcome).2 = .error e := he
        rw [hsafe, hok] at he
        cases he
      refine .lasts hphase ?_ (hcounts.snoc hhook hnot) (hquiet.snoc fun h => hnot (hraises.mpr h))
      rw [monitorAfter_snoc]
      show monitor = (safeHandleWith none component (monitorAfter cs) outcome).1
      rw [hsafe, hok]
  · next monitor e herror =>
      refine .ended rfl rfl rfl rfl ⟨hraises.mp ⟨e, ?_⟩, hquiet⟩
      show (safeHandleWith none component (monitorAfter cs) outcome).2 = .error e
      rw [hsafe, herror]

/-- A task that is there ends in a session that lasts. -/
theorem Session.ends (h : Session cs s) (t : Agent) (hthere : s.tasks ≠ [] ∨ s.others ≠ [])
    (hphase : t.phase = s.phase) (hmonitor : t.monitor = s.monitor) (component : String)
    (outcome : Except Exc Unit) :
    Session (cs ++ [completed component outcome]) (t.settle component outcome) := by
  cases h with
  | lasts hp hm hcounts hquiet =>
      exact .settle (hphase ▸ hp) (hmonitor.trans hm) hcounts hquiet component outcome
  | ended hp ht ho => exact hthere.elim (absurd ht) (absurd ho)

/-- A task that publishes `errors` ends. -/
theorem Session.taskEnds {i : Nat} {p : Publish} (h : Session cs s) (t : Agent)
    (hi : s.tasks[i]? = some p) (hphase : t.phase = s.phase) (hmonitor : t.monitor = s.monitor)
    (outcome : Except Exc Unit) :
    Session (cs ++ [completed "ERRORS" outcome]) (t.taskEnds i outcome) := by
  have hthere : s.tasks ≠ [] := by
    intro hnil
    rw [hnil] at hi
    cases hi
  exact h.ends { t with tasks := t.tasks.eraseIdx i } (.inl hthere) hphase hmonitor "ERRORS" outcome

theorem Session.step (h : Session cs s) (hs : Agent.step metrics s e = some s')
    (hwithin : within (s, e) = true) :
    Session (cs ++ (completion (s, e)).toList) s' := by
  have hset : ∀ {i : Nat} (p : Publish), s.tasks = [] → s.tasks.set i p = [] := by
    intro i p hnil
    rw [hnil]
    rfl
  have hnone : completion (s, e) = none → cs ++ (completion (s, e)).toList = cs := by
    intro hnone
    rw [hnone]
    exact List.append_nil cs
  cases step_cases hs with
  | emit record =>
      rw [hnone rfl]
      exact h.quiet rfl rfl id id
  | connected | interrupt => cases hwithin
  | cycle hphase =>
      rw [hnone rfl]
      cases h with
      | lasts hp hm hcounts hquiet => exact .lasts (.inr rfl) hm hcounts hquiet
      | ended hp =>
          rw [hphase] at hp
          cases hp
  | threadSteps hi hdrain =>
      rw [hnone (by simp only [completion, hi, hdrain])]
      exact h.quiet rfl rfl (hset _) id
  | threadRaises hi hdrain =>
      simp only [completion, hi, hdrain]
      exact h.taskEnds s hi rfl rfl _
  | drainedNothing hi =>
      simp only [completion, hi]
      exact h.taskEnds s hi rfl rfl _
  | @drained i models hi =>
      cases models with
      | nil =>
          simp only [Agent.step, hi, Option.some.injEq] at hs
          rw [← hs]
          simp only [completion, hi]
          exact h.taskEnds s hi rfl rfl _
      | cons m models =>
          rw [hnone (by simp only [completion, hi])]
          exact h.quiet rfl rfl (hset _) id
  | @writeReturns i models text hi =>
      exact h.taskEnds { s with written := s.written ++ [models] } hi rfl rfl (.ok ())
  | writeRaises e hi => exact h.taskEnds s hi rfl rfl _
  | orphanSteps hi hdrain | orphanRaises hi hdrain | orphanReturns hi =>
      rw [hnone rfl]
      exact h.quiet rfl rfl id id
  | ends component outcome =>
      have hmem : component ∈ s.others := by
        by_contra hnot
        rw [Agent.step, if_neg hnot] at hs
        cases hs
      exact h.ends { s with others := s.others.erase component } (.inr (List.ne_nil_of_mem hmem))
        rfl rfl component outcome
  | cycleEnds htasks =>
      rw [hnone rfl]
      have hphase : s.phase = .publishing := by
        simp only [Agent.step] at hs
        split at hs
        · assumption
        · cases hs
      cases h with
      | lasts hp hm hcounts hquiet => exact .lasts (.inl rfl) hm hcounts hquiet
      | ended hp =>
          rw [hphase] at hp
          cases hp

/-- A session of the extractor, whatever was before it, ends in the step in
which a component fails for the third time in a row or a `ConnectionError`
occurs, and in no other. -/
theorem session_ends_iff {pre post : List (Agent × Event)} {t : Agent}
    (h : Run (Agent.step metrics) start (pre ++ (t, .connected) :: post) s)
    (hpost : ∀ p ∈ post, within p = true) :
    (s.phase = .away ↔
      ∃ past c, post.filterMap completion = past ++ [c] ∧ IsFirst Triggers past c) ∧
    (s.phase ≠ .away ↔
      EachWithPast (fun past c => ¬ Triggers past c) (post.filterMap completion)) := by
  obtain ⟨t', -, ht, hrun⟩ := h.split
  have hstart : Session [] t' := by
    cases step_cases ht with
    | connected hphase => exact .lasts (.inl rfl) rfl (fun _ => ⟨rfl, Nat.succ_pos 2⟩) .nil
  have hsession : Session (post.filterMap completion) s := by
    clear h ht
    induction hrun with
    | nil => exact hstart
    | @snoc post s s' e _ hs ih =>
        rw [List.forall_mem_append, List.forall_mem_singleton] at hpost
        have hstep := (ih hpost.1).step hs hpost.2
        rw [List.filterMap_append]
        cases hcompletion : completion (s, e) with
        | none =>
            rw [hcompletion] at hstep
            rw [List.filterMap_cons_none hcompletion]
            exact hstep
        | some c =>
            rw [hcompletion] at hstep
            rw [List.filterMap_cons_some hcompletion]
            exact hstep
  cases hsession with
  | lasts hphase hmonitor hcounts hquiet =>
      have hne : s.phase ≠ .away := by
        rcases hphase with hphase | hphase <;> simp [hphase]
      refine ⟨iff_of_false hne ?_, iff_of_true hne hquiet⟩
      rintro ⟨past, c, hcs, hfirst⟩
      exact hquiet past c [] hcs hfirst.1
  | @ended hphase htasks hothers past c hcs hfirst =>
      refine ⟨iff_of_true hphase ⟨past, c, hcs, hfirst⟩, iff_of_false (absurd hphase) ?_⟩
      exact fun hquiet => hquiet past c [] hcs hfirst.1

/-- Three cycles in which the host name cannot be written; there are no errors
to publish, and in the last the thread has not said so when the group is
cancelled. -/
def threeFailures : List Event :=
  let failure : Except Exc Unit := .error ⟨.runtimeError, "no such node"⟩
  let drained : List Event := [.threadSteps 0, .threadSteps 0, .drained 0]
  [.connected, .cycle, .ends "HOSTNAME" failure] ++ drained ++ [.cycleEnds, .cycle] ++ drained ++
    [.ends "HOSTNAME" failure, .cycleEnds, .cycle, .threadSteps 0, .ends "HOSTNAME" failure]

theorem execute_threeFailures :
    (execute (step ["errors"]) start threeFailures).isSome = true := by
  decide

theorem session_ends_threeFailures :
    let run := executed (step ["errors"]) start threeFailures execute_threeFailures
    run.2.phase = .away ∧ ∃ past c, (run.1.drop 1).filterMap completion = past ++ [c] ∧
      IsFirst Triggers past c := by
  intro run
  have hphase : run.2.phase = .away := by decide
  have hrun : Run (step ["errors"]) start ([] ++ (start, .connected) :: run.1.drop 1) run.2 :=
    Run.executed execute_threeFailures
  exact ⟨hphase, (session_ends_iff hrun (by decide)).1.mp hphase⟩

end KepServerLogger.Extractor.Agent
