import KepServerLogger.Base.Past
import KepServerLogger.Proofs.Supervisor

/-!
# The log of the states (`active_log`)

The row that says `active` is written in the session, once the host name is
read, and the row that says `inactive` by `main`, for every session that ends
and for every attempt that never got that far. What the log looks like is
therefore decided where attempts end. The phases fall into four stages: the
log last said `inactive`, or nothing, while the coroutine is idle; it last
said `active` from the report to the end of the session; and a session that
is being left owes a row. An attempt that ends before its report goes from
the first stage to the third, and its row repeats the one before.

That each `inactive` row names its reason does not depend on this: the row of
`ingestor_logs` is written in the step before, and its id is kept in between.
-/

namespace KepServerLogger.Ingestor

open KepServerLogger.Py KepServerLogger.Lib

/-- The state that a row of `active_log` says. -/
def Request.status : Request → Option String
  | .logStatus event _ _ _ _ => some event
  | _ => none

def Request.errorId : Request → Option String
  | .logStatus _ _ _ error_id _ => error_id
  | _ => none

/-- An `inactive` row is one of a shutdown, or names a row that is there. -/
def Explained (past : List Request) (row : Request) : Prop :=
  ∀ host_name reason error_id now, row = .logStatus "inactive" host_name reason error_id now →
    (reason = some "shutdown" ∧ error_id = none) ∨
      ∃ id, error_id = some id ∧
        ∃ level component exc time, .logEvent level component exc id time ∈ past

/-- The rows of both logs, in the order they were committed. -/
structure StateLog (logs : List Request) : Prop where
  alternates : Alternates "active" "inactive" (logs.filterMap Request.status)
  explained : EachWithPast Explained logs
  distinct : (logs.filterMap Request.errorId).Nodup

inductive Stage where
  | idle
  | established
  /-- An `inactive` row is owed. -/
  | leaving
  | ended
  deriving DecidableEq, Repr

def Phase.stage : Phase → Stage
  | .initializing | .connecting | .reading | .sleeping => .idle
  | .starting | .subscribing | .running | .stopping _ | .flushing _ => .established
  | .disconnecting _ | .handling _ | .reporting _ => .leaving
  | .ended _ _ => .ended

namespace Main

variable {env : Externals} {accepts : Write → Bool} {metrics : List String}
  {s s' : Main} {e : Event}

/-- The row that an event writes to one of the logs. -/
def asked : Main × Event → Option Request
  | (_, .hostRead host_name now _) => some (.logStatus "active" host_name none none now)
  | (_, .silent message event_id now _) =>
      some (.logEvent "WARNING" "SUBSCRIPTION" (timeoutError message) event_id now)
  | (_, .heartbeatStale event_id now) => some (heartbeatIsStale event_id now)
  | (_, .leakedStale event_id now) => some (heartbeatIsStale event_id now)
  | (_, .shutdown now _) => some (inactive (some "shutdown") none now)
  | (s, .reportFailure event_id now _) =>
      match s.phase with
      | .handling (.raised _ reason) => some (.logEvent "ERROR" "RECONNECT" reason event_id now)
      | _ => none
  | (s, .reportInactive now _) =>
      match s.phase with
      | .reporting error_id => some (inactive none (some error_id) now)
      | _ => none
  | _ => none

/-- The database takes the row of every step. -/
def WritesSucceed (accepts : Write → Bool) (tr : List (Main × Event)) : Prop :=
  ∀ p ∈ tr, ∀ row ∈ asked p, p.1.returns accepts row = true

/-- The id that `log_event` draws. -/
def drawn : Main × Event → Option String
  | (_, .silent _ event_id _ _) => some event_id
  | (_, .heartbeatStale event_id _) => some event_id
  | (_, .leakedStale event_id _) => some event_id
  | (_, .reportFailure event_id _ _) => some event_id
  | _ => none

/-- An attempt ends, by failing or by being cancelled, before it has reported
itself active. -/
def unestablished : Main × Event → Bool
  | (_, .connectFails _) => true
  | (_, .hostFails _) => true
  | (s, .cancel) =>
      match s.phase with
      | .connecting | .reading => true
      | _ => false
  | _ => false

theorem advance_logs (hs : s.advance accepts e = some s')
    (hreturns : ∀ row, asked (s, e) = some row → s.returns accepts row = true) :
    s'.logs = s.logs ++ (asked (s, e)).toList := by
  cases e <;> simp only [advance, threadEnds] at hs <;> repeat' split at hs
  all_goals cases hs
  all_goals simp_all [asked, close]

/-- A step logs and goes where its advance does. -/
theorem step_logs (hs : step accepts env metrics s e = some s')
    (hreturns : ∀ row, asked (s, e) = some row → s.returns accepts row = true) :
    ∃ s₁, s.advance accepts e = some s₁ ∧ s'.phase = s₁.phase ∧
      s'.logs = s.logs ++ (asked (s, e)).toList := by
  obtain ⟨s₁, hadvance, heq, _⟩ := step_cases hs
  have hlogs := advance_logs hadvance hreturns
  rw [heq]
  exact ⟨s₁, hadvance, rfl, hlogs⟩

/-! ## The stages -/

/-- The state that a step reports. -/
def reported (p : Main × Event) : Option String := (asked p).bind Request.status

theorem statuses_step {s₁ : Main} (hlogs : s₁.logs = s.logs ++ (asked (s, e)).toList) :
    s₁.logs.filterMap Request.status =
      s.logs.filterMap Request.status ++ (reported (s, e)).toList := by
  rw [hlogs, List.filterMap_append, reported]
  cases asked (s, e) with
  | none => rfl
  | some row =>
      simp only [Option.toList_some, Option.bind_some]
      cases hstatus : row.status <;> simp [hstatus]

/-- What a step does to the stage and to the log of the states. -/
theorem stage_cases (hs : s.advance accepts e = some s')
    (hreturns : ∀ row, asked (s, e) = some row → s.returns accepts row = true) :
    (s.phase.stage = .idle ∧ s'.phase.stage = .established ∧
      reported (s, e) = some "active" ∧ unestablished (s, e) = false) ∨
    (s.phase.stage = .leaving ∧ (s'.phase.stage = .idle ∨ s'.phase.stage = .ended) ∧
      reported (s, e) = some "inactive" ∧ unestablished (s, e) = false) ∨
    (s.phase.stage = .idle ∧ s'.phase.stage = .leaving ∧ reported (s, e) = none ∧
      unestablished (s, e) = true) ∨
    (reported (s, e) = none ∧ unestablished (s, e) = false ∧
      (s'.phase.stage = s.phase.stage ∨
        s.phase.stage = .established ∧ s'.phase.stage = .leaving ∨
        s.phase.stage = .idle ∧ s'.phase.stage = .ended)) := by
  cases e <;> simp only [advance, threadEnds] at hs <;> repeat' split at hs
  all_goals cases hs
  all_goals simp_all [asked, reported, Request.status, unestablished, Phase.stage, close,
    inactive, heartbeatIsStale]

/-- What the log says of the attempts so far. -/
inductive Recorded (tr : List (Main × Event)) (s : Main) : Prop
  | sound (hall : ∀ p ∈ tr, unestablished p = false)
      (halt : Alternates "active" "inactive" (s.logs.filterMap Request.status))
      (hidle : s.phase.stage = .idle → (s.logs.filterMap Request.status).length % 2 = 0)
      (hopen : s.phase.stage = .established ∨ s.phase.stage = .leaving →
        (s.logs.filterMap Request.status).length % 2 = 1)
  /-- The row that is owed will repeat the last. -/
  | doomed (p : Main × Event) (hp : p ∈ tr) (hun : unestablished p = true)
      (hleaving : s.phase.stage = .leaving)
      (heven : (s.logs.filterMap Request.status).length % 2 = 0)
  | broken (p : Main × Event) (hp : p ∈ tr) (hun : unestablished p = true)
      (hbroken : ¬ Alternates "active" "inactive" (s.logs.filterMap Request.status))

theorem Recorded.step {tr : List (Main × Event)} (h : Recorded tr s)
    (hs : step accepts env metrics s e = some s')
    (hreturns : ∀ row, asked (s, e) = some row → s.returns accepts row = true) :
    Recorded (tr ++ [(s, e)]) s' := by
  obtain ⟨s₁, hadvance, hphase, hlogs⟩ := step_logs hs hreturns
  have hcases := stage_cases hadvance hreturns
  rw [← hphase] at hcases
  have hstatuses := statuses_step hlogs
  cases h with
  | sound hall halt hidle hopen =>
      have hsnoc : unestablished (s, e) = false →
          ∀ p ∈ tr ++ [(s, e)], unestablished p = false := by
        intro hnow
        rw [List.forall_mem_append, List.forall_mem_singleton]
        exact ⟨hall, hnow⟩
      rcases hcases with ⟨hfrom, hto, hrow, hnow⟩ | ⟨hfrom, hto, hrow, hnow⟩ |
        ⟨hfrom, hto, hrow, hnow⟩ | ⟨hrow, hnow, hto⟩
      · rw [hrow, Option.toList_some] at hstatuses
        have heven := hidle hfrom
        refine .sound (hsnoc hnow) ?_ (by simp [hto]) fun _ => ?_
        · rw [hstatuses, alternates_snoc]
          exact ⟨halt, by rw [if_pos heven]⟩
        · rw [hstatuses, List.length_append, List.length_singleton]
          omega
      · rw [hrow, Option.toList_some] at hstatuses
        have hodd := hopen (.inr hfrom)
        refine .sound (hsnoc hnow) ?_ (fun _ => ?_) ?_
        · rw [hstatuses, alternates_snoc]
          exact ⟨halt, by rw [if_neg (by omega)]⟩
        · rw [hstatuses, List.length_append, List.length_singleton]
          omega
        · rcases hto with hto | hto <;> simp [hto]
      · rw [hrow, Option.toList_none, List.append_nil] at hstatuses
        exact .doomed _ (List.mem_append_right _ List.mem_cons_self) hnow hto
          (hstatuses ▸ hidle hfrom)
      · rw [hrow, Option.toList_none, List.append_nil] at hstatuses
        refine .sound (hsnoc hnow) (hstatuses ▸ halt) ?_ ?_ <;> rw [hstatuses]
        · rcases hto with hto | ⟨_, hto⟩ | ⟨_, hto⟩
          · rwa [hto]
          · simp [hto]
          · simp [hto]
        · rcases hto with hto | ⟨hfrom, hto⟩ | ⟨_, hto⟩
          · rwa [hto]
          · exact fun _ => hopen (.inl hfrom)
          · simp [hto]
  | doomed p hp hun hleaving heven =>
      have hp' : p ∈ tr ++ [(s, e)] := List.mem_append_left _ hp
      rcases hcases with ⟨hfrom, _⟩ | ⟨_, _, hrow, _⟩ | ⟨hfrom, _⟩ | ⟨hrow, _, hto⟩
      · rw [hleaving] at hfrom
        cases hfrom
      · refine .broken p hp' hun ?_
        rw [hstatuses, hrow, Option.toList_some, alternates_snoc, if_pos heven]
        exact fun h => absurd h.2 (by decide)
      · rw [hleaving] at hfrom
        cases hfrom
      · rw [hrow, Option.toList_none, List.append_nil] at hstatuses
        rcases hto with hto | ⟨hfrom, _⟩ | ⟨hfrom, _⟩
        · exact .doomed p hp' hun (hto.trans hleaving) (hstatuses ▸ heven)
        · rw [hleaving] at hfrom
          cases hfrom
        · rw [hleaving] at hfrom
          cases hfrom
  | broken p hp hun hbroken =>
      refine .broken p (List.mem_append_left _ hp) hun ?_
      rw [hstatuses]
      cases reported (s, e) with
      | none => simpa using hbroken
      | some status =>
          rw [Option.toList_some, alternates_snoc]
          exact fun h => hbroken h.1

theorem WritesSucceed.snoc {tr : List (Main × Event)} {p : Main × Event}
    (h : WritesSucceed accepts (tr ++ [p])) : WritesSucceed accepts tr ∧
      ∀ row, asked p = some row → p.1.returns accepts row = true :=
  ⟨fun q hq => h q (List.mem_append_left _ hq),
    h p (List.mem_append_right _ List.mem_cons_self)⟩

theorem recorded_run {tr : List (Main × Event)}
    (h : Run (step accepts env metrics) start tr s) (hwrites : WritesSucceed accepts tr) :
    Recorded tr s := by
  induction h with
  | nil => exact .sound (by simp) (by decide) (fun _ => rfl) (by decide)
  | snoc _ hs ih => exact (ih hwrites.snoc.1).step hs hwrites.snoc.2

/-! ## The reasons -/

/-- The id that the next `inactive` row names. -/
def pendingId (s : Main) : Option String :=
  match s.phase with
  | .reporting error_id => some error_id
  | _ => none

/-- What a step does to the id in hand. -/
theorem pendingId_cases (hs : s.advance accepts e = some s')
    (hreturns : ∀ row, asked (s, e) = some row → s.returns accepts row = true) :
    (∃ event_id level component exc now, s.pendingId = none ∧
      s'.pendingId = some event_id ∧ drawn (s, e) = some event_id ∧
      asked (s, e) = some (.logEvent level component exc event_id now)) ∨
    (∃ error_id now, s.pendingId = some error_id ∧ s'.pendingId = none ∧
      drawn (s, e) = none ∧ asked (s, e) = some (inactive none (some error_id) now)) ∨
    (s'.pendingId = s.pendingId ∧
      ∀ row, asked (s, e) = some row → row.errorId = none ∧ ∀ past, Explained past row) := by
  cases e <;> simp only [advance, threadEnds] at hs <;> repeat' split at hs
  all_goals cases hs
  all_goals simp_all [asked, pendingId, drawn, close, Request.errorId, inactive,
    heartbeatIsStale, Explained]

/-- What is logged, and the id in hand. -/
structure Named (tr : List (Main × Event)) (s : Main) : Prop where
  explained : EachWithPast Explained s.logs
  inHand : ∀ id ∈ s.pendingId,
    ∃ level component exc time, .logEvent level component exc id time ∈ s.logs
  ids : (s.logs.filterMap Request.errorId ++ s.pendingId.toList).Sublist (tr.filterMap drawn)

/-- What the next row may name stays there. -/
theorem mem_logs_append {id : String} {logs more : List Request}
    (h : ∃ level component exc time, Request.logEvent level component exc id time ∈ logs) :
    ∃ level component exc time, Request.logEvent level component exc id time ∈ logs ++ more := by
  obtain ⟨level, component, exc, time, hmem⟩ := h
  exact ⟨level, component, exc, time, List.mem_append_left _ hmem⟩

theorem Named.step {tr : List (Main × Event)} (h : Named tr s)
    (hs : step accepts env metrics s e = some s')
    (hreturns : ∀ row, asked (s, e) = some row → s.returns accepts row = true) :
    Named (tr ++ [(s, e)]) s' := by
  obtain ⟨s₁, hadvance, hphase, hlogs⟩ := step_logs hs hreturns
  have hpending : s'.pendingId = s₁.pendingId := by
    rw [pendingId, hphase, pendingId]
  have hdrawn : (tr ++ [(s, e)]).filterMap drawn = tr.filterMap drawn ++ (drawn (s, e)).toList := by
    rw [List.filterMap_append]
    cases hd : drawn (s, e) <;> simp [hd]
  rcases pendingId_cases hadvance hreturns with
    ⟨event_id, level, component, exc, now, hnone, hsome, hd, hrow⟩ |
    ⟨error_id, now, hsome, hnone, hd, hrow⟩ | ⟨hsame, hrows⟩
  · rw [hrow, Option.toList_some] at hlogs
    constructor
    · rw [hlogs]
      refine h.explained.snoc ?_
      intro host_name reason error_id time heq
      cases heq
    · rw [hpending, hsome, hlogs]
      intro id hid
      cases hid
      exact ⟨level, component, exc, now, List.mem_append_right _ List.mem_cons_self⟩
    · have hids := h.ids
      rw [hnone, Option.toList_none, List.append_nil] at hids
      have hrows : s'.logs.filterMap Request.errorId = s.logs.filterMap Request.errorId := by
        rw [hlogs, List.filterMap_append]
        simp [Request.errorId]
      rw [hdrawn, hd, hpending, hsome, hrows]
      exact hids.append (List.Sublist.refl [event_id])
  · rw [hrow, Option.toList_some] at hlogs
    constructor
    · rw [hlogs]
      refine h.explained.snoc ?_
      intro host_name reason id time heq
      cases heq
      exact .inr ⟨error_id, rfl, h.inHand error_id hsome⟩
    · rw [hpending, hnone]
      intro id hid
      cases hid
    · have hids := h.ids
      rw [hsome, Option.toList_some] at hids
      rw [hdrawn, hd, hpending, hnone, hlogs]
      simpa [Request.errorId, inactive] using hids
  · constructor
    · rw [hlogs]
      cases hrow : asked (s, e) with
      | none => simpa using h.explained
      | some row => exact h.explained.snoc ((hrows row hrow).2 s.logs)
    · rw [hpending, hsame, hlogs]
      exact fun id hid => mem_logs_append (h.inHand id hid)
    · have hids : s'.logs.filterMap Request.errorId = s.logs.filterMap Request.errorId := by
        rw [hlogs, List.filterMap_append]
        cases hrow : asked (s, e) with
        | none => simp
        | some row => simp [(hrows row hrow).1]
      rw [hids, hpending, hsame, hdrawn]
      exact h.ids.trans (List.sublist_append_left _ _)

theorem named_run {tr : List (Main × Event)}
    (h : Run (step accepts env metrics) start tr s) (hwrites : WritesSucceed accepts tr) :
    Named tr s := by
  induction h with
  | nil => exact ⟨.nil, by simp [pendingId, start], by simp [start, pendingId]⟩
  | snoc _ hs ih => exact (ih hwrites.snoc.1).step hs hwrites.snoc.2

/-! ## The log -/

/-- The database takes every row, and no id is drawn twice: the logs are a log
of the states if every attempt that ends has reported itself active. One that
has not, once its row is written, leaves a log that is none. -/
theorem stateLog_of_established {tr : List (Main × Event)}
    (h : Run (step accepts env metrics) start tr s) (hwrites : WritesSucceed accepts tr)
    (hfresh : (tr.filterMap drawn).Nodup) :
    ((∀ p ∈ tr, unestablished p = false) → StateLog s.logs) ∧
      (s.phase.stage ≠ .leaving → StateLog s.logs → ∀ p ∈ tr, unestablished p = false) := by
  have hnamed := named_run h hwrites
  have hdistinct : (s.logs.filterMap Request.errorId).Nodup :=
    hfresh.sublist ((List.sublist_append_left _ _).trans hnamed.ids)
  cases recorded_run h hwrites with
  | sound hall halt _ _ => exact ⟨fun _ => ⟨halt, hnamed.explained, hdistinct⟩, fun _ _ => hall⟩
  | doomed p hp hun hleaving _ =>
      refine ⟨fun hall => ?_, fun hsettled => absurd hleaving hsettled⟩
      rw [hall p hp] at hun
      cases hun
  | broken p hp hun hbroken =>
      refine ⟨fun hall => ?_, fun _ hlog => absurd hlog.alternates hbroken⟩
      rw [hall p hp] at hun
      cases hun

def refused : Reported :=
  ⟨"ConnectionRefusedError", "[Errno 111] Connect call failed",
    "ConnectionRefusedError: [Errno 111] Connect call failed\n"⟩

def attemptedAt : Datetime := ⟨⟨2026, 1, 1, 12, 0, 4, 0, by decide⟩, some .utc⟩

/-- The server of the plant is not there when the program starts. -/
def neverConnected : List Event :=
  [.dbInitialize none, .connectFails refused, .reportFailure "e1" attemptedAt brokenLink,
    .reportInactive attemptedAt brokenLink, .wake, .connectFails refused,
    .reportFailure "e2" attemptedAt brokenLink, .reportInactive attemptedAt brokenLink]

theorem execute_neverConnected :
    (execute (step acceptsNoNul (.ofTexts []) ["cpu"]) start neverConnected).isSome = true := by
  decide

/-- The first row says `inactive`, and so does the second. -/
theorem neverConnected_logs_inactive :
    let run := executed (step acceptsNoNul (.ofTexts []) ["cpu"]) start neverConnected
      execute_neverConnected
    Run (step acceptsNoNul (.ofTexts []) ["cpu"]) start run.1 run.2 ∧
      WritesSucceed acceptsNoNul run.1 ∧ (run.1.filterMap drawn).Nodup ∧
      run.2.logs.filterMap Request.status = ["inactive", "inactive"] ∧
      ¬ StateLog run.2.logs := by
  intro run
  have hrows : run.2.logs.filterMap Request.status = ["inactive", "inactive"] := by decide
  refine ⟨Run.executed execute_neverConnected, by unfold WritesSucceed; decide, by decide, hrows,
    fun hlog => ?_⟩
  have halternates := hlog.alternates
  rw [hrows] at halternates
  exact absurd halternates (by decide)

/-- A session whose heartbeats cannot be started, and then a shutdown in the
next one. -/
def twoSessions : List Event :=
  [.dbInitialize none, .connected, .hostRead (.str "plc-1") attemptedAt brokenLink,
    .startFails refused, .stopped, .flushed, .disconnected,
    .reportFailure "e1" attemptedAt brokenLink, .reportInactive attemptedAt brokenLink, .wake,
    .connected, .hostRead (.str "plc-1") attemptedAt brokenLink, .heartbeatStarts, .started,
    .cancel, .stopped, .flushed, .disconnected, .shutdown attemptedAt brokenLink]

theorem execute_twoSessions :
    (execute (step acceptsNoNul (.ofTexts []) ["cpu"]) start twoSessions).isSome = true := by
  decide

theorem stateLog_twoSessions :
    let run := executed (step acceptsNoNul (.ofTexts []) ["cpu"]) start twoSessions
      execute_twoSessions
    ((∀ p ∈ run.1, unestablished p = false) ∧ run.2.phase.stage ≠ .leaving) ∧
      ((∀ p ∈ run.1, unestablished p = false) → StateLog run.2.logs) ∧
      (run.2.phase.stage ≠ .leaving → StateLog run.2.logs →
        ∀ p ∈ run.1, unestablished p = false) := by
  intro run
  refine ⟨by decide, ?_⟩
  exact stateLog_of_established (Run.executed execute_twoSessions)
    (by unfold WritesSucceed; decide) (by decide)

end Main

end KepServerLogger.Ingestor
