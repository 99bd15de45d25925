import KepServerLogger.Base.Past
import KepServerLogger.Proofs.HeartbeatLoop

/-!
# Silence that is not reported

Staleness is measured from the last notification, and before the first one
there is nothing to measure from: a side that answered and stopped is
reported, one that has never answered is not, however long the task has been
sending. What counts is read off the history of a run here, not off the
handler.
-/

namespace KepServerLogger.Lib.HeartbeatRun

open KepServerLogger.Py

variable {millis : Int → PyFloat} {pair : String} {max_heartbeat max_rtt limit : Int}
  {reports : Bool} {s s' : HeartbeatRun} {e : Event} {tr past : List (HeartbeatRun × Event)}
  {now t : Utc}

def receivedAt : HeartbeatRun × Event → Option Utc
  | (_, .notified _ now _) => some now
  | _ => none

def startedAt : HeartbeatRun × Event → Option Utc
  | (_, .started now) => some now
  | _ => none

/-! ## What the handler knows of the past -/

theorem last_received_at_notified (h : SystemHeartbeatHandler) (val monotonic : Int) :
    (h.datachangeNotification millis val now monotonic).1.last_received_at = some now := by
  unfold SystemHeartbeatHandler.datachangeNotification
  dsimp only
  split <;> rfl

theorem callsOnStale_check (s : HeartbeatRun) (now : Utc) (report : Except Exc Unit) :
    (s.check now report).staleCalls =
      if s.callsOnStale now then s.staleCalls ++ [now] else s.staleCalls := by
  unfold check
  split <;> rfl

/-- What does not change in a run, and what the handler last received. -/
structure Follows (limit : Int) (reports : Bool) (past : List (HeartbeatRun × Event))
    (s : HeartbeatRun) : Prop where
  limit : s.stale_after = limit
  reports : s.reports = reports
  received : s.handler.last_received_at = lastValue receivedAt past

theorem Follows.step (h : Follows limit reports past s) (hs : step millis s e = some s') :
    Follows limit reports (past ++ [(s, e)]) s' := by
  have hother : receivedAt (s, e) = none → s.handler.last_received_at =
      lastValue receivedAt (past ++ [(s, e)]) := by
    intro hnone
    rw [lastValue_snoc_of_none hnone]
    exact h.received
  cases step_cases hs with
  | started now hphase => exact ⟨h.limit, h.reports, hother rfl⟩
  | beat monotonic now hphase => exact ⟨h.limit, h.reports, hother rfl⟩
  | sent outcome now since report hphase =>
      unfold check
      split
      · exact ⟨h.limit, h.reports, hother rfl⟩
      · exact ⟨h.limit, h.reports, hother rfl⟩
  | cancel hphase => exact ⟨h.limit, h.reports, hother rfl⟩
  | notified val now monotonic =>
      refine ⟨h.limit, h.reports, ?_⟩
      rw [lastValue_snoc]
      exact last_received_at_notified s.handler val monotonic

theorem follows
    (h : Run (step millis) (new (.new pair max_heartbeat max_rtt) limit reports) tr s) :
    Follows limit reports tr s := by
  induction h with
  | nil => exact ⟨rfl, rfl, rfl⟩
  | snoc _ hs ih => exact ih.step hs

theorem Follows.callsOnStale_iff (h : Follows limit true past s) :
    s.callsOnStale now = true ↔
      ∃ t, lastValue receivedAt past = some t ∧ limit < now.since t := by
  rw [callsOnStale, h.reports, Bool.and_true, SystemHeartbeatHandler.isStale, h.received, h.limit]
  cases lastValue receivedAt past with
  | none => simp
  | some t => simp

/-! ## Silence -/

/-- Longer than the limit after the start. -/
def LongAfterStart (limit : Int) (past : List (HeartbeatRun × Event)) (now : Utc) : Prop :=
  ∃ t, lastValue startedAt past = some t ∧ limit < now.since t

/-- Longer than the limit after the start and after the last notification. -/
def Silent (limit : Int) (past : List (HeartbeatRun × Event)) (now : Utc) : Prop :=
  LongAfterStart limit past now ∧
    ∀ t, lastValue receivedAt past = some t → limit < now.since t

/-- At every beat that finds silence `on_stale` is called. -/
def ReportsSilence (millis : Int → PyFloat) (limit : Int) : List (HeartbeatRun × Event) → Prop :=
  EachWithPast fun past p => ∀ outcome now report s', p.2 = .sent outcome now report →
    step millis p.1 p.2 = some s' → Silent limit past now →
    s'.staleCalls = p.1.staleCalls ++ [now]

/-- At every beat longer than the limit after the start something has been
received. -/
def HasAnswered (limit : Int) : List (HeartbeatRun × Event) → Prop :=
  EachWithPast fun past p => ∀ outcome now report, p.2 = .sent outcome now report →
    LongAfterStart limit past now → lastValue receivedAt past ≠ none

theorem reportsSilence_iff
    (h : Run (step millis) (new (.new pair max_heartbeat max_rtt) limit true) tr s) :
    ReportsSilence millis limit tr ↔ HasAnswered limit tr := by
  have hstep : ∀ past q outcome now report rest,
      tr = past ++ (q, .sent outcome now report) :: rest →
      Follows limit true past q ∧ step millis q (.sent outcome now report) =
        some (q.check now report) := by
    intro past q outcome now report rest heq
    rw [heq] at h
    obtain ⟨q', hrun, hs, -⟩ := h.split
    refine ⟨follows hrun, ?_⟩
    cases step_cases hs with
    | sent _ _ since _ hphase => exact hs
  constructor
  · intro hreports past p rest heq outcome now report hsent hlong hnone
    obtain ⟨q, e⟩ := p
    obtain rfl : e = .sent outcome now report := hsent
    obtain ⟨hfollows, hs⟩ := hstep past q outcome now report rest heq
    have hsilent : Silent limit past now := ⟨hlong, fun t ht => nomatch hnone.symm.trans ht⟩
    have hcalls := hreports past _ rest heq outcome now report _ rfl hs hsilent
    have hquiet : ¬ q.callsOnStale now = true := by
      rw [hfollows.callsOnStale_iff, hnone]
      rintro ⟨t, ht, -⟩
      cases ht
    rw [callsOnStale_check, if_neg hquiet] at hcalls
    simp at hcalls
  · intro hanswered past p rest heq outcome now report s' hsent hs hsilent
    obtain ⟨q, e⟩ := p
    obtain rfl : e = .sent outcome now report := hsent
    obtain ⟨hfollows, hs'⟩ := hstep past q outcome now report rest heq
    obtain ⟨t, ht⟩ := Option.ne_none_iff_exists'.mp
      (hanswered past _ rest heq outcome now report rfl hsilent.1)
    have hcalls : q.callsOnStale now = true :=
      hfollows.callsOnStale_iff.mpr ⟨t, ht, hsilent.2 t ht⟩
    cases hs.symm.trans hs'
    rw [callsOnStale_check, if_pos hcalls]

/-- Two beats, and never an answer. -/
def neverAnswered : List Event :=
  [.started (atNoon 0),
    .beat 1000 (atNoon 0),
    .sent (.ok ()) (atNoon 1000) (.ok ()),
    .beat 2000 (atNoon 6000),
    .sent (.ok ()) (atNoon 7000) (.ok ())]

theorem execute_neverAnswered :
    (execute (step fun _ => ⟨"0.0"⟩) (Ingestor.collectorHeartbeat 1) neverAnswered).isSome =
      true := by
  decide

/-- Seven seconds after the start nothing has been reported, with a limit of
five. -/
theorem neverAnswered_not_reported :
    let run := executed (step fun _ => ⟨"0.0"⟩) (Ingestor.collectorHeartbeat 1) neverAnswered
      execute_neverAnswered
    Run (step fun _ => ⟨"0.0"⟩) (Ingestor.collectorHeartbeat 1) run.1 run.2 ∧
      run.2.staleCalls = [] ∧ ¬ ReportsSilence (fun _ => ⟨"0.0"⟩) 5000000 run.1 := by
  refine ⟨Run.executed execute_neverAnswered, by decide, fun hreports => ?_⟩
  have hlast := hreports.getLast (by decide) _ _ _ _ rfl rfl ⟨⟨_, rfl, by decide⟩, by rintro t ⟨⟩⟩
  exact absurd (congrArg List.length hlast) (by decide)

theorem reportsSilence_neverAnswered :
    let run := executed (step fun _ => ⟨"0.0"⟩) (Ingestor.collectorHeartbeat 1) neverAnswered
      execute_neverAnswered
    ReportsSilence (fun _ => ⟨"0.0"⟩) 5000000 run.1 ↔ HasAnswered 5000000 run.1 :=
  reportsSilence_iff (Run.executed execute_neverAnswered)

end KepServerLogger.Lib.HeartbeatRun
