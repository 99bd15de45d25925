import KepServerLogger.Proofs.Staleness

/-!
# False alarms

The limit is five polling intervals and a beat comes every five seconds. The
check stands behind a send and before its echo, so what it measures from is
the echo of the beat before: the sleep, and what the two sends took. With an
interval of two seconds that is well below the limit. With one of one second
the sleep alone takes all of it, and the check alarms unless the last echo
came late enough after its send to make up for this one.
-/

namespace KepServerLogger.Lib.HeartbeatRun

open KepServerLogger.Py

variable {millis : Int → PyFloat} {p : Int} {s s' : HeartbeatRun} {e : Event}
  {tr past : List (HeartbeatRun × Event)} {x : HeartbeatRun × Event} {b t u now : Utc}

def seconds (n : Int) : Int := n * 1000000

def beatAt : HeartbeatRun × Event → Option Utc
  | (_, .beat _ now) => some now
  | _ => none

/-- When a send was over. -/
def sentAt : HeartbeatRun × Event → Option Utc
  | (_, .sent _ now _) => some now
  | _ => none

def takenAt : HeartbeatRun × Event → Option Utc
  | (_, .started now) => some now
  | (_, .beat _ now) => some now
  | (_, .sent _ now _) => some now
  | (_, .notified _ now _) => some now
  | (_, .cancel) => none

/-- When the send began that this ends. -/
def beganAt : HeartbeatRun × Event → Option Utc
  | (s, .sent _ _ _) =>
      match s.phase with
      | .sending since => some since
      | _ => none
  | _ => none

/-- When the sleep began that this ends. -/
def sleptAt : HeartbeatRun × Event → Option Utc
  | (s, .beat _ _) =>
      match s.phase with
      | .sleeping since => some since
      | _ => none
  | _ => none

/-- When this value came back. -/
def echoedAt (val : Int) : HeartbeatRun × Event → Option Utc
  | (_, .notified val' now _) => if val' = val then some now else none
  | _ => none

/-- What has happened since the last beat began. -/
def sinceBeat (past : List (HeartbeatRun × Event)) : List (HeartbeatRun × Event) :=
  (past.reverse.takeWhile fun x => (beatAt x).isNone).reverse

/-- The clock never goes back, a send takes a second at most, the task sleeps
for the interval, and before the next beat the echo of a beat is there, in
time. -/
structure Healthy (p : Int) (tr : List (HeartbeatRun × Event)) : Prop where
  clock : (tr.filterMap takenAt).Pairwise fun u v => 0 ≤ v.since u
  sends : ∀ x ∈ tr, ∀ began ∈ beganAt x, ∀ now ∈ sentAt x, now.since began ≤ seconds 1
  sleeps : ∀ x ∈ tr, ∀ sent ∈ sleptAt x, ∀ now ∈ beatAt x,
    now.since sent = seconds heartbeatIntervalSeconds
  echoes : EachWithPast (fun past x => (beatAt x).isSome = true →
    ∀ b ∈ lastValue beatAt past, ∃ y ∈ sinceBeat past,
      ∃ t ∈ echoedAt x.1.handler.heartbeat y, t.since b ≤ seconds (p * 2)) tr

/-- Where the interval is one second, the send takes no longer than the last
notification came after the end of the send before. At the first check what
was received last is not older than the limit. -/
def InTime (p : Int) : List (HeartbeatRun × Event) → Prop :=
  EachWithPast fun past x => ∀ began ∈ beganAt x, ∀ now ∈ sentAt x,
    ∀ t ∈ lastValue receivedAt past,
      match lastValue sentAt past with
      | none => now.since t ≤ seconds (p * 5)
      | some sent => 2 ≤ p ∨ now.since began ≤ t.since sent

/-! ## The clock and the echo -/

theorem Healthy.of_append {l : List (HeartbeatRun × Event)} (h : Healthy p (past ++ l)) :
    Healthy p past := by
  refine ⟨?_, ?_, ?_, ?_⟩
  · have hclock := h.clock
    rw [List.filterMap_append] at hclock
    exact (List.pairwise_append.mp hclock).1
  · exact fun x hx => h.sends x (List.mem_append_left _ hx)
  · exact fun x hx => h.sleeps x (List.mem_append_left _ hx)
  · intro before x rest heq
    refine h.echoes before x (rest ++ l) ?_
    rw [heq, List.append_assoc, List.cons_append]

/-- What was taken earlier has an earlier instant. -/
theorem Healthy.since_nonneg (h : Healthy p (past ++ [x])) (hx : takenAt x = some t)
    {y : HeartbeatRun × Event} (hy : y ∈ past) (hu : takenAt y = some u) : 0 ≤ t.since u := by
  have hclock := h.clock
  rw [List.filterMap_append] at hclock
  exact (List.pairwise_append.mp hclock).2.2 u (List.mem_filterMap.mpr ⟨y, hy, hu⟩) t
    (List.mem_filterMap.mpr ⟨x, List.mem_singleton_self x, hx⟩)

theorem takenAt_of_receivedAt (h : receivedAt x = some t) : takenAt x = some t := by
  obtain ⟨s, e⟩ := x
  cases e <;> first | exact h | cases h

theorem takenAt_of_beatAt (h : beatAt x = some t) : takenAt x = some t := by
  obtain ⟨s, e⟩ := x
  cases e <;> first | exact h | cases h

theorem receivedAt_of_echoedAt {val : Int} (h : echoedAt val x = some t) :
    receivedAt x = some t := by
  obtain ⟨s, e⟩ := x
  cases e with
  | notified val' now monotonic =>
      dsimp only [echoedAt] at h
      split at h
      · exact h
      · cases h
  | _ => cases h

theorem beganAt_sent {outcome report : Except Exc Unit} (h : s.phase = .sending b) :
    beganAt (s, .sent outcome now report) = some b := by
  dsimp only [beganAt]
  rw [h]

theorem sleptAt_beat {monotonic : Int} (h : s.phase = .sleeping b) :
    sleptAt (s, .beat monotonic now) = some b := by
  dsimp only [sleptAt]
  rw [h]

theorem sinceBeat_snoc (past : List (HeartbeatRun × Event)) (x : HeartbeatRun × Event) :
    sinceBeat (past ++ [x]) = if (beatAt x).isNone then sinceBeat past ++ [x] else [] :=
  reverse_takeWhile_snoc _ past x

/-- Once something has come since the beat, what was received last is not
earlier than the beat. -/
theorem Healthy.received_since (h : Healthy p past) (hb : lastValue beatAt past = some b)
    {y : HeartbeatRun × Event} (hy : y ∈ sinceBeat past) (hreceived : receivedAt y = some u) :
    ∃ t, lastValue receivedAt past = some t ∧ 0 ≤ t.since b := by
  induction past using List.reverseRecOn with
  | nil => cases hb
  | append_singleton past x ih =>
      rw [sinceBeat_snoc] at hy
      split at hy
      · next hnone =>
          rw [lastValue_snoc, Option.isNone_iff_eq_none.mp hnone, Option.none_or] at hb
          cases hx : receivedAt x with
          | some t =>
              refine ⟨t, by rw [lastValue_snoc, hx, Option.some_or], ?_⟩
              obtain ⟨z, hz, hbeat⟩ := mem_of_lastValue hb
              exact h.since_nonneg (takenAt_of_receivedAt hx) hz (takenAt_of_beatAt hbeat)
          | none =>
              rw [lastValue_snoc, hx, Option.none_or]
              rcases List.mem_append.mp hy with hy | hy
              · exact ih h.of_append hb hy
              · rw [List.mem_singleton.mp hy, hx] at hreceived
                cases hreceived
      · cases hy

/-! ## Where a check stands -/

/-- The send before ended where the task went to sleep for the interval, and
something was received since that send began. -/
structure Echoed (past : List (HeartbeatRun × Event)) (began sent t : Utc) : Prop where
  ended : lastValue sentAt past = some sent
  slept : began.since sent = seconds heartbeatIntervalSeconds
  received : lastValue receivedAt past = some t
  fresh : sent.since t ≤ seconds 1

structure Timed (past : List (HeartbeatRun × Event)) (s : HeartbeatRun) : Prop where
  waiting : s.phase = .starting ∨ s.phase = .created → lastValue sentAt past = none
  sending : ∀ began, s.phase = .sending began → lastValue beatAt past = some began ∧
    (lastValue sentAt past = none ∨ ∃ sent t, Echoed past began sent t)
  sleeping : ∀ sent, s.phase = .sleeping sent → lastValue sentAt past = some sent ∧
    ∃ b, lastValue beatAt past = some b ∧ sent.since b ≤ seconds 1

/-- A beat after a sleep: the echo of the beat before has come. -/
theorem Timed.echoed (h : Timed past s) {monotonic : Int} {sent : Utc}
    (hhealthy : Healthy p (past ++ [(s, .beat monotonic now)]))
    (hsleeping : s.phase = .sleeping sent) :
    ∃ t, Echoed (past ++ [(s, .beat monotonic now)]) now sent t := by
  obtain ⟨hsent, b, hb, hshort⟩ := h.sleeping sent hsleeping
  obtain ⟨y, hy, u, hecho, -⟩ := hhealthy.echoes past _ [] rfl rfl b hb
  obtain ⟨t, ht, hlater⟩ :=
    hhealthy.of_append.received_since hb hy (receivedAt_of_echoedAt hecho)
  have hslept := hhealthy.sleeps _ (List.mem_append_right _ (List.mem_singleton_self _)) sent
    (sleptAt_beat hsleeping) now rfl
  refine ⟨t, (lastValue_snoc_of_none rfl).trans hsent, hslept, (lastValue_snoc_of_none rfl).trans ht, ?_⟩
  unfold Utc.since at hshort hlater ⊢
  omega

/-- What is received later is fresher. -/
theorem Echoed.notified {began sent : Utc} (h : Echoed past began sent t) {val monotonic : Int}
    (hhealthy : Healthy p (past ++ [(s, .notified val now monotonic)])) :
    Echoed (past ++ [(s, .notified val now monotonic)]) began sent now := by
  obtain ⟨y, hy, hyt⟩ := mem_of_lastValue h.received
  have hlater : 0 ≤ now.since t := hhealthy.since_nonneg rfl hy (takenAt_of_receivedAt hyt)
  have hfresh := h.fresh
  refine ⟨(lastValue_snoc_of_none rfl).trans h.ended, h.slept, by rw [lastValue_snoc]; rfl, ?_⟩
  unfold Utc.since at hlater hfresh ⊢
  omega

/-- Where the check leaves the task, it neither waits to run nor sends. -/
theorem phase_after_check (s : HeartbeatRun) (now : Utc) (report : Except Exc Unit) :
    ¬ ((s.check now report).phase = .starting ∨ (s.check now report).phase = .created) ∧
      (∀ b, (s.check now report).phase ≠ .sending b) ∧
      ∀ b, (s.check now report).phase = .sleeping b → b = now := by
  rcases phase_check s now report with hphase | ⟨-, exc, -, hphase⟩
  · rw [hphase]
    refine ⟨?_, nofun, ?_⟩
    · rintro (h | h) <;> cases h
    · rintro b ⟨⟩
      rfl
  · rw [hphase]
    refine ⟨?_, nofun, nofun⟩
    rintro (h | h) <;> cases h

theorem Timed.step (h : Timed past s) (hhealthy : Healthy p (past ++ [(s, e)]))
    (hs : step millis s e = some s') : Timed (past ++ [(s, e)]) s' := by
  cases step_cases hs with
  | started now hphase =>
      refine ⟨fun _ => ?_, fun began hbegan => (by cases hbegan), fun sent hsent => (by cases hsent)⟩
      exact (lastValue_snoc_of_none rfl).trans (h.waiting (.inl hphase))
  | beat monotonic now hphase =>
      refine ⟨fun hwaiting => ?_, fun began hbegan => ?_, fun sent hsent => (by cases hsent)⟩
      · rcases hwaiting with hwaiting | hwaiting <;> cases hwaiting
      · cases hbegan
        refine ⟨by rw [lastValue_snoc]; rfl, ?_⟩
        rcases hphase with hcreated | ⟨sent, hsleeping⟩
        · exact .inl ((lastValue_snoc_of_none rfl).trans (h.waiting (.inr hcreated)))
        · exact .inr ⟨sent, h.echoed hhealthy hsleeping⟩
  | sent outcome now began report hphase =>
      have hshort := hhealthy.sends _ (List.mem_append_right _ (List.mem_singleton_self _)) began
        (beganAt_sent hphase) now rfl
      obtain ⟨hwaiting, hsending, hsleeping⟩ := phase_after_check s now report
      refine ⟨fun h => absurd h hwaiting, fun began h => absurd h (hsending began), ?_⟩
      intro sent hsent
      obtain rfl := hsleeping sent hsent
      refine ⟨by rw [lastValue_snoc]; rfl, began, ?_, hshort⟩
      exact (lastValue_snoc_of_none rfl).trans (h.sending began hphase).1
  | cancel hphase =>
      refine ⟨?_, fun began hbegan => (by cases hbegan), fun sent hsent => (by cases hsent)⟩
      rintro (hwaiting | hwaiting) <;> cases hwaiting
  | notified val now monotonic =>
      refine ⟨fun hwaiting => (lastValue_snoc_of_none rfl).trans (h.waiting hwaiting),
        fun began hbegan => ?_, fun sent hsent => ?_⟩
      · obtain ⟨hb, hsent⟩ := h.sending began hbegan
        refine ⟨(lastValue_snoc_of_none rfl).trans hb, ?_⟩
        rcases hsent with hnone | ⟨sent, t, hechoed⟩
        · exact .inl ((lastValue_snoc_of_none rfl).trans hnone)
        · exact .inr ⟨sent, now, hechoed.notified hhealthy⟩
      · obtain ⟨hsent, b, hb, hshort⟩ := h.sleeping sent hsent
        exact ⟨(lastValue_snoc_of_none rfl).trans hsent, b, (lastValue_snoc_of_none rfl).trans hb, hshort⟩

theorem timed (h : Run (step millis) (Ingestor.collectorHeartbeat p) tr s)
    (hhealthy : Healthy p tr) : Timed tr s := by
  induction h with
  | nil =>
      exact ⟨fun _ => rfl, fun began hbegan => (by cases hbegan),
        fun sent hsent => (by cases hsent)⟩
  | snoc _ hs ih => exact (ih hhealthy.of_append).step hhealthy hs

/-! ## The alarm -/

theorem staleCalls_eq_nil_iff {s₀ : HeartbeatRun} (h : Run (step millis) s₀ tr s)
    (h₀ : s₀.staleCalls = []) :
    s.staleCalls = [] ↔ ∀ q outcome now report, (q, Event.sent outcome now report) ∈ tr →
      ¬ q.callsOnStale now = true := by
  induction h with
  | nil =>
      constructor
      · rintro - q outcome now report ⟨⟩
      · exact fun _ => h₀
  | @snoc tr s s' e h hs ih =>
      have hother : s'.staleCalls = s.staleCalls →
          (∀ outcome now report, e = .sent outcome now report → ¬ s.callsOnStale now = true) →
          (s'.staleCalls = [] ↔ ∀ q outcome now report,
            (q, Event.sent outcome now report) ∈ tr ++ [(s, e)] →
              ¬ q.callsOnStale now = true) := by
        intro hsame hquiet
        rw [hsame, ih]
        constructor
        · intro hall q outcome now report hmem
          rcases List.mem_append.mp hmem with hmem | hmem
          · exact hall q outcome now report hmem
          · obtain ⟨rfl, hsent⟩ := Prod.mk.inj (List.mem_singleton.mp hmem)
            exact hquiet outcome now report hsent.symm
        · exact fun hall q outcome now report hmem =>
            hall q outcome now report (List.mem_append_left _ hmem)
      cases step_cases hs with
      | started now hphase => exact hother rfl (by rintro _ _ _ ⟨⟩)
      | beat monotonic now hphase => exact hother rfl (by rintro _ _ _ ⟨⟩)
      | cancel hphase => exact hother rfl (by rintro _ _ _ ⟨⟩)
      | notified val now monotonic => exact hother rfl (by rintro _ _ _ ⟨⟩)
      | sent outcome now since report hphase =>
          by_cases hcalls : s.callsOnStale now = true
          · rw [callsOnStale_check, if_pos hcalls]
            constructor
            · intro hnil
              exact absurd hnil (List.append_ne_nil_of_right_ne_nil _ (List.cons_ne_nil _ _))
            · intro hall
              exact absurd hcalls (hall s outcome now report
                (List.mem_append_right _ (List.mem_singleton_self _)))
          · refine hother ?_ ?_
            · rw [callsOnStale_check, if_neg hcalls]
            · rintro _ _ _ ⟨⟩
              exact hcalls

/-- Whether one check alarms. -/
theorem callsOnStale_iff_late (hp : 1 ≤ p) (htimed : Timed past s)
    (hfollows : Follows (p * 5 * 1000000) true past s) {began : Utc}
    (hphase : s.phase = .sending began) (hshort : now.since began ≤ seconds 1) :
    (¬ s.callsOnStale now = true) ↔ ∀ t, lastValue receivedAt past = some t →
      match lastValue sentAt past with
      | none => now.since t ≤ seconds (p * 5)
      | some sent => 2 ≤ p ∨ now.since began ≤ t.since sent := by
  have hcalls : (¬ s.callsOnStale now = true) ↔ ∀ t, lastValue receivedAt past = some t →
      now.since t ≤ seconds (p * 5) := by
    rw [hfollows.callsOnStale_iff, not_exists]
    exact forall_congr' fun t => by rw [not_and, not_lt]; rfl
  rw [hcalls]
  refine forall_congr' fun t => imp_congr_right fun ht => ?_
  rcases (htimed.sending began hphase).2 with hnone | ⟨sent, t', hechoed⟩
  · rw [hnone]
  · obtain rfl : t' = t := Option.some.inj (hechoed.received.symm.trans ht)
    have hslept := hechoed.slept
    have hfresh := hechoed.fresh
    rw [hechoed.ended]
    unfold Utc.since seconds at *
    unfold heartbeatIntervalSeconds at hslept
    dsimp only
    omega

theorem phase_of_beganAt {outcome report : Except Exc Unit}
    (h : b ∈ beganAt (s, .sent outcome now report)) : s.phase = .sending b := by
  dsimp only [beganAt] at h
  split at h
  · next hphase =>
      cases h
      exact hphase
  · cases h

/-- A healthy heartbeat raises no false alarm exactly if its sends are in time,
which with an interval of two seconds or more they are after the first. -/
theorem noFalseAlarm_iff (hp : 1 ≤ p)
    (h : Run (step millis) (Ingestor.collectorHeartbeat p) tr s) (hhealthy : Healthy p tr) :
    s.staleCalls = [] ↔ InTime p tr := by
  rw [staleCalls_eq_nil_iff h rfl]
  have hcheck : ∀ past q outcome now report rest began,
      tr = past ++ (q, .sent outcome now report) :: rest → q.phase = .sending began →
      ((¬ q.callsOnStale now = true) ↔ ∀ t, lastValue receivedAt past = some t →
        match lastValue sentAt past with
        | none => now.since t ≤ seconds (p * 5)
        | some sent => 2 ≤ p ∨ now.since began ≤ t.since sent) := by
    intro past q outcome now report rest began heq hphase
    rw [heq] at h hhealthy
    obtain ⟨q', hrun, -, -⟩ := h.split
    have hshort := hhealthy.sends _ (List.mem_append_right _ List.mem_cons_self) began
      (beganAt_sent hphase) now rfl
    exact callsOnStale_iff_late hp (timed hrun hhealthy.of_append) (follows hrun) hphase hshort
  constructor
  · intro hquiet past x rest heq began hbegan now hnow t ht
    obtain ⟨q, e⟩ := x
    cases e with
    | sent outcome now' report =>
        cases hnow
        refine (hcheck past q outcome now report rest began heq (phase_of_beganAt hbegan)).mp ?_ t ht
        refine hquiet q outcome now report ?_
        rw [heq]
        exact List.mem_append_right _ List.mem_cons_self
    | _ => cases hnow
  · intro hintime q outcome now report hmem
    obtain ⟨past, rest, heq⟩ := List.append_of_mem hmem
    have hrun := h
    rw [heq] at hrun
    obtain ⟨q', -, hs, -⟩ := hrun.split
    cases step_cases hs with
    | sent _ _ began _ hphase =>
        refine (hcheck past q outcome now report rest began heq hphase).mpr fun t ht => ?_
        exact hintime past _ rest heq began (beganAt_sent hphase) now rfl t ht

/-- The first beat is echoed before its send is over, the second just after. -/
def slowSecondSend : List Event :=
  [.started (atNoon 0),
    .beat 1000 (atNoon 0),
    .notified 1 (atNoon 100) 1100,
    .sent (.ok ()) (atNoon 500) (.ok ()),
    .beat 6500 (atNoon 5500),
    .sent (.ok ()) (atNoon 6000) (.ok ()),
    .notified 2 (atNoon 6100) 7100]

theorem execute_slowSecondSend :
    (execute (step fun _ => ⟨"0.0"⟩) (Ingestor.collectorHeartbeat 1) slowSecondSend).isSome =
      true := by
  decide

theorem healthy_slowSecondSend :
    Healthy 1 (executed (step fun _ => ⟨"0.0"⟩) (Ingestor.collectorHeartbeat 1) slowSecondSend
      execute_slowSecondSend).1 :=
  ⟨by decide, by decide, by decide, by decide⟩

/-- The heartbeat is healthy, and the second check alarms. -/
theorem slowSecondSend_alarms :
    let run := executed (step fun _ => ⟨"0.0"⟩) (Ingestor.collectorHeartbeat 1) slowSecondSend
      execute_slowSecondSend
    Run (step fun _ => ⟨"0.0"⟩) (Ingestor.collectorHeartbeat 1) run.1 run.2 ∧
      Healthy 1 run.1 ∧
      run.2.staleCalls = [atNoon 6000] :=
  ⟨Run.executed execute_slowSecondSend, healthy_slowSecondSend, by decide⟩

theorem noFalseAlarm_slowSecondSend :
    let run := executed (step fun _ => ⟨"0.0"⟩) (Ingestor.collectorHeartbeat 1) slowSecondSend
      execute_slowSecondSend
    run.2.staleCalls = [] ↔ InTime 1 run.1 :=
  noFalseAlarm_iff (by decide) (Run.executed execute_slowSecondSend) healthy_slowSecondSend

end KepServerLogger.Lib.HeartbeatRun
