import KepServerLogger.Proofs.Pipeline
import KepServerLogger.System.Schedule

/-!
# Two writes never collapse into one

The subscription of a metric is adapted to how often the extractor publishes:
it samples at least twice per polling interval and keeps ten values. With one
task per metric in a cycle, and writes that take effect soon enough, that is
sufficient. While the ingestor is subscribed every value that is written is
sampled before the next, and no sampling finds the queue full.

The extractor's side of it is that two requests are a whole sleep apart,
whichever way the cycle or the session of the first one has ended. The rest is
`TimedNode`, which the schedule is a refinement of.
-/

namespace KepServerLogger.System

open KepServerLogger.Py KepServerLogger.Lib KepServerLogger.Ingestor

namespace Schedule

variable {d : Deployment} {c : Punctuality} {s s' : Schedule} {e : Event}

/-- How long the extractor is known to sleep between two requests. -/
def rest (d : Deployment) (c : Punctuality) : Nat :=
  min d.polling (1000 * reconnectDelaySeconds) - c.resolution

/-- What the schedule is to the node. -/
def intervals (d : Deployment) (c : Punctuality) : Intervals :=
  ⟨d.sampling + c.lateness, d.sending + c.lateness, rest d c - c.latency⟩

def timed (s : Schedule) : TimedNode DataValue :=
  ⟨s.pipeline.node, s.now, s.writtenAt, s.sampledAt, s.sentAt⟩

def timedEvent (d : Deployment) : Schedule × Event → Option (TimedNode.Event DataValue)
  | (_, .elapse ms) => some (.elapse ms)
  | (s, .execute) =>
      match s.requests.head?.map fun r => d.publishMetric r.2 with
      | some (.ok (some value)) => some (.write (.good value))
      | _ => none
  | (_, .other e) =>
      match e with
      | .subscribe _ => some .subscribe
      | .sample => some .sample
      | .send => some .send
      | .notify _ => some .receive
      | .disconnect => some .unsubscribe
      | _ => none
  | _ => none

/-! ## Requests are a sleep apart -/

/-- When the metric was asked for last, as far as the extractor has come
since. -/
def Waited (d : Deployment) (c : Punctuality) (now t : Nat) : Cycle → Prop
  | .connecting => t + rest d c ≤ now
  | .publishing 0 => t ≤ now
  | .publishing (_ + 1) => t + rest d c ≤ now
  | .resting since | .sleeping since => t ≤ since ∧ since ≤ now

structure Spaced (d : Deployment) (c : Punctuality) (s : Schedule) : Prop where
  waited : ∀ t ∈ s.requestedAt, t ≤ s.now ∧ Waited d c s.now t s.cycle
  /-- One task at most has not asked for its write. -/
  single : ∀ left, s.cycle = .publishing left → left ≤ 1
  /-- One write at most is under way. -/
  requests : s.requests = [] ∨ ∃ t models, s.requests = [(t, models)] ∧ s.requestedAt = some t
  pending : ∀ r ∈ s.requests, s.now ≤ r.1 + c.latency
  writes : ∀ r ∈ s.requests, ∃ value, d.publishMetric r.2 = .ok (some value)
  /-- A write that took effect was asked for, at the last request unless one is
  under way. -/
  written : ∀ w ∈ s.writtenAt, w ≤ s.now ∧
    ∃ t ∈ s.requestedAt, w ≤ t + c.latency ∧ (s.requests ≠ [] → w + rest d c ≤ t + c.latency)

theorem Spaced.start (d : Deployment) (c : Punctuality) (left : DataValue) :
    Spaced d c (start left) where
  waited t ht := absurd ht (Option.not_mem_none t)
  single left h := by cases h
  requests := .inl rfl
  pending r hr := absurd hr List.not_mem_nil
  writes r hr := absurd hr List.not_mem_nil
  written w hw := absurd hw (Option.not_mem_none w)

theorem Waited.later {now ms t : Nat} {cycle : Cycle} (h : Waited d c now t cycle) :
    Waited d c (now + ms) t cycle := by
  cases cycle with
  | connecting => exact Nat.le_add_right_of_le h
  | publishing left => cases left <;> exact Nat.le_add_right_of_le h
  | resting since | sleeping since => exact ⟨h.1, Nat.le_add_right_of_le h.2⟩

/-- The cycle goes on, and the writes are left alone. -/
theorem Spaced.cycle (h : Spaced d c s) {cycle : Cycle}
    (hwaited : ∀ t, t ≤ s.now → Waited d c s.now t s.cycle → Waited d c s.now t cycle)
    (hsingle : ∀ left, cycle = .publishing left → left ≤ 1) : Spaced d c { s with cycle } :=
  { h with
    waited := fun t ht => ⟨(h.waited t ht).1, hwaited t (h.waited t ht).1 (h.waited t ht).2⟩
    single := hsingle }

theorem Spaced.request (h : Spaced d c s) {left : Nat} {models : List OPCUAModel}
    {value : PyValue} (hrest : c.latency < rest d c) (hcycle : s.cycle = .publishing (left + 1))
    (hvalue : d.publishMetric models = .ok (some value)) :
    Spaced d c { s with
      cycle := .publishing left
      requests := s.requests ++ [(s.now, models)]
      requestedAt := some s.now } := by
  have hwaited : ∀ t ∈ s.requestedAt, t + rest d c ≤ s.now := by
    intro t ht
    have hwait := (h.waited t ht).2
    rw [hcycle] at hwait
    exact hwait
  obtain rfl : left = 0 := by
    have hle := h.single _ hcycle
    omega
  -- The write before is over by now.
  have hnone : s.requests = [] := by
    rcases h.requests with hnil | ⟨t, models, hone, ht⟩
    · exact hnil
    · have hpending := h.pending (t, models) (hone ▸ List.mem_singleton_self _)
      have hwait := hwaited t ht
      omega
  rw [hnone, List.nil_append]
  refine ⟨?_, ?_, .inr ⟨s.now, models, rfl, rfl⟩, ?_, ?_, ?_⟩
  · rintro t ⟨⟩
    exact ⟨Nat.le_refl _, Nat.le_refl _⟩
  · rintro left ⟨⟩
    exact Nat.zero_le _
  · intro r hr
    obtain rfl := List.mem_singleton.mp hr
    exact Nat.le_add_right _ _
  · intro r hr
    obtain rfl := List.mem_singleton.mp hr
    exact ⟨value, hvalue⟩
  · intro w hw
    obtain ⟨hnow, t, ht, hle, -⟩ := h.written w hw
    have hwait := hwaited t ht
    refine ⟨hnow, s.now, rfl, ?_, fun _ => ?_⟩
    · show w ≤ s.now + c.latency
      omega
    · show w + rest d c ≤ s.now + c.latency
      omega

theorem Spaced.execute (h : Spaced d c s) {r : Nat × List OPCUAModel}
    {requests : List (Nat × List OPCUAModel)} (hrequests : s.requests = r :: requests)
    (pipeline : Pipeline) :
    Spaced d c { s with pipeline, requests, writtenAt := some s.now } := by
  rcases h.requests with hnil | ⟨t, models, hone, ht⟩
  · rw [hnil] at hrequests
    cases hrequests
  · rw [hone] at hrequests
    cases hrequests
    have hpending := h.pending (t, models) (hone ▸ List.mem_singleton_self _)
    refine ⟨h.waited, h.single, .inl rfl, nofun, nofun, ?_⟩
    rintro w ⟨⟩
    exact ⟨Nat.le_refl _, t, ht, hpending, fun hne => absurd rfl hne⟩

theorem Spaced.lose (h : Spaced d c s) {r : Nat × List OPCUAModel}
    {requests : List (Nat × List OPCUAModel)} (hrequests : s.requests = r :: requests) :
    Spaced d c { s with requests } := by
  rcases h.requests with hnil | ⟨t, models, hone, ht⟩
  · rw [hnil] at hrequests
    cases hrequests
  · rw [hone] at hrequests
    cases hrequests
    refine ⟨h.waited, h.single, .inl rfl, nofun, nofun, fun w hw => ?_⟩
    obtain ⟨hnow, t', ht', hle, -⟩ := h.written w hw
    exact ⟨hnow, t', ht', hle, fun hne => absurd rfl hne⟩

theorem Spaced.step (h : Spaced d c s) (hrest : c.latency < rest d c)
    (hpunctual : punctual d c (s, e) = true) (hs : Schedule.step d c s e = some s') :
    Spaced d c s' := by
  have hbegin : ∀ left, Cycle.publishing d.tasksPerCycle = .publishing left → left ≤ 1 := by
    rintro left ⟨⟩
    exact d.once.le
  cases e with
  | elapse ms =>
      cases hs
      refine ⟨fun t ht => ?_, h.single, h.requests, (of_decide_eq_true hpunctual).1, h.writes,
        fun w hw => ?_⟩
      · exact ⟨Nat.le_add_right_of_le (h.waited t ht).1, (h.waited t ht).2.later⟩
      · exact ⟨Nat.le_add_right_of_le (h.written w hw).1, (h.written w hw).2⟩
  | beginCycle =>
      simp only [Schedule.step] at hs
      split at hs
      · next hcycle =>
          cases hs
          refine h.cycle (fun t ht hwait => ?_) hbegin
          rw [hcycle] at hwait
          cases htasks : d.tasksPerCycle with
          | zero => exact ht
          | succ left => exact hwait
      · next since hcycle =>
          split at hs
          · next hslept =>
              cases hs
              refine h.cycle (fun t ht hwait => ?_) hbegin
              rw [hcycle] at hwait
              cases htasks : d.tasksPerCycle with
              | zero => exact ht
              | succ left =>
                  show t + rest d c ≤ s.now
                  have hle : t ≤ since := hwait.1
                  unfold rest
                  omega
          · cases hs
      · cases hs
  | request models =>
      simp only [Schedule.step] at hs
      split at hs
      · next hcycle hvalue =>
          cases hs
          exact h.request hrest hcycle hvalue
      · cases hs
  | endCycle =>
      simp only [Schedule.step] at hs
      split at hs
      · cases hs
        exact h.cycle (fun t ht _ => ⟨ht, Nat.le_refl _⟩) nofun
      · cases hs
  | endSession =>
      simp only [Schedule.step] at hs
      split at hs
      · cases hs
      · cases hs
        exact h.cycle (fun t ht _ => ⟨ht, Nat.le_refl _⟩) nofun
  | wake =>
      simp only [Schedule.step] at hs
      split at hs
      · next since hcycle =>
          split at hs
          · next hslept =>
              cases hs
              refine h.cycle (fun t ht hwait => ?_) nofun
              rw [hcycle] at hwait
              show t + rest d c ≤ s.now
              have hle : t ≤ since := hwait.1
              unfold rest
              omega
          · cases hs
      · cases hs
  | execute =>
      simp only [Schedule.step] at hs
      split at hs
      · cases hs
      · next hrequests =>
          obtain ⟨pipeline, -, rfl⟩ := Option.map_eq_some_iff.mp hs
          exact h.execute hrequests pipeline
  | lose =>
      simp only [Schedule.step] at hs
      split at hs
      · cases hs
      · next hrequests =>
          cases hs
          exact h.lose hrequests
  | other e =>
      cases e with
      | publish models => cases hs
      | sample | send =>
          cases hs
          exact ⟨h.waited, h.single, h.requests, h.pending, h.writes, h.written⟩
      | connect | subscribe | notify | disconnect | task =>
          obtain ⟨pipeline, -, rfl⟩ := Option.map_eq_some_iff.mp hs
          exact ⟨h.waited, h.single, h.requests, h.pending, h.writes, h.written⟩

/-! ## The node in time -/

/-- A write that takes effect is far enough from the one before. -/
theorem Spaced.apart (h : Spaced d c s) {r : Nat × List OPCUAModel}
    {requests : List (Nat × List OPCUAModel)} (hrequests : s.requests = r :: requests) :
    ∀ w ∈ s.writtenAt, w + (intervals d c).spacing ≤ s.now := by
  intro w hw
  obtain ⟨hnow, t, ht, -, hle⟩ := h.written w hw
  have hne : s.requests ≠ [] := by simp [hrequests]
  have hapart := hle hne
  have hlast := (h.waited t ht).1
  show w + (rest d c - c.latency) ≤ s.now
  omega

theorem timed_step (h : Spaced d c s) (hpunctual : punctual d c (s, e) = true)
    (hs : Schedule.step d c s e = some s') :
    (timedEvent d (s, e)).elim (s'.timed = s.timed) fun e' =>
      TimedNode.step (intervals d c) d.queueSize s.timed e' = some s'.timed := by
  cases e with
  | elapse ms =>
      cases hs
      refine if_pos fun hitem => ?_
      have hserver := (of_decide_eq_true hpunctual).2 hitem
      simp only [timed, intervals]
      omega
  | beginCycle =>
      simp only [Schedule.step] at hs
      split at hs
      · cases hs
        rfl
      · split at hs
        · cases hs
          rfl
        · cases hs
      · cases hs
  | request models =>
      simp only [Schedule.step] at hs
      split at hs
      · cases hs
        rfl
      · cases hs
  | endCycle =>
      simp only [Schedule.step] at hs
      split at hs
      · cases hs
        rfl
      · cases hs
  | endSession =>
      simp only [Schedule.step] at hs
      split at hs
      · cases hs
      · cases hs
        rfl
  | wake =>
      simp only [Schedule.step] at hs
      split at hs
      · split at hs
        · cases hs
          rfl
        · cases hs
      · cases hs
  | execute =>
      simp only [Schedule.step] at hs
      split at hs
      · cases hs
      · next r requests hrequests =>
          obtain ⟨value, hvalue⟩ := h.writes r (hrequests ▸ List.mem_cons_self)
          obtain ⟨pipeline, hpipeline, rfl⟩ := Option.map_eq_some_iff.mp hs
          simp only [Pipeline.step, hvalue] at hpipeline
          cases hpipeline
          simp only [timedEvent, hrequests, List.head?_cons, Option.map_some, hvalue, Option.elim]
          exact if_pos (h.apart hrequests)
  | lose =>
      simp only [Schedule.step] at hs
      split at hs
      · cases hs
      · cases hs
        rfl
  | other e =>
      cases e with
      | publish models => cases hs
      | sample | send =>
          cases hs
          rfl
      | connect | subscribe | disconnect | task =>
          obtain ⟨pipeline, hpipeline, rfl⟩ := Option.map_eq_some_iff.mp hs
          cases Pipeline.step_cases hpipeline
          rfl
      | notify now =>
          obtain ⟨pipeline, hpipeline, rfl⟩ := Option.map_eq_some_iff.mp hs
          cases Pipeline.step_cases hpipeline with
          | notify hsession hreceive | unknown hsession hreceive =>
              exact Option.map_eq_some_iff.mpr ⟨_, hreceive, rfl⟩

/-! ## One subscription -/

/-- The value that `datachange_notification` is called with. -/
def received : Schedule × Event → List DataValue
  | (s, .other (.notify _)) => s.pipeline.node.receive?.elim [] fun p => [p.1]
  | _ => []

/-- The value that a write changes the node to. -/
def changed (d : Deployment) : Schedule × Event → List DataValue
  | (s, .execute) =>
      match s.requests.head?.map fun r => d.publishMetric r.2 with
      | some (.ok (some value)) =>
          if DataValue.good value = s.pipeline.node.value then [] else [.good value]
      | _ => []
  | _ => []

/-- The step neither begins nor ends a subscription of the ingestor. -/
def stays : Schedule × Event → Bool
  | (_, .other (.subscribe _)) | (_, .other .disconnect) => false
  | _ => true

theorem received_timed (p : Schedule × Event) :
    (timedEvent d p).elim [] (fun e => TimedNode.received (p.1.timed, e)) = received p := by
  obtain ⟨s, e⟩ := p
  cases e with
  | execute =>
      simp only [timedEvent]
      split <;> rfl
  | other e => cases e <;> rfl
  | elapse | beginCycle | request | endCycle | endSession | wake | lose => rfl

theorem changed_timed (p : Schedule × Event) :
    (timedEvent d p).elim [] (fun e => TimedNode.changed (p.1.timed, e)) = changed d p := by
  obtain ⟨s, e⟩ := p
  cases e with
  | execute =>
      simp only [timedEvent, changed]
      split
      · rfl
      · rfl
  | other e => cases e <;> rfl
  | elapse | beginCycle | request | endCycle | endSession | wake | lose => rfl

theorem stays_timed {p : Schedule × Event} (h : stays p = true) {e : TimedNode.Event DataValue}
    (he : timedEvent d p = some e) : TimedNode.Stays (p.1.timed, e) := by
  obtain ⟨s, e'⟩ := p
  cases e' with
  | execute =>
      simp only [timedEvent] at he
      split at he <;> cases he
      trivial
  | elapse =>
      cases he
      trivial
  | other e' =>
      cases e' with
      | subscribe | disconnect => cases h
      | sample | send | notify =>
          cases he
          trivial
      | publish | connect | task => cases he
  | beginCycle | request | endCycle | endSession | wake | lose => cases he

/-! ## The pipeline -/

/-- The batches whose writes take effect. -/
def published (p : Schedule × Event) : List Sample :=
  (pipelineEvent p).elim [] fun e => Pipeline.published (p.1.pipeline, e)

/-- Nothing goes lost on the ingestor's side, and while it is not subscribed
no value is written over that nobody was told of. -/
def keeps (d : Deployment) : Schedule × Event → Bool
  | (s, .execute) => s.pipeline.node.item.isSome || s.pipeline.node.told
  | (_, .other .sample) => true
  | (s, .other e) => Pipeline.keeps d (s.pipeline, e)
  | _ => true

section

variable {left : DataValue} {tr : List (Schedule × Event)}

/-- The intervals of the subscription are shorter than what lies between two
writes. -/
theorem intervals_lt (hpolling : 1 ≤ d.settings.polling_interval_seconds)
    (hlimit : c.resolution + c.latency + c.lateness < 500) :
    c.latency < rest d c ∧ (intervals d c).sampling < (intervals d c).spacing ∧
      (intervals d c).sending < (intervals d c).spacing ∧ 3 ≤ d.queueSize := by
  have hsampling : d.sampling =
      (max 100 (min 1000 (500 * d.settings.polling_interval_seconds))).toNat := rfl
  have hsending : d.sending = 500 := rfl
  have hsize : d.queueSize = 10 := rfl
  simp only [intervals, hsampling, hsending, hsize, rest, Deployment.polling, reconnectDelaySeconds]
  omega

theorem Run.timed (hrest : c.latency < rest d c)
    (h : Run (Schedule.step d c) (start left) tr s) (hpunctual : ∀ p ∈ tr, punctual d c p = true) :
    Run (TimedNode.step (intervals d c) d.queueSize) (.start left)
      (tr.filterMap fun p => (timedEvent d p).map fun e => (p.1.timed, e)) s.timed :=
  h.simulate_invariant Schedule.timed (timedEvent d) (.start d c left)
    (fun _ _ _ hspaced hp hs => hspaced.step hrest hp hs) (fun _ _ _ => timed_step) hpunctual

/-- With a punctual server the ingestor is notified in one subscription of the
value that the node had, then of every value that the extractor changes it to,
in that order: none is written over before it was sampled, and the server's
queue drops none. -/
theorem writes_delivered {t : Schedule} {now : Utc} {pre post : List (Schedule × Event)}
    (hpolling : 1 ≤ d.settings.polling_interval_seconds)
    (hlimit : c.resolution + c.latency + c.lateness < 500)
    (h : Run (Schedule.step d c) (start left) (pre ++ (t, .other (.subscribe now)) :: post) s)
    (hpunctual : ∀ p ∈ pre ++ (t, .other (.subscribe now)) :: post, punctual d c p = true)
    (hstays : ∀ p ∈ post, stays p = true) :
    post.flatMap received ++ s.pipeline.node.ahead =
      t.pipeline.node.value :: post.flatMap (changed d) := by
  obtain ⟨hrest, hsampling, hsending, hsize⟩ := intervals_lt hpolling hlimit
  have htimed := Run.timed hrest h hpunctual
  rw [List.filterMap_append, List.filterMap_cons] at htimed
  have hdelivered := TimedNode.Run.delivered htimed hsampling hsending hsize (by
    intro q hq
    obtain ⟨p, hp, hq⟩ := List.mem_filterMap.mp hq
    obtain ⟨e, he, rfl⟩ := Option.map_eq_some_iff.mp hq
    exact stays_timed (hstays p hp) he)
  rw [KepServerLogger.Run.flatMap_simulated received_timed,
    KepServerLogger.Run.flatMap_simulated changed_timed] at hdelivered
  exact hdelivered

end

/-! ## Two cycles -/

/-- A sample of each cycle; the second cycle begins a little early. -/
def twoCycles : List Event :=
  let now : Utc := ⟨Tasks.early⟩
  [.other .connect, .other (.subscribe now), .other .send, .other (.notify now), .beginCycle,
    .elapse 50, .request [Tasks.cpuAt Tasks.early], .elapse 80, .execute, .endCycle,
    .other .sample, .elapse 300, .other .send, .other (.notify now), .elapse 200, .other .sample,
    .elapse 250, .other .send, .elapse 240, .beginCycle, .request [Tasks.cpuAt Tasks.late],
    .execute, .endCycle, .other .sample, .other .send, .other (.notify now),
    .other (.task .flush), .other (.task .writeReturns), .other (.task .flushResumes)]

theorem execute_twoCycles :
    (execute (step Pipeline.cpuDeployment ⟨16, 100, 50⟩) (start (.good (.str ""))) twoCycles).isSome =
      true := by
  decide

def twoCyclesRun : List (Schedule × Event) × Schedule :=
  executed (step Pipeline.cpuDeployment ⟨16, 100, 50⟩) (start (.good (.str ""))) twoCycles
    execute_twoCycles

theorem writes_delivered_twoCycles :
    ∃ pre t post, twoCyclesRun.1 = pre ++ (t, .other (.subscribe ⟨Tasks.early⟩)) :: post ∧
      (post.flatMap received).length = 3 ∧
      post.flatMap received ++ twoCyclesRun.2.pipeline.node.ahead =
        t.pipeline.node.value :: post.flatMap (changed Pipeline.cpuDeployment) := by
  have hsplit : twoCyclesRun.1 = twoCyclesRun.1.take 1 ++
      ((twoCyclesRun.1.get ⟨1, by decide⟩).1, .other (.subscribe ⟨Tasks.early⟩)) ::
        twoCyclesRun.1.drop 2 := rfl
  have hrun := Run.executed execute_twoCycles
  refine ⟨_, _, _, hsplit, by decide, ?_⟩
  exact writes_delivered (by decide) (by decide) (hsplit ▸ hrun) (by decide) (by decide)

end Schedule

end KepServerLogger.System
