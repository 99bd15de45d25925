import KepServerLogger.Base.Past
import KepServerLogger.Proofs.IngestSteps
import KepServerLogger.Proofs.WireRoundTrip

/-!
# What the reconnect dedup discards

A metric that is not idempotent drops the first value of a session when its
newest timestamp is not later than the one the metric remembers, on the
ground that the server resends what is already stored. What the metric
remembers is the latest timestamp of everything it has decoded so far, in
whatever session and from whatever host. So the decision is right when the
value was decoded before, and right to keep the value when it is later than
everything; but a value that is neither new in time nor known — a clock that
was set back, another host, two samples within one second — is dropped as
well.

The proof follows the remembered timestamp along a run: at every call it is
the latest of the calls before.
-/

namespace KepServerLogger.Ingestor

open KepServerLogger.Py KepServerLogger.Lib

namespace Ingest

variable {env : Externals} {s : Ingest} {item : Item} {metric : Metric} {x : Sample}

/-! ## One call -/

theorem get?_of_sample? (h : item.sample? env = some (metric, x)) :
    item.kind = .metric ∧ metrics.get? item.key = some metric ∧
      metric.decode env item.dataValue = .ok x.models := by
  unfold Item.sample? at h
  cases hk : item.kind with
  | tag => rw [hk] at h; cases h
  | metric =>
      rw [hk] at h
      cases hm : metrics.get? item.key with
      | none => rw [hm] at h; cases h
      | some metric' =>
          rw [hm] at h
          simp only at h
          split at h
          · next m ms hd => cases h; exact ⟨rfl, rfl, hd⟩
          · cases h

theorem decodeNext_of_sample (h : item.sample? env = some (metric, x)) :
    s.decodeNext env item =
      if alreadyStored (decide (item.key ∈ s.awaitingFirst)) metric x.newest
          (s.lastTimestamp.get? item.key) then
        { s with awaitingFirst := s.awaitingFirst.erase item.key }
      else
        { s with
          awaitingFirst := s.awaitingFirst.erase item.key
          lastTimestamp := s.lastTimestamp.set item.key
            ((s.lastTimestamp.get? item.key).elim x.newest (max x.newest))
          pending := s.pending.extend metric.table_name (x.models.map (metricRow metric)) } := by
  obtain ⟨hk, hm, hd⟩ := get?_of_sample? h
  by_cases hold : alreadyStored (decide (item.key ∈ s.awaitingFirst)) metric x.newest
      (s.lastTimestamp.get? item.key) = true
  · have hadd := (addMetric_models (s := s) hm hd).trans (if_pos hold)
    rw [if_pos hold]
    simp only [decodeNext, decodeItem, hk, hadd]
  · have hadd := (addMetric_models (s := s) hm hd).trans (if_neg hold)
    rw [if_neg hold]
    simp only [decodeNext, decodeItem, hk, hadd]
    rfl

/-- An item without models leaves the memory of the metrics alone. -/
theorem decodeNext_of_no_sample (h : item.sample? env = none) :
    (s.decodeNext env item).awaitingFirst = s.awaitingFirst ∧
      (s.decodeNext env item).lastTimestamp = s.lastTimestamp := by
  unfold Item.sample? at h
  cases hk : item.kind with
  | tag =>
      simp only [decodeNext, decodeItem, addTag, hk]
      cases item.dataValue.value <;> exact ⟨rfl, rfl⟩
  | metric =>
      rw [hk] at h
      simp only [decodeNext, decodeItem, addMetric, hk]
      cases hm : metrics.get? item.key with
      | none => exact ⟨rfl, rfl⟩
      | some metric =>
          rw [hm] at h
          simp only at h ⊢
          cases hd : metric.decode env item.dataValue with
          | error e => exact ⟨rfl, rfl⟩
          | ok models =>
              cases models with
              | nil => exact ⟨rfl, rfl⟩
              | cons m ms => rw [hd] at h; cases h

/-- A call stores the rows of its models, or nothing. -/
theorem storedRows_of_sample (h : item.sample? env = some (metric, x)) :
    storedRows env (s, item) =
      if alreadyStored (decide (item.key ∈ s.awaitingFirst)) metric x.newest
          (s.lastTimestamp.get? item.key) then []
      else [(metric.table_name, x.models.map (metricRow metric))] := by
  rw [storedRows, decodeNext_of_sample h]
  by_cases hold : alreadyStored (decide (item.key ∈ s.awaitingFirst)) metric x.newest
      (s.lastTimestamp.get? item.key) = true
  · rw [if_pos hold, if_pos hold]
    rfl
  · rw [if_neg hold, if_neg hold]
    rfl

theorem decodeItems_cons (s : Ingest) (item : Item) (rest : List Item) :
    (decodeItems env s (item :: rest)).1 = (decodeItems env (s.decodeNext env item) rest).1 := by
  simp only [decodeItems, decodeNext]
  cases s.decodeItem env item <;> rfl

/-! ## What a metric remembers -/

/-- The newest timestamps a metric has decoded. -/
def newests (env : Externals) (name : String) (calls : List (Ingest × Item)) : List Utc :=
  calls.filterMap fun c =>
    if c.2.key = name then (c.2.sample? env).map (·.2.newest) else none

theorem newests_append (name : String) (calls calls' : List (Ingest × Item)) :
    newests env name (calls ++ calls') = newests env name calls ++ newests env name calls' :=
  List.filterMap_append

theorem newests_singleton_of_sample (h : item.sample? env = some (metric, x)) :
    newests env item.key [(s, item)] = [x.newest] := by
  simp [newests, h]

theorem newests_singleton_of_ne {name : String} (h : item.key ≠ name) :
    newests env name [(s, item)] = [] := by
  simp [newests, h]

theorem newests_singleton_of_no_sample (name : String) (h : item.sample? env = none) :
    newests env name [(s, item)] = [] := by
  simp [newests, h]

theorem mem_newests {name : String} {calls : List (Ingest × Item)} {t : Utc} :
    t ∈ newests env name calls ↔
      ∃ c ∈ calls, c.2.key = name ∧ ∃ y, c.2.sample? env = some y ∧ y.2.newest = t := by
  simp only [newests, List.mem_filterMap]
  constructor
  · rintro ⟨c, hc, h⟩
    split at h
    · next hk =>
        obtain ⟨y, hy, ht⟩ := Option.map_eq_some_iff.mp h
        exact ⟨c, hc, hk, y, hy, ht⟩
    · cases h
  · rintro ⟨c, hc, hk, y, hy, ht⟩
    exact ⟨c, hc, by rw [if_pos hk, hy, Option.map_some, ht]⟩

/-- What every metric remembers is the latest it has decoded. -/
def Remembers (env : Externals) (calls : List (Ingest × Item)) (s : Ingest) : Prop :=
  ∀ name, IsLatest (newests env name calls) (s.lastTimestamp.get? name)

theorem Remembers.decodeNext {calls : List (Ingest × Item)} (h : Remembers env calls s)
    (item : Item) : Remembers env (calls ++ [(s, item)]) (s.decodeNext env item) := by
  intro name
  rw [newests_append]
  cases hx : item.sample? env with
  | none =>
      rw [newests_singleton_of_no_sample name hx, List.append_nil,
        (decodeNext_of_no_sample hx).2]
      exact h name
  | some y =>
      obtain ⟨metric, x⟩ := y
      rw [decodeNext_of_sample hx]
      by_cases hkey : item.key = name
      · subst hkey
        rw [newests_singleton_of_sample hx]
        split
        · next hold =>
            -- Only a value that is not later than the remembered one is dropped.
            cases hlast : s.lastTimestamp.get? item.key with
            | none => rw [hlast] at hold; cases hold
            | some last =>
                rw [hlast] at hold
                simp only [alreadyStored, Bool.and_eq_true, decide_eq_true_eq] at hold
                have hlatest := h item.key
                rw [hlast] at hlatest
                exact hlatest.snoc_of_le hold.2
        · show IsLatest _ ((s.lastTimestamp.set item.key _).get? item.key)
          rw [Dict.get?_set, if_pos rfl]
          exact (h item.key).snoc x.newest
      · rw [newests_singleton_of_ne hkey, List.append_nil]
        split
        · exact h name
        · show IsLatest _ ((s.lastTimestamp.set item.key _).get? name)
          rw [Dict.get?_set, if_neg hkey]
          exact h name

theorem Remembers.decodeItems {calls : List (Ingest × Item)} (h : Remembers env calls s)
    (items : List Item) :
    EachWithPast (fun past c => Remembers env (calls ++ past) c.1) (s.decodeCalls env items) ∧
      Remembers env (calls ++ s.decodeCalls env items) (decodeItems env s items).1 := by
  induction items generalizing calls s with
  | nil =>
      refine ⟨.nil, ?_⟩
      simpa [decodeCalls, Ingest.decodeItems] using h
  | cons item rest ih =>
      obtain ⟨heach, hend⟩ := ih (h.decodeNext item)
      rw [decodeItems_cons]
      simp only [List.append_assoc, List.singleton_append] at heach hend
      refine ⟨.cons ?_ heach, hend⟩
      rw [List.append_nil]
      exact h

end Ingest

namespace Tasks

variable {env : Externals} {s s' : Tasks} {e : Event}

/-- Whatever is not a flush leaves the memory of the metrics alone. -/
theorem lastTimestamp_step (hs : step env s e = some s') (he : e ≠ .flush) :
    s'.ingest.lastTimestamp = s.ingest.lastTimestamp := by
  cases step_cases hs with
  | onMetric | onTag => exact (Ingest.put_frame _ _).2.1
  | flush => exact absurd rfl he
  | addModel | newSession | writeReturns | writeRaises | wrote | failed | cancelRunning
  | cancelReturned | cancelRaised | orphanReturns | orphanRaises => rfl

/-- What the metrics and the sessions remember after a flush is what decoding
left. -/
theorem flushStart_memory (env : Externals) (s : Ingest) :
    (s.flushStart env).1.lastTimestamp =
        (Ingest.decodeItems env { s with queue := ∅ } s.queue.items).1.lastTimestamp ∧
      (s.flushStart env).1.awaitingFirst =
        (Ingest.decodeItems env { s with queue := ∅ } s.queue.items).1.awaitingFirst := by
  simp only [Ingest.flushStart]
  split <;> exact ⟨rfl, rfl⟩

theorem Run.remembers {tr : List (Tasks × Event)} (h : Run (step env) start tr s) :
    EachWithPast (fun past c => Ingest.Remembers env past c.1) (tr.flatMap (calls env)) ∧
      Ingest.Remembers env (tr.flatMap (calls env)) s.ingest := by
  induction h with
  | nil => exact ⟨.nil, fun _ => rfl⟩
  | @snoc tr s s' e _ hs ih =>
      obtain ⟨heach, hend⟩ := ih
      rw [List.flatMap_append, List.flatMap_singleton]
      by_cases he : e = .flush
      · subst he
        cases step_cases hs
        have hstart : Ingest.Remembers env (tr.flatMap (calls env))
            { s.ingest with queue := ∅ } := hend
        obtain ⟨heach', hend'⟩ := hstart.decodeItems s.ingest.queue.items
        refine ⟨heach.append heach', fun name => ?_⟩
        show IsLatest _ ((s.ingest.flushStart env).1.lastTimestamp.get? name)
        rw [(flushStart_memory env s.ingest).1]
        exact hend' name
      · have hnone : calls env (s, e) = [] := by
          cases e with
          | flush => exact absurd rfl he
          | onMetric | onTag | addModel | newSession | writeReturns | writeRaises
          | flushResumes | cancelFlush | orphanReturns | orphanRaises => rfl
        rw [hnone, List.append_nil]
        refine ⟨heach, fun name => ?_⟩
        rw [lastTimestamp_step hs he]
        exact hend name

/-! ## When a discarded value was stored before -/

/-- A call that decodes to models and stores nothing finds an earlier call
that stored the rows of the same models. -/
def DiscardsStored (env : Externals) (past : List (Ingest × Item)) (c : Ingest × Item) : Prop :=
  ∀ metric x, c.2.sample? env = some (metric, x) → Ingest.storedRows env c = [] →
    ∃ c' ∈ past, c'.2.key = c.2.key ∧ c'.2.sample? env = some (metric, x) ∧
      Ingest.storedRows env c' =
        [(metric.table_name, x.models.map (Ingest.metricRow metric))]

/-- The first value of a session, of a metric that is not idempotent, was
decoded before or is later than every value decoded before. -/
def FirstIsKnownOrLater (env : Externals) (past : List (Ingest × Item))
    (c : Ingest × Item) : Prop :=
  ∀ metric x, c.2.sample? env = some (metric, x) → c.2.key ∈ c.1.awaitingFirst →
    metric.idempotent = false →
    (∃ c' ∈ past, c'.2.key = c.2.key ∧ c'.2.sample? env = some (metric, x)) ∨
      ∀ c' ∈ past, c'.2.key = c.2.key → ∀ y, c'.2.sample? env = some y →
        y.2.newest < x.newest

/-- What decides is whether something at least as late was decoded before. -/
theorem alreadyStored_iff {calls : List (Ingest × Item)} {t : Ingest} {name : String}
    {metric : Metric} {x : Sample} (h : Ingest.Remembers env calls t) :
    Ingest.alreadyStored (decide (name ∈ t.awaitingFirst)) metric x.newest
        (t.lastTimestamp.get? name) = true ↔
      name ∈ t.awaitingFirst ∧ metric.idempotent = false ∧
        ∃ c ∈ calls, c.2.key = name ∧ ∃ y, c.2.sample? env = some y ∧ x.newest ≤ y.2.newest := by
  have hlatest := h name
  cases hlast : t.lastTimestamp.get? name with
  | none =>
      rw [hlast] at hlatest
      simp only [Ingest.alreadyStored, Bool.false_eq_true, false_iff]
      rintro ⟨_, _, c, hc, hk, y, hy, _⟩
      have hmem : y.2.newest ∈ Ingest.newests env name calls :=
        Ingest.mem_newests.mpr ⟨c, hc, hk, y, hy, rfl⟩
      rw [show Ingest.newests env name calls = [] from hlatest] at hmem
      exact absurd hmem List.not_mem_nil
  | some last =>
      rw [hlast] at hlatest
      simp only [Ingest.alreadyStored, Bool.and_eq_true, decide_eq_true_eq, Bool.not_eq_true']
      constructor
      · rintro ⟨⟨hfirst, hidem⟩, hle⟩
        obtain ⟨c, hc, hk, y, hy, ht⟩ := Ingest.mem_newests.mp hlatest.1
        exact ⟨hfirst, hidem, c, hc, hk, y, hy, ht ▸ hle⟩
      · rintro ⟨hfirst, hidem, c, hc, hk, y, hy, hle⟩
        refine ⟨⟨hfirst, hidem⟩, hle.trans (hlatest.2 _ ?_)⟩
        exact Ingest.mem_newests.mpr ⟨c, hc, hk, y, hy, rfl⟩

/-- In every run: whatever the dedup discards was stored before, exactly if
the first value of every session was decoded before or is later than every
value of its metric decoded before. -/
theorem discards_stored_iff {tr : List (Tasks × Event)} (h : Run (step env) start tr s) :
    EachWithPast (DiscardsStored env) (tr.flatMap (calls env)) ↔
      EachWithPast (FirstIsKnownOrLater env) (tr.flatMap (calls env)) := by
  obtain ⟨hremembers, _⟩ := Run.remembers h
  generalize tr.flatMap (calls env) = history at hremembers
  constructor
  · intro hstored past c rest heq metric x hx hfirst hidem
    by_cases hold : Ingest.alreadyStored (decide (c.2.key ∈ c.1.awaitingFirst)) metric x.newest
        (c.1.lastTimestamp.get? c.2.key) = true
    · have hnil : Ingest.storedRows env c = [] := by
        rw [show c = (c.1, c.2) from rfl, Ingest.storedRows_of_sample hx, if_pos hold]
      obtain ⟨c', hc', hk, hx', _⟩ := hstored past c rest heq metric x hx hnil
      exact Or.inl ⟨c', hc', hk, hx'⟩
    · rw [alreadyStored_iff (hremembers past c rest heq)] at hold
      refine Or.inr fun c' hc' hk y hy => lt_of_not_ge fun hle => hold ?_
      exact ⟨hfirst, hidem, c', hc', hk, y, hy, hle⟩
  · intro hknown past
    -- A known value may itself have been discarded, but then for an earlier one.
    induction hn : past.length using Nat.strong_induction_on generalizing past with
    | _ n ih =>
        subst hn
        intro c rest heq metric x hx hnil
        have hold : Ingest.alreadyStored (decide (c.2.key ∈ c.1.awaitingFirst)) metric x.newest
            (c.1.lastTimestamp.get? c.2.key) = true := by
          by_contra hnot
          rw [show c = (c.1, c.2) from rfl, Ingest.storedRows_of_sample hx, if_neg hnot] at hnil
          cases hnil
        rw [alreadyStored_iff (hremembers past c rest heq)] at hold
        obtain ⟨hfirst, hidem, d, hd, hkd, y, hy, hle⟩ := hold
        rcases hknown past c rest heq metric x hx hfirst hidem with
          ⟨c', hc', hk', hx'⟩ | hlater
        · by_cases hnil' : Ingest.storedRows env c' = []
          · obtain ⟨before, after, hpast⟩ := List.append_of_mem hc'
            have hshort : before.length < past.length := by
              rw [hpast, List.length_append, List.length_cons]
              omega
            have hsplit : history = before ++ c' :: (after ++ c :: rest) := by
              rw [heq, hpast, List.append_assoc, List.cons_append]
            obtain ⟨c'', hc'', hk'', hx'', hrows⟩ :=
              ih before.length hshort before rfl c' _ hsplit metric x hx' hnil'
            refine ⟨c'', ?_, hk''.trans hk', hx'', hrows⟩
            rw [hpast]
            exact List.mem_append_left _ hc''
          · refine ⟨c', hc', hk', hx', ?_⟩
            rw [show c' = (c'.1, c'.2) from rfl, Ingest.storedRows_of_sample hx'] at hnil' ⊢
            split at hnil'
            · exact absurd rfl hnil'
            · next hnew => rw [if_neg hnew]
        · exact absurd hle (not_le_of_gt (hlater d hd hkd y hy))

/-! ## A clock that was set back -/

def cpuAt (now : Naive) : OPCUAModel := .cpuUsage ⟨⟨now⟩, ⟨"12.5"⟩⟩

/-- What the extractor writes to the node. -/
def cpuText (now : Naive) : String := (payload [cpuAt now]).dumps

def early : Naive := ⟨2026, 1, 1, 12, 0, 10, 0, by decide⟩

def late : Naive := ⟨2026, 1, 1, 12, 0, 30, 0, by decide⟩

def cpuTexts : Externals :=
  .ofTexts [(cpuText early, payload [cpuAt early]), (cpuText late, payload [cpuAt late])]

def cpuArrives (now : Naive) : Event :=
  .onMetric "cpu" (.good (.str (cpuText now))) ⟨now, some .utc⟩

/-- The second session meets a host whose clock is twenty seconds behind. -/
def clockSetBack : List Event :=
  [.newSession ["cpu"], cpuArrives late, .flush, .writeReturns, .flushResumes,
    .newSession ["cpu"], cpuArrives early, .flush]

theorem execute_clockSetBack : (execute (step cpuTexts) start clockSetBack).isSome = true := by
  decide

theorem clockSetBack_discards_new_sample :
    let run := executed (step cpuTexts) start clockSetBack execute_clockSetBack
    Run (step cpuTexts) start run.1 run.2 ∧
      ¬ EachWithPast (DiscardsStored cpuTexts) (run.1.flatMap (calls cpuTexts)) := by
  refine ⟨Run.executed execute_clockSetBack, fun h => ?_⟩
  obtain ⟨c, hc, _, hx, _⟩ := h.getLast (by decide) metricList[0] ⟨cpuAt early, []⟩ (by decide)
    (by decide)
  revert c
  decide

theorem discards_stored_iff_clockSetBack :
    let run := executed (step cpuTexts) start clockSetBack execute_clockSetBack
    EachWithPast (DiscardsStored cpuTexts) (run.1.flatMap (calls cpuTexts)) ↔
      EachWithPast (FirstIsKnownOrLater cpuTexts) (run.1.flatMap (calls cpuTexts)) :=
  discards_stored_iff (Run.executed execute_clockSetBack)

end Tasks

end KepServerLogger.Ingestor
