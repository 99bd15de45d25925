import KepServerLogger.Base.LossyFifo
import KepServerLogger.Proofs.IngestSteps

/-!
# No item and no row is lost, copied or reordered

Two buffers stand behind each other, the queue of items and, for each table,
the rows that are produced and not yet committed: those of the batch in
flight and behind them those that are pending. Both lose only their oldest
contents, the queue when it is full and a table when a failed write puts its
batch back. Each step of an `Ingest` is one step of the abstract buffer: what
was waiting, with what arrives behind it, is what leaves in front of what
still waits. The rest is induction.

A flush swaps the pending tables out and a failed write puts them back in
front of what has been produced since, so that the concatenation of the two
never changes by either; that is the invariant.
-/

namespace KepServerLogger.Ingestor.Tasks

open KepServerLogger.Py KepServerLogger.Lib

variable {env : Externals} {s s' : Tasks} {e : Event}

/-! ## The queue -/

theorem droppedCount_append (records records' : List LogRecord) :
    droppedCount (records ++ records') = droppedCount records + droppedCount records' := by
  rw [droppedCount, List.map_append, List.sum_append]
  rfl

theorem droppedCount_eq_zero {records : List LogRecord}
    (h : ∀ r ∈ records, ∀ n, r ≠ .queueFull n) : droppedCount records = 0 := by
  induction records with
  | nil => rfl
  | cons r rest ih =>
      rw [← List.singleton_append, droppedCount_append,
        ih fun r hr => h r (List.mem_cons_of_mem _ hr)]
      cases r with
      | queueFull dropped => exact absurd rfl (h _ List.mem_cons_self dropped)
      | droppedItem | writeFailed | writesRecovered | droppedRows | wroteRows => rfl

/-- A flush reports exactly the count it resets. -/
theorem droppedCount_flushStart (s : Ingest) :
    droppedCount (s.flushStart env).2.2 = s.dropped := by
  have hdropped : (s.decodeQueued env).1.dropped = s.dropped :=
    (Ingest.decodeItems_frame env s.queue.items { s with queue := ∅ }).2.1
  have hzero : droppedCount (s.decodeQueued env).2 = 0 := by
    refine droppedCount_eq_zero fun r hr n hn => ?_
    obtain ⟨_, _, _, hx⟩ := Ingest.decodeItems_logged env _ _ r hr
    rw [hn] at hx
    cases hx
  have hrecords : (s.flushStart env).2.2 =
      if (s.decodeQueued env).1.dropped = 0 then (s.decodeQueued env).2
      else (s.decodeQueued env).2 ++ [.queueFull (s.decodeQueued env).1.dropped] := by
    simp only [Ingest.flushStart]
    split <;> rfl
  rw [hrecords, hdropped]
  split
  · next h => rw [hzero, h]
  · rw [droppedCount_append, hzero, Nat.zero_add]
    exact Nat.add_zero _

/-- A callback puts one item, and a full queue evicts its oldest for it. -/
theorem put_queue (s : Ingest) (item : Item) :
    s.queue.items ++ [item] =
        (if s.queue.full then s.queue.items.take 1 else []) ++ (s.put item).queue.items ∧
      (s.put item).dropped =
        s.dropped + (if s.queue.full then s.queue.items.take 1 else []).length := by
  by_cases hfull : s.queue.full
  · obtain ⟨x, rest, hitems⟩ := List.exists_cons_of_ne_nil (Ingest.items_ne_nil_of_full hfull)
    obtain ⟨hq, hd⟩ := Ingest.put_of_full item hfull
    rw [if_pos hfull, hq, hd, hitems]
    exact ⟨rfl, rfl⟩
  · obtain ⟨hq, hd⟩ := Ingest.put_of_not_full item hfull
    rw [if_neg hfull, hq, hd]
    exact ⟨rfl, rfl⟩

/-- One step of the queue, and of the count of what it evicted. -/
theorem queue_step (hs : step env s e = some s') :
    s.ingest.queue.items ++ arrivals (s, e) =
        taken (s, e) ++ (evicted (s, e) ++ s'.ingest.queue.items) ∧
      s'.reported + s'.ingest.dropped =
        s.reported + s.ingest.dropped + (evicted (s, e)).length := by
  -- Everything but a callback and a flush leaves the queue alone.
  have hsame : ∀ {t : Tasks}, t.ingest.queue = s.ingest.queue →
      t.ingest.dropped = s.ingest.dropped → t.reported = s.reported →
      s.ingest.queue.items ++ [] = [] ++ ([] ++ t.ingest.queue.items) ∧
        t.reported + t.ingest.dropped = s.reported + s.ingest.dropped + 0 := by
    intro t hq hd hr
    rw [hq, hd, hr, List.append_nil]
    exact ⟨rfl, rfl⟩
  cases step_cases hs with
  | onMetric name dataValue receivedAt =>
      obtain ⟨hq, hd⟩ := put_queue s.ingest ⟨.metric, name, dataValue, receivedAt⟩
      simp only [evicted, arrivals, taken, ne_eq, List.cons_ne_nil, not_false_eq_true, true_and,
        List.nil_append]
      refine ⟨hq, ?_⟩
      rw [hd, ← Nat.add_assoc]
      rfl
  | onTag tag dataValue receivedAt =>
      obtain ⟨hq, hd⟩ := put_queue s.ingest ⟨.tag, tag, dataValue, receivedAt⟩
      simp only [evicted, arrivals, taken, ne_eq, List.cons_ne_nil, not_false_eq_true, true_and,
        List.nil_append]
      refine ⟨hq, ?_⟩
      rw [hd, ← Nat.add_assoc]
      rfl
  | flush hidle =>
      obtain ⟨hq, hd⟩ := Ingest.flushStart_queue env s.ingest
      simp only [evicted, arrivals, taken, ne_eq, not_true_eq_false, false_and, if_false,
        List.append_nil, List.nil_append]
      rw [hq, hd, Queue.items_empty, List.append_nil, reported, droppedCount_append,
        droppedCount_flushStart]
      exact ⟨rfl, rfl⟩
  | wrote hflying hlog | failed hflying hfailed hlog =>
      refine hsame rfl rfl ?_
      rw [reported, droppedCount_append, droppedCount_eq_zero hlog]
      rfl
  | addModel | newSession | writeReturns | writeRaises | cancelRunning | cancelReturned
  | cancelRaised | orphanReturns | orphanRaises => exact hsame rfl rfl rfl

/-! ## The rows of a table -/

/-- The events that only a cancelled flush brings about. -/
def Event.detached : Event → Bool
  | .cancelFlush | .orphanReturns _ | .orphanRaises _ => true
  | _ => false

theorem committedRows_append (s : Tasks) (batch : Batch) (table : String) :
    committedRows { s with committed := s.committed ++ [batch] } table =
      s.committedRows table ++ batch.rows table := by
  simp only [committedRows, List.flatMap_append, List.flatMap_singleton]

theorem rows_of_not_mem_keys {batch : Batch} {table : String} (h : table ∉ batch.keys) :
    batch.rows table = [] := by
  rw [Dict.rows, Dict.getD, Dict.get?_eq_none.mpr h]
  rfl

/-- What a failed write trims, and what it leaves pending, is what was in
flight with what was pending behind it. -/
theorem trimmed_append_pendingRows {batch : Batch} (table : String)
    (hflying : s.flushing = some ⟨batch, .raised⟩) :
    trimmed table (s, .flushResumes) ++ (s.ingest.flushFailed batch).1.pending.rows table =
      s.inFlight table ++ s.pendingRows table := by
  obtain ⟨pending, hfailed, _, hin, hout⟩ := Ingest.flushFailed_spec s.ingest batch
  simp only [trimmed, inFlight, pendingRows, hflying]
  rw [hfailed]
  split
  · next hmem =>
      rw [hin table hmem]
      exact List.take_append_drop _ _
  · next hmem =>
      rw [rows_of_not_mem_keys hmem]
      exact hout table hmem

/-- One step of the rows of a table, as long as no flush is cancelled. -/
theorem rows_step (table : String) (hs : step env s e = some s') (hd : e.detached = false) :
    (∃ now, s'.committedRows table = s.committedRows table ++ now ∧
      s.inFlight table ++ s.pendingRows table ++ produced env table (s, e) =
        now ++ (trimmed table (s, e) ++ (s'.inFlight table ++ s'.pendingRows table))) ∧
      s'.orphans = s.orphans ∧ lostBatch (s, e) = none := by
  cases step_cases hs with
  | onMetric | onTag =>
      refine ⟨⟨[], (List.append_nil _).symm, ?_⟩, rfl, rfl⟩
      simp only [produced, trimmed, List.append_nil, List.nil_append]
      show _ = s.inFlight table ++ (s.ingest.put _).pending.rows table
      rw [(Ingest.put_frame _ _).1]
      rfl
  | newSession => exact ⟨⟨[], (List.append_nil _).symm, List.append_nil _⟩, rfl, rfl⟩
  | addModel table' model =>
      refine ⟨⟨[], (List.append_nil _).symm, ?_⟩, rfl, rfl⟩
      have hrows : pendingRows { s with ingest := s.ingest.addModel table' model } table =
          s.pendingRows table ++ produced env table (s, .addModel table' model) :=
        Dict.rows_extend _ _ _ _
      rw [hrows, List.append_assoc]
      rfl
  | flush hidle =>
      refine ⟨⟨[], (List.append_nil _).symm, ?_⟩, rfl, rfl⟩
      obtain ⟨hbatch, hpending⟩ := Ingest.flushStart_rows env s.ingest table
      simp only [produced, trimmed, inFlight, pendingRows, hidle, List.nil_append]
      rw [hpending, List.append_nil, ← hbatch]
      cases (s.ingest.flushStart env).2.1 <;> rfl
  | @writeReturns batch hflying =>
      refine ⟨⟨batch.rows table, committedRows_append s batch table, ?_⟩, rfl, rfl⟩
      simp only [produced, trimmed, inFlight, pendingRows, hflying, List.append_nil,
        List.nil_append]
  | writeRaises hflying =>
      refine ⟨⟨[], (List.append_nil _).symm, ?_⟩, rfl, rfl⟩
      simp only [produced, trimmed, inFlight, pendingRows, hflying, List.append_nil,
        List.nil_append]
  | wrote hflying hlog =>
      refine ⟨⟨[], (List.append_nil _).symm, ?_⟩, rfl, rfl⟩
      simp only [produced, trimmed, inFlight, pendingRows, hflying, List.append_nil,
        List.nil_append]
  | failed hflying hfailed hlog =>
      refine ⟨⟨[], (List.append_nil _).symm, ?_⟩, rfl, rfl⟩
      have htrim := trimmed_append_pendingRows table hflying
      rw [hfailed] at htrim
      exact (List.append_nil _).trans htrim.symm
  | cancelRunning | cancelReturned | cancelRaised | orphanReturns | orphanRaises => cases hd

/-- A trim leaves exactly as many rows as a table may hold. -/
theorem trim_exact {table : String} (hs : step env s e = some s')
    (ht : trimmed table (s, e) ≠ []) :
    trimmed table (s, e) ++ s'.pendingRows table =
        s.inFlight table ++ s.pendingRows table ∧
      (s'.pendingRows table).length = maxPendingRowsPerTable := by
  cases step_cases hs with
  | wrote hflying hlog => simp only [trimmed, hflying, ne_eq, not_true_eq_false] at ht
  | failed hflying hfailed hlog =>
      have happ := trimmed_append_pendingRows table hflying
      rw [hfailed] at happ
      refine ⟨happ, ?_⟩
      have hlen := congrArg List.length happ
      have hpos := List.length_pos_iff.mpr ht
      simp only [trimmed, hflying, inFlight, pendingRows] at hlen hpos ⊢
      split at hpos
      · next hmem =>
          rw [if_pos hmem] at hlen
          simp only [List.length_append, List.length_take] at hlen hpos
          omega
      · exact absurd hpos (Nat.lt_irrefl 0)
  | onMetric | onTag | addModel | newSession | flush | writeReturns | writeRaises
  | cancelRunning | cancelReturned | cancelRaised | orphanReturns | orphanRaises =>
      exact absurd rfl ht

/-! ## A whole run -/

/-- Without a cancelled flush nothing is ever detached from its flush. -/
theorem Run.not_detached {tr : List (Tasks × Event)} (h : Run (step env) start tr s)
    (hcancel : ∀ p ∈ tr, p.2 ≠ .cancelFlush) :
    s.orphans = [] ∧ ∀ p ∈ tr, p.2.detached = false := by
  induction h with
  | nil => exact ⟨rfl, fun _ hp => absurd hp List.not_mem_nil⟩
  | @snoc tr s s' e _ hs ih =>
      obtain ⟨horphans, hbefore⟩ := ih fun p hp => hcancel p (List.mem_append_left _ hp)
      have he : e.detached = false := by
        cases e with
        | cancelFlush => exact absurd rfl (hcancel (s, .cancelFlush) (by simp))
        | orphanReturns | orphanRaises =>
            simp only [step, horphans, List.getElem?_nil] at hs
            cases hs
        | onMetric | onTag | addModel | newSession | flush | writeReturns | writeRaises
        | flushResumes => rfl
      refine ⟨(rows_step "" hs he).2.1.trans horphans, fun p hp => ?_⟩
      rcases List.mem_append.mp hp with hp | hp
      · exact hbefore p hp
      · rw [List.mem_singleton.mp hp]
        exact he

theorem Run.items_account {tr : List (Tasks × Event)} (h : Run (step env) start tr s) :
    LossyFifo.Accounts (tr.flatMap arrivals) (tr.flatMap taken) (tr.flatMap evicted)
        s.ingest.queue.items ∧
      (tr.flatMap evicted).length = s.reported + s.ingest.dropped := by
  induction h with
  | nil => exact ⟨.empty, rfl⟩
  | snoc _ hs ih =>
      obtain ⟨hitems, hcount⟩ := queue_step hs
      simp only [List.flatMap_append, List.flatMap_singleton]
      refine ⟨ih.1.step hitems, ?_⟩
      rw [List.length_append, ih.2, hcount]

theorem Run.rows_account {tr : List (Tasks × Event)} (h : Run (step env) start tr s)
    (hattached : ∀ p ∈ tr, p.2.detached = false) (table : String) :
    LossyFifo.Accounts (tr.flatMap (produced env table)) (s.committedRows table)
      (tr.flatMap (trimmed table)) (s.inFlight table ++ s.pendingRows table) := by
  induction h with
  | nil => exact .empty
  | @snoc tr s s' e _ hs ih =>
      obtain ⟨⟨now, hcommitted, hrows⟩, _⟩ :=
        rows_step table hs (hattached (s, e) (by simp))
      simp only [List.flatMap_append, List.flatMap_singleton]
      rw [hcommitted]
      exact (ih fun p hp => hattached p (List.mem_append_left _ hp)).step hrows

/-- In every run without a cancelled flush the items that decoding takes are
those that were put, in order and once each, but for the ones a full queue
evicted as its oldest, which are counted; and the rows of a table that are
committed, in flight and pending, read in this order, are those produced for
it, in order and once each, but for the ones a failed write trimmed as the
oldest, each time down to exactly the bound. -/
theorem nothing_lost_but_the_oldest {tr : List (Tasks × Event)}
    (h : Run (step env) start tr s) (hcancel : ∀ p ∈ tr, p.2 ≠ .cancelFlush) :
    (LossyFifo.Accounts (tr.flatMap arrivals) (tr.flatMap taken) (tr.flatMap evicted)
        s.ingest.queue.items ∧
      (tr.flatMap evicted).length = s.reported + s.ingest.dropped) ∧
    ∀ table,
      LossyFifo.Accounts (tr.flatMap (produced env table)) (s.committedRows table)
        (tr.flatMap (trimmed table)) (s.inFlight table ++ s.pendingRows table) ∧
      ∀ p ∈ tr, trimmed table p ≠ [] → ∃ t, step env p.1 p.2 = some t ∧
        trimmed table p ++ t.pendingRows table =
          p.1.inFlight table ++ p.1.pendingRows table ∧
        (t.pendingRows table).length = maxPendingRowsPerTable := by
  obtain ⟨_, hattached⟩ := Run.not_detached h hcancel
  refine ⟨Run.items_account h, fun table => ⟨Run.rows_account h hattached table, ?_⟩⟩
  intro p hp ht
  obtain ⟨_, t, _, _, hs⟩ := h.of_mem hp
  exact ⟨t, hs, trim_exact hs ht⟩

/-- A tag value whose first write fails, a heartbeat measured meanwhile, and
the retry. -/
def retriedWrite : List Event :=
  let now : Naive := ⟨2026, 1, 1, 12, 0, 0, 250000, by decide⟩
  [.onTag "Line1.Speed" (.good (.int 7)) ⟨now, some .utc⟩, .flush,
    .addModel "heartbeat_rtt" (.heartbeatRTT ⟨⟨now⟩, "collector", 3, ⟨"1.5"⟩⟩), .writeRaises,
    .flushResumes, .flush, .writeReturns, .flushResumes]

theorem execute_retriedWrite :
    (execute (step (.ofTexts [])) start retriedWrite).isSome = true := by
  decide

theorem nothing_lost_retriedWrite :
    let run := executed (step (.ofTexts [])) start retriedWrite execute_retriedWrite
    (run.2.committedRows "tags").length = 1 ∧
    LossyFifo.Accounts (run.1.flatMap (produced (.ofTexts []) "tags"))
      (run.2.committedRows "tags") (run.1.flatMap (trimmed "tags"))
      (run.2.inFlight "tags" ++ run.2.pendingRows "tags") :=
  ⟨by decide, ((nothing_lost_but_the_oldest (Run.executed execute_retriedWrite)
    (forall_mem_executed (P := (· ≠ .cancelFlush)) execute_retriedWrite (by decide))).2
      "tags").1⟩

end KepServerLogger.Ingestor.Tasks
