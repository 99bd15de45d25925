import KepServerLogger.Ingestor.Tasks

/-!
# What each part of a flush does

One lemma for each function of `Ingest`, which is all the later proofs know
of it. Decoding an item has three outcomes that matter: it raises, it leaves
the pending tables alone, or it adds rows to one table. Which of them it is,
and which rows, does not depend on what is pending, so the rows a flush
decodes can be named by decoding with nothing pending.

One step of the tasks is inverted once: what its event asks of the state and
which fields it changes.
-/

namespace KepServerLogger.Ingestor

open KepServerLogger.Py KepServerLogger.Lib

namespace Ingest

/-! ## Putting -/

theorem put_of_full {s : Ingest} (item : Item) (h : s.queue.full) :
    (s.put item).queue.items = s.queue.items.tail ++ [item] ∧
      (s.put item).dropped = s.dropped + 1 := by
  unfold put
  rw [dif_pos h]
  exact ⟨rfl, rfl⟩

theorem put_of_not_full {s : Ingest} (item : Item) (h : ¬ s.queue.full) :
    (s.put item).queue.items = s.queue.items ++ [item] ∧
      (s.put item).dropped = s.dropped := by
  unfold put
  rw [dif_neg h]
  exact ⟨rfl, rfl⟩

/-- Nothing else changes. -/
theorem put_frame (s : Ingest) (item : Item) :
    (s.put item).pending = s.pending ∧ (s.put item).lastTimestamp = s.lastTimestamp ∧
      (s.put item).awaitingFirst = s.awaitingFirst := by
  unfold put
  split <;> exact ⟨rfl, rfl, rfl⟩

/-- A full queue has an oldest item. -/
theorem items_ne_nil_of_full {s : Ingest} (h : s.queue.full) : s.queue.items ≠ [] := by
  intro he
  unfold Queue.full at h
  rw [he] at h
  exact absurd h (by decide)

/-! ## Decoding one item -/

section

variable {env : Externals}

/-- A value that decodes to models: the flag is spent, and unless the value
counts as already stored its newest timestamp and its rows are kept. -/
theorem addMetric_models {s : Ingest} {name : String} {dataValue : DataValue}
    {metric : Metric} {m : OPCUAModel} {ms : List OPCUAModel}
    (hmetric : metrics.get? name = some metric)
    (hdecode : metric.decode env dataValue = .ok (m :: ms)) :
    s.addMetric env name dataValue =
      if alreadyStored (decide (name ∈ s.awaitingFirst)) metric (newest m ms)
          (s.lastTimestamp.get? name) then
        .ok { s with awaitingFirst := s.awaitingFirst.erase name }
      else
        .ok { s with
          awaitingFirst := s.awaitingFirst.erase name
          lastTimestamp := s.lastTimestamp.set name
            ((s.lastTimestamp.get? name).elim (newest m ms) (max (newest m ms)))
          pending := s.pending.extend metric.table_name ((m :: ms).map (metricRow metric)) } := by
  simp only [addMetric, hmetric, hdecode]

/-- Everything `_add_metric` can do. -/
theorem addMetric_cases (env : Externals) (s : Ingest) (name : String) (dataValue : DataValue) :
    (∃ e, ∀ pending, { s with pending }.addMetric env name dataValue = .error e) ∨
    (∃ awaitingFirst, ∀ pending, { s with pending }.addMetric env name dataValue =
      .ok { s with pending, awaitingFirst }) ∨
    (∃ awaitingFirst lastTimestamp table rows, rows ≠ [] ∧
      ∀ pending, { s with pending }.addMetric env name dataValue =
        .ok { s with
          pending := pending.extend table rows
          awaitingFirst
          lastTimestamp }) := by
  cases hmetric : metrics.get? name with
  | none => exact Or.inl ⟨_, fun _ => by simp only [addMetric, hmetric]; rfl⟩
  | some metric =>
      cases hdecode : metric.decode env dataValue with
      | error e => exact Or.inl ⟨e, fun _ => by simp only [addMetric, hmetric, hdecode]⟩
      | ok models =>
          cases models with
          | nil =>
              refine Or.inr (Or.inl ⟨s.awaitingFirst, fun _ => ?_⟩)
              simp only [addMetric, hmetric, hdecode]
          | cons m ms =>
              by_cases hold : alreadyStored (decide (name ∈ s.awaitingFirst)) metric
                  (newest m ms) (s.lastTimestamp.get? name) = true
              · exact Or.inr (Or.inl ⟨s.awaitingFirst.erase name, fun _ =>
                  (addMetric_models hmetric hdecode).trans (if_pos hold)⟩)
              · exact Or.inr (Or.inr ⟨s.awaitingFirst.erase name, s.lastTimestamp.set name
                  ((s.lastTimestamp.get? name).elim (newest m ms) (max (newest m ms))),
                  metric.table_name, (m :: ms).map (metricRow metric), List.cons_ne_nil _ _,
                  fun _ => (addMetric_models hmetric hdecode).trans (if_neg hold)⟩)

/-- Everything decoding an item can do. -/
theorem decodeItem_cases (env : Externals) (s : Ingest) (item : Item) :
    (∃ e, ∀ pending, { s with pending }.decodeItem env item = .error e) ∨
    (∃ awaitingFirst, ∀ pending, { s with pending }.decodeItem env item =
      .ok { s with pending, awaitingFirst }) ∨
    (∃ awaitingFirst lastTimestamp table rows, rows ≠ [] ∧
      ∀ pending, { s with pending }.decodeItem env item =
        .ok { s with
          pending := pending.extend table rows
          awaitingFirst
          lastTimestamp }) := by
  unfold decodeItem
  cases item.kind with
  | metric => exact addMetric_cases env s item.key item.dataValue
  | tag =>
      simp only [addTag]
      cases item.dataValue.value with
      | none => exact Or.inl ⟨_, fun _ => rfl⟩
      | some value =>
          exact Or.inr (Or.inr ⟨s.awaitingFirst, s.lastTimestamp, "tags", _, by simp,
            fun _ => rfl⟩)

/-! ## Decoding the queue -/

/-- Decoding adds to what is pending, and what it adds does not depend on it. -/
theorem rows_decodeItems (env : Externals) (table : String) (items : List Item) (s : Ingest) (pending : Batch) :
    (decodeItems env { s with pending } items).1.pending.rows table =
      pending.rows table ++
        (decodeItems env { s with pending := ∅ } items).1.pending.rows table := by
  induction items generalizing s pending with
  | nil =>
      show pending.rows table = pending.rows table ++ []
      rw [List.append_nil]
  | cons item rest ih =>
      simp only [decodeItems]
      rcases decodeItem_cases env s item with ⟨e, he⟩ | ⟨aw, he⟩ | ⟨aw, lt, t, rows, _, he⟩
      · rw [he pending, he ∅]
        exact ih s pending
      · rw [he pending, he ∅]
        exact ih { s with awaitingFirst := aw } pending
      · rw [he pending, he ∅]
        have hp := ih { s with awaitingFirst := aw, lastTimestamp := lt } (pending.extend t rows)
        have he := ih { s with awaitingFirst := aw, lastTimestamp := lt } (Dict.extend ∅ t rows)
        simp only at hp he ⊢
        rw [hp, he, Dict.rows_extend, Dict.rows_extend, Dict.rows_empty, List.nil_append,
          List.append_assoc]

/-- Decoding touches neither the queue nor the counters. -/
theorem decodeItems_frame (env : Externals) (items : List Item) (s : Ingest) :
    (decodeItems env s items).1.queue = s.queue ∧
      (decodeItems env s items).1.dropped = s.dropped ∧
      (decodeItems env s items).1.writeFailing = s.writeFailing := by
  induction items generalizing s with
  | nil => exact ⟨rfl, rfl, rfl⟩
  | cons item rest ih =>
      simp only [decodeItems]
      rcases decodeItem_cases env s item with ⟨e, he⟩ | ⟨aw, he⟩ | ⟨aw, lt, t, rows, _, he⟩
      · rw [he s.pending]
        exact ih s
      · rw [he s.pending]
        exact ih { s with awaitingFirst := aw }
      · rw [he s.pending]
        exact ih { s with pending := _, awaitingFirst := aw, lastTimestamp := lt }

/-- What decoding logs are dropped items. -/
theorem decodeItems_logged (env : Externals) (items : List Item) (s : Ingest) :
    ∀ r ∈ (decodeItems env s items).2, ∃ kind key e, r = .droppedItem kind key e := by
  induction items generalizing s with
  | nil => exact nofun
  | cons item rest ih =>
      simp only [decodeItems]
      split
      · exact ih _
      · next e _ =>
          intro r hr
          rcases List.mem_cons.mp hr with rfl | hr
          · exact ⟨_, _, _, rfl⟩
          · exact ih s r hr

/-- No table is pending without rows. -/
def NonemptyTables (pending : Batch) : Prop := ∀ p ∈ pending.items, p.2 ≠ []

theorem NonemptyTables.set {pending : Batch} (h : NonemptyTables pending) {table : String}
    {rows : List Row} (hrows : rows ≠ []) : NonemptyTables (pending.set table rows) := by
  rintro ⟨t, rs⟩ hp
  have hget := Dict.get?_eq_some.mpr hp
  rw [Dict.get?_set] at hget
  split at hget
  · cases hget
    exact hrows
  · exact h (t, rs) (Dict.get?_eq_some.mp hget)

theorem NonemptyTables.extend {pending : Batch} (h : NonemptyTables pending) {table : String}
    {rows : List Row} (hrows : rows ≠ []) : NonemptyTables (pending.extend table rows) :=
  h.set (by simp [hrows])

theorem NonemptyTables.decodeItems {s : Ingest} (h : NonemptyTables s.pending)
    (items : List Item) : NonemptyTables (decodeItems env s items).1.pending := by
  induction items generalizing s with
  | nil => exact h
  | cons item rest ih =>
      simp only [Ingest.decodeItems]
      rcases decodeItem_cases env s item with ⟨e, he⟩ | ⟨aw, he⟩ | ⟨aw, lt, t, rows, hne, he⟩
      · rw [he s.pending]
        exact ih h
      · rw [he s.pending]
        exact ih (s := { s with awaitingFirst := aw }) h
      · rw [he s.pending]
        exact ih (s := { s with pending := _, awaitingFirst := aw, lastTimestamp := lt })
          (h.extend hne)

/-- A table without rows is no table. -/
theorem NonemptyTables.rows_ne_nil {pending : Batch} (h : NonemptyTables pending)
    (hne : pending.items ≠ []) : ∃ table, pending.rows table ≠ [] := by
  obtain ⟨⟨t, rows⟩, rest, hitems⟩ := List.exists_cons_of_ne_nil hne
  have hmem : (t, rows) ∈ pending.items := by
    rw [hitems]
    exact List.mem_cons_self
  refine ⟨t, ?_⟩
  rw [Dict.rows, Dict.getD, Dict.get?_eq_some.mpr hmem]
  exact h (t, rows) hmem

/-! ## Up to the await -/

theorem flushStart_queue (env : Externals) (s : Ingest) :
    (s.flushStart env).1.queue = ∅ ∧ (s.flushStart env).1.dropped = 0 := by
  have hframe := (decodeItems_frame env s.queue.items { s with queue := ∅ }).1
  simp only [flushStart]
  split <;> exact ⟨hframe, rfl⟩

/-- The batch and what stays pending are what was pending with the decoded
rows behind it: all of it moves, or there is none. -/
theorem flushStart_rows (env : Externals) (s : Ingest) (table : String) :
    ((s.flushStart env).2.1.elim [] (·.rows table)) =
        s.pending.rows table ++
          ({ s with pending := ∅ }.decodeQueued env).1.pending.rows table ∧
      (s.flushStart env).1.pending.rows table = [] := by
  have hrows := rows_decodeItems env table s.queue.items { s with queue := ∅ } s.pending
  simp only [flushStart]
  split
  · next hempty =>
      have hnil : (s.decodeQueued env).1.pending.rows table = [] := by
        rw [List.isEmpty_iff] at hempty
        rw [Dict.rows, Dict.getD, Dict.get?, hempty]
        rfl
      refine ⟨?_, hnil⟩
      rw [← hnil]
      exact hrows
  · exact ⟨hrows, rfl⟩

theorem flushStart_batch {s : Ingest} {batch : Batch} (h : NonemptyTables s.pending)
    (hb : (s.flushStart env).2.1 = some batch) :
    NonemptyTables batch ∧ batch.items ≠ [] := by
  simp only [flushStart] at hb
  split at hb
  · cases hb
  · next hne =>
      cases hb
      refine ⟨h.decodeItems s.queue.items (s := { s with queue := ∅ }), ?_⟩
      intro he
      exact hne (List.isEmpty_iff.mpr he)

/-! ## After the await -/

theorem requeueTable_spec (s : Ingest) (table : String) (rows : List Row) :
    s.requeueTable table rows =
      ({ s with pending := s.pending.set table ((rows ++ s.pending.rows table).drop
          ((rows ++ s.pending.rows table).length - maxPendingRowsPerTable)) },
        (s.requeueTable table rows).2) ∧
      ∀ r ∈ (s.requeueTable table rows).2, ∃ lost t, r = .droppedRows lost t := by
  simp only [requeueTable]
  split
  · refine ⟨rfl, fun r hr => ?_⟩
    rw [List.mem_singleton.mp hr]
    exact ⟨_, _, rfl⟩
  · next hle =>
      refine ⟨?_, nofun⟩
      have hzero : (rows ++ s.pending.rows table).length - maxPendingRowsPerTable = 0 := by
        omega
      rw [hzero, List.drop_zero]

/-- What becomes of a table of the batch: its rows go back in front, and the
oldest make room. -/
def kept (batch pending : Batch) (table : String) : List Row :=
  (batch.rows table ++ pending.rows table).drop
    ((batch.rows table ++ pending.rows table).length - maxPendingRowsPerTable)

theorem requeueTables_spec (tables : List (String × List Row))
    (hnodup : (tables.map Prod.fst).Nodup) (s : Ingest) :
    ∃ pending records, s.requeueTables tables = ({ s with pending }, records) ∧
      (∀ r ∈ records, ∃ lost t, r = .droppedRows lost t) ∧
      (∀ table rows, (table, rows) ∈ tables → pending.rows table =
        (rows ++ s.pending.rows table).drop
          ((rows ++ s.pending.rows table).length - maxPendingRowsPerTable)) ∧
      (∀ table, table ∉ tables.map Prod.fst → pending.rows table = s.pending.rows table) := by
  induction tables generalizing s with
  | nil => exact ⟨s.pending, [], rfl, nofun, nofun, fun _ _ => rfl⟩
  | cons p rest ih =>
      obtain ⟨t, rs⟩ := p
      simp only [List.map_cons, List.nodup_cons] at hnodup
      obtain ⟨hfirst, hlog⟩ := requeueTable_spec s t rs
      obtain ⟨pending, records, hrest, hlog', hin, hout⟩ := ih hnodup.2 (s.requeueTable t rs).1
      have hpend : ∀ table, (s.requeueTable t rs).1.pending.rows table =
          if t = table then (rs ++ s.pending.rows t).drop
            ((rs ++ s.pending.rows t).length - maxPendingRowsPerTable)
          else s.pending.rows table := by
        intro table
        rw [hfirst]
        exact Dict.getD_set _ _ _ _ _
      refine ⟨pending, (s.requeueTable t rs).2 ++ records, ?_, ?_, ?_, ?_⟩
      · simp only [requeueTables]
        rw [hrest, hfirst]
      · intro r hr
        rcases List.mem_append.mp hr with hr | hr
        · exact hlog r hr
        · exact hlog' r hr
      · intro table rows hmem
        rcases List.mem_cons.mp hmem with heq | hmem
        · cases heq
          rw [hout t hnodup.1, hpend, if_pos rfl]
        · have hne : t ≠ table := by
            rintro rfl
            exact hnodup.1 (List.mem_map_of_mem hmem)
          rw [hin table rows hmem, hpend, if_neg hne]
      · intro table hmem
        simp only [List.map_cons, List.mem_cons, not_or] at hmem
        rw [hout table hmem.2, hpend, if_neg (Ne.symm hmem.1)]

/-- A failed write changes the pending tables of its batch and the flag. -/
theorem flushFailed_spec (s : Ingest) (batch : Batch) :
    ∃ pending, (s.flushFailed batch).1 = { s with pending, writeFailing := true } ∧
      (∀ r ∈ (s.flushFailed batch).2, ∀ n, r ≠ .queueFull n) ∧
      (∀ table ∈ batch.keys, pending.rows table = kept batch s.pending table) ∧
      (∀ table, table ∉ batch.keys → pending.rows table = s.pending.rows table) := by
  obtain ⟨pending, records, hreq, hlog, hin, hout⟩ :=
    requeueTables_spec batch.items batch.nodup s
  have hnot : ∀ r ∈ records, ∀ n, r ≠ LogRecord.queueFull n := by
    rintro r hr n rfl
    obtain ⟨_, _, hx⟩ := hlog _ hr
    cases hx
  have hrows : ∀ table ∈ batch.keys, pending.rows table = kept batch s.pending table := by
    intro table hmem
    obtain ⟨⟨t, rows⟩, hp, rfl⟩ := List.mem_map.mp hmem
    rw [hin t rows hp]
    simp only [kept, Dict.rows, Dict.getD, Dict.get?_eq_some.mpr hp, Option.getD_some]
  refine ⟨pending, ?_, ?_, hrows, hout⟩
  · simp only [flushFailed, requeue, hreq]
    split
    · next hw => exact congrArg (fun b => { s with pending, writeFailing := b }) hw
    · rfl
  · simp only [flushFailed, requeue, hreq]
    split
    · exact hnot
    · intro r hr n
      rcases List.mem_append.mp hr with hr | hr
      · exact hnot r hr n
      · rw [List.mem_singleton.mp hr]
        rintro ⟨⟩

theorem NonemptyTables.flushFailed {s : Ingest} {batch : Batch}
    (h : NonemptyTables s.pending) (hb : NonemptyTables batch) :
    NonemptyTables (s.flushFailed batch).1.pending := by
  have hstep : ∀ (tables : List (String × List Row)) (s : Ingest),
      (∀ p ∈ tables, p.2 ≠ []) → NonemptyTables s.pending →
      NonemptyTables (s.requeueTables tables).1.pending := by
    intro tables
    induction tables with
    | nil => exact fun _ _ h => h
    | cons p rest ih =>
        obtain ⟨t, rs⟩ := p
        intro s hne h
        refine ih _ (fun p hp => hne p (List.mem_cons_of_mem _ hp)) ?_
        rw [(requeueTable_spec s t rs).1]
        refine h.set fun hnil => ?_
        have hrs : 0 < (rs ++ s.pending.rows t).length := by
          have hpos : 0 < rs.length := List.length_pos_iff.mpr (hne (t, rs) List.mem_cons_self)
          rw [List.length_append]
          omega
        have hmax : 0 < maxPendingRowsPerTable := by decide
        rw [List.drop_eq_nil_iff] at hnil
        omega
  have hreq := hstep batch.items s hb h
  simp only [Ingest.flushFailed]
  split <;> exact hreq

theorem flushWrote_spec (s : Ingest) (batch : Batch) :
    (s.flushWrote batch).1 = { s with writeFailing := false } ∧
      ∀ r ∈ (s.flushWrote batch).2, ∀ n, r ≠ .queueFull n := by
  simp only [flushWrote]
  split
  · refine ⟨rfl, fun r hr n => ?_⟩
    rcases List.mem_cons.mp hr with rfl | hr
    · exact nofun
    · rw [List.mem_singleton.mp hr]
      exact nofun
  · next hw =>
      refine ⟨?_, fun r hr n => ?_⟩
      · rw [Bool.not_eq_true] at hw
        exact congrArg (fun b => { s with writeFailing := b }) hw
      · rw [List.mem_singleton.mp hr]
        rintro ⟨⟩

end

end Ingest

/-! ## One step of the tasks -/

namespace Tasks

variable {env : Externals} {s s' : Tasks} {e : Event}

/-- What each event asks of the state, and what it changes. -/
inductive Stepped (env : Externals) (s : Tasks) : Event → Tasks → Prop where
  | onMetric (name : String) (dataValue : DataValue) (receivedAt : Datetime) :
      Stepped env s (.onMetric name dataValue receivedAt)
        { s with ingest := s.ingest.put ⟨.metric, name, dataValue, receivedAt⟩ }
  | onTag (tag : String) (dataValue : DataValue) (receivedAt : Datetime) :
      Stepped env s (.onTag tag dataValue receivedAt)
        { s with ingest := s.ingest.put ⟨.tag, tag, dataValue, receivedAt⟩ }
  | addModel (table : String) (model : OPCUAModel) :
      Stepped env s (.addModel table model) { s with ingest := s.ingest.addModel table model }
  | newSession (metrics : List String) :
      Stepped env s (.newSession metrics) { s with ingest := s.ingest.newSession metrics }
  | flush (hidle : s.flushing = none) :
      Stepped env s .flush
        { s with
          ingest := (s.ingest.flushStart env).1
          flushing := (s.ingest.flushStart env).2.1.map (⟨·, .running⟩)
          logged := s.logged ++ (s.ingest.flushStart env).2.2 }
  | writeReturns {batch : Batch} (hflying : s.flushing = some ⟨batch, .running⟩) :
      Stepped env s .writeReturns
        { s with
          flushing := some ⟨batch, .returned⟩
          committed := s.committed ++ [batch] }
  | writeRaises {batch : Batch} (hflying : s.flushing = some ⟨batch, .running⟩) :
      Stepped env s .writeRaises { s with flushing := some ⟨batch, .raised⟩ }
  | wrote {batch : Batch} {records : List LogRecord}
      (hflying : s.flushing = some ⟨batch, .returned⟩)
      (hlog : ∀ r ∈ records, ∀ n, r ≠ .queueFull n) :
      Stepped env s .flushResumes
        { s with
          ingest := { s.ingest with writeFailing := false }
          flushing := none
          logged := s.logged ++ records }
  | failed {batch pending : Batch} {records : List LogRecord}
      (hflying : s.flushing = some ⟨batch, .raised⟩)
      (hfailed : (s.ingest.flushFailed batch).1 = { s.ingest with pending, writeFailing := true })
      (hlog : ∀ r ∈ records, ∀ n, r ≠ .queueFull n) :
      Stepped env s .flushResumes
        { s with
          ingest := { s.ingest with pending, writeFailing := true }
          flushing := none
          logged := s.logged ++ records }
  | cancelRunning {batch : Batch} (hflying : s.flushing = some ⟨batch, .running⟩) :
      Stepped env s .cancelFlush { s with flushing := none, orphans := s.orphans ++ [batch] }
  | cancelReturned {batch : Batch} (hflying : s.flushing = some ⟨batch, .returned⟩) :
      Stepped env s .cancelFlush { s with flushing := none }
  | cancelRaised {batch : Batch} (hflying : s.flushing = some ⟨batch, .raised⟩) :
      Stepped env s .cancelFlush { s with flushing := none }
  | orphanReturns {i : Nat} {batch : Batch} (hi : s.orphans[i]? = some batch) :
      Stepped env s (.orphanReturns i)
        { s with
          orphans := s.orphans.eraseIdx i
          committed := s.committed ++ [batch] }
  | orphanRaises {i : Nat} {batch : Batch} (hi : s.orphans[i]? = some batch) :
      Stepped env s (.orphanRaises i) { s with orphans := s.orphans.eraseIdx i }

theorem step_cases (hs : step env s e = some s') : Stepped env s e s' := by
  cases e with
  | onMetric name dataValue receivedAt =>
      cases hs
      exact .onMetric name dataValue receivedAt
  | onTag tag dataValue receivedAt =>
      cases hs
      exact .onTag tag dataValue receivedAt
  | addModel table model =>
      cases hs
      exact .addModel table model
  | newSession metrics =>
      cases hs
      exact .newSession metrics
  | flush =>
      simp only [step] at hs
      split at hs <;> cases hs
      next hidle => exact .flush hidle
  | writeReturns =>
      simp only [step] at hs
      split at hs <;> cases hs
      next hflying => exact .writeReturns hflying
  | writeRaises =>
      simp only [step] at hs
      split at hs <;> cases hs
      next hflying => exact .writeRaises hflying
  | flushResumes =>
      simp only [step] at hs
      split at hs <;> cases hs
      · next batch hflying =>
          obtain ⟨hwrote, hlog⟩ := Ingest.flushWrote_spec s.ingest batch
          rw [hwrote]
          exact .wrote hflying hlog
      · next batch hflying =>
          obtain ⟨pending, hfailed, hlog, _⟩ := Ingest.flushFailed_spec s.ingest batch
          rw [hfailed]
          exact .failed hflying hfailed hlog
  | cancelFlush =>
      simp only [step] at hs
      split at hs <;> cases hs
      · next hflying => exact .cancelRunning hflying
      · next flight hnot hflying =>
          obtain ⟨batch, thread⟩ := flight
          cases thread with
          | running => exact absurd rfl (hnot batch)
          | returned => exact .cancelReturned hflying
          | raised => exact .cancelRaised hflying
  | orphanReturns i =>
      simp only [step] at hs
      split at hs <;> cases hs
      next hi => exact .orphanReturns hi
  | orphanRaises i =>
      simp only [step] at hs
      split at hs <;> cases hs
      next hi => exact .orphanRaises hi

/-- Every batch that a thread is writing has the property. -/
structure Written (P : Batch → Prop) (s : Tasks) : Prop where
  flying : ∀ flight, s.flushing = some flight → P flight.batch
  orphans : ∀ batch ∈ s.orphans, P batch

/-- Batches come from flushes, and nothing changes them after that. -/
theorem Written.step {P : Batch → Prop} (h : Written P s) (hs : step env s e = some s')
    (hflush : ∀ batch, (s.ingest.flushStart env).2.1 = some batch → P batch) : Written P s' := by
  cases step_cases hs with
  | onMetric | onTag | addModel | newSession => exact ⟨h.flying, h.orphans⟩
  | flush hidle =>
      refine ⟨fun flight hflight => ?_, h.orphans⟩
      obtain ⟨batch, hbatch, rfl⟩ := Option.map_eq_some_iff.mp hflight
      exact hflush batch hbatch
  | writeReturns hflying | writeRaises hflying =>
      have hbatch := h.flying _ hflying
      refine ⟨?_, h.orphans⟩
      rintro flight ⟨⟩
      exact hbatch
  | wrote | failed | cancelReturned | cancelRaised => exact ⟨by rintro _ ⟨⟩, h.orphans⟩
  | cancelRunning hflying =>
      refine ⟨by rintro _ ⟨⟩, fun batch hbatch => ?_⟩
      rcases List.mem_append.mp hbatch with hbatch | hbatch
      · exact h.orphans batch hbatch
      · rw [List.mem_singleton.mp hbatch]
        exact h.flying _ hflying
  | orphanReturns | orphanRaises =>
      exact ⟨h.flying, fun batch hbatch => h.orphans batch (List.mem_of_mem_eraseIdx hbatch)⟩

end Tasks

end KepServerLogger.Ingestor
