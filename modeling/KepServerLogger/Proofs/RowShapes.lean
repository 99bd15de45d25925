import KepServerLogger.Proofs.Poison

/-!
# Every batch can be written

`insert_many` takes the columns of a table from the first row it is given and
looks them up in all the others, so one row of another shape would make every
later write of all tables raise. Rows of one table come from a metric, from
`add_model` and from tags, and a failed write puts rows of different flushes
together; but each of these only ever moves rows that have the columns of
their table, and that is the invariant.
-/

namespace KepServerLogger.Ingestor

open KepServerLogger.Py KepServerLogger.Lib

/-- Rows that go back in front of others. -/
theorem SchemaRows.kept {batch pending : Batch} (hb : SchemaRows batch) (hp : SchemaRows pending)
    (table : String) : ∀ row ∈ Ingest.kept batch pending table, RowOfSchema table row := by
  intro row hrow
  rcases List.mem_append.mp (List.mem_of_mem_drop hrow) with hrow | hrow
  · exact hb table row hrow
  · exact hp table row hrow

namespace Tasks

variable {env : Externals} {s s' : Tasks} {e : Event}

/-- What is pending, what a flush is writing, and what cancelled flushes have
left to their threads. -/
def batches (s : Tasks) : List Batch :=
  s.ingest.pending :: ((s.flushing.map Flight.batch).toList ++ s.orphans)

theorem mem_batches {batch : Batch} :
    batch ∈ s.batches ↔ batch = s.ingest.pending ∨
      (∃ flight, s.flushing = some flight ∧ flight.batch = batch) ∨ batch ∈ s.orphans := by
  simp only [batches, List.mem_cons, List.mem_append, Option.mem_toList, Option.map_eq_some_iff]

/-- Every row is a row of its table, wherever it is. -/
structure Shaped (s : Tasks) : Prop where
  pending : SchemaRows s.ingest.pending
  flying : ∀ flight, s.flushing = some flight → SchemaRows flight.batch
  orphans : ∀ batch ∈ s.orphans, SchemaRows batch

theorem flushStart_schemaRows (env : Externals) {s : Ingest} (h : SchemaRows s.pending) :
    SchemaRows (s.flushStart env).1.pending ∧
      ∀ batch, (s.flushStart env).2.1 = some batch → SchemaRows batch := by
  have hdecoded : SchemaRows (s.decodeQueued env).1.pending :=
    Ingest.decodeItems_schemaRows (s := { s with queue := ∅ }) h s.queue.items
  simp only [Ingest.flushStart]
  split
  · refine ⟨hdecoded, fun batch hbatch => ?_⟩
    cases hbatch
  · refine ⟨SchemaRows.empty, fun batch hbatch => ?_⟩
    cases hbatch
    exact hdecoded

theorem flushFailed_schemaRows {s : Ingest} {batch pending : Batch}
    (hfailed : (s.flushFailed batch).1 = { s with pending, writeFailing := true })
    (hb : SchemaRows batch) (hp : SchemaRows s.pending) : SchemaRows pending := by
  obtain ⟨pending', heq, _, hin, hout⟩ := Ingest.flushFailed_spec s batch
  obtain rfl : pending' = pending := congrArg Ingest.pending (heq.symm.trans hfailed)
  intro table row hrow
  by_cases hmem : table ∈ batch.keys
  · rw [hin table hmem] at hrow
    exact hb.kept hp table row hrow
  · rw [hout table hmem] at hrow
    exact hp table row hrow

theorem Shaped.step (h : Shaped s) (hs : Tasks.step env s e = some s') (hrtt : e.addsRtt = true) :
    Shaped s' := by
  obtain ⟨hflushed, hbatch⟩ := flushStart_schemaRows env h.pending
  have hwritten : Written SchemaRows s := ⟨h.flying, h.orphans⟩
  obtain ⟨hflying, horphans⟩ := hwritten.step hs hbatch
  refine ⟨?_, hflying, horphans⟩
  cases step_cases hs with
  | onMetric | onTag =>
      show SchemaRows (s.ingest.put _).pending
      rw [(Ingest.put_frame _ _).1]
      exact h.pending
  | addModel table model =>
      refine h.pending.extend fun row hrow => ?_
      -- The row is what the step produces for its table.
      have hproduced : row ∈ produced env table (s, .addModel table model) := by
        rw [produced, if_pos rfl]
        exact hrow
      exact produced_ofSchema (p := (s, .addModel table model)) hrtt hproduced
  | flush hidle => exact hflushed
  | failed hraised hfailed hlog =>
      exact flushFailed_schemaRows hfailed (h.flying _ hraised) h.pending
  | newSession | writeReturns | writeRaises | wrote | cancelRunning | cancelReturned | cancelRaised
  | orphanReturns | orphanRaises => exact h.pending

theorem Run.shaped {tr : List (Tasks × Event)} (h : Run (step env) start tr s)
    (hrtt : ∀ p ∈ tr, p.2.addsRtt = true) : Shaped s := by
  induction h with
  | nil => exact ⟨SchemaRows.empty, nofun, nofun⟩
  | snoc _ hs ih =>
      rw [List.forall_mem_append, List.forall_mem_singleton] at hrtt
      exact (ih hrtt.1).step hs hrtt.2

theorem Shaped.of_mem (h : Shaped s) {batch : Batch} (hbatch : batch ∈ s.batches) :
    SchemaRows batch := by
  rcases mem_batches.mp hbatch with rfl | ⟨flight, hflight, rfl⟩ | hbatch
  · exact h.pending
  · exact h.flying flight hflight
  · exact h.orphans batch hbatch

/-- The rows of a table have all the columns of the table and no others. -/
def SameColumns (batch : Batch) : Prop :=
  ∀ table, batch.rows table ≠ [] → ∃ columns, schema.get? table = some columns ∧
    ∀ row ∈ batch.rows table, ∀ column, column ∈ row.keys ↔ column ∈ columns

theorem SchemaRows.sameColumns {batch : Batch} (h : SchemaRows batch) : SameColumns batch := by
  intro table hne
  obtain ⟨first, rest, hrows⟩ := List.exists_cons_of_ne_nil hne
  obtain ⟨columns, hget, _⟩ := h table first (hrows ▸ List.mem_cons_self)
  refine ⟨columns, hget, fun row hrow column => ?_⟩
  obtain ⟨columns', hget', hperm⟩ := h table row hrow
  rw [hget] at hget'
  cases hget'
  exact hperm.mem_iff

/-- In every run in which only heartbeat round trips are added: in every batch
there is, the rows of a table have the columns of the schema, and building the
statements of the batch does not fail. -/
theorem batches_insertable {tr : List (Tasks × Event)} (h : Run (step env) start tr s)
    (hrtt : ∀ p ∈ tr, p.2.addsRtt = true) :
    ∀ batch ∈ s.batches, SameColumns batch ∧
      ∃ statements, insertStatements batch = .ok statements := by
  intro batch hbatch
  have hrows := (Run.shaped h hrtt).of_mem hbatch
  obtain ⟨statements, hstatements, _⟩ := insertStatements_ok hrows
  exact ⟨SchemaRows.sameColumns hrows, statements, hstatements⟩

/-- A tag value on its way to the database, and a round trip that waits. -/
def duringWrite : List Event := retriedWrite.take 3

theorem execute_duringWrite :
    (execute (step (.ofTexts [])) start duringWrite).isSome = true := by
  decide

theorem batches_insertable_duringWrite :
    let run := executed (step (.ofTexts [])) start duringWrite execute_duringWrite
    run.2.batches.map Dict.keys = [["heartbeat_rtt"], ["tags"]] ∧
      ∀ batch ∈ run.2.batches, SameColumns batch ∧
        ∃ statements, insertStatements batch = .ok statements :=
  ⟨by decide, batches_insertable (Run.executed execute_duringWrite)
    (forall_mem_executed (P := fun e => e.addsRtt = true) execute_duringWrite (by decide))⟩

end Tasks

end KepServerLogger.Ingestor
