import KepServerLogger.Proofs.NodeValues

/-!
# How much is held in an outage

While the database is away every write fails, and the rows of every batch go
back to wait. What bounds them is the trimming: a failed write leaves as many
rows of a table as the bound at the most, and the next batch takes all of these
with it and adds what one full queue decodes to. While it is being written no
row of a table is waiting beside it, since rows wait only after a failure; the
exception are the models that the ingestor measures itself.

A batch that a cancelled flush has left behind is held by its thread, and is
within the same bound.
-/

namespace KepServerLogger.Ingestor

open KepServerLogger.Py KepServerLogger.Lib

variable {env : Externals} {table : String}

/-- How many rows an item can make for a table. -/
def Item.rowCount (env : Externals) (table : String) (item : Item) : Nat :=
  match item.kind with
  | .tag => if table = "tags" then 1 else 0
  | .metric => (item.rows env table).length

/-- A batch has the rows that wait after a failure, and those of a full queue. -/
def maxBatchRows (rowsPerItem : Nat) : Nat := maxPendingRowsPerTable + queueMaxItems * rowsPerItem

namespace Ingest

variable {s : Ingest} {item : Item}

theorem length_rows_extend (pending : Batch) (table' : String) (rows : List Row) :
    ((pending.extend table' rows).rows table).length =
      (pending.rows table).length + if table' = table then rows.length else 0 := by
  rw [Dict.rows_extend, List.length_append]
  split <;> rfl

theorem length_decodeNext :
    ((s.decodeNext env item).pending.rows table).length ≤
      (s.pending.rows table).length + item.rowCount env table := by
  unfold Item.rowCount
  cases hkind : item.kind with
  | tag =>
      simp only [decodeNext, decodeItem, addTag, hkind]
      cases item.dataValue.value with
      | none => exact Nat.le_add_right _ _
      | some value =>
          dsimp only
          rw [length_rows_extend]
          by_cases htags : table = "tags"
          · rw [if_pos htags, if_pos htags.symm]
            exact Nat.le_refl _
          · rw [if_neg htags, if_neg (Ne.symm htags)]
  | metric =>
      cases hx : item.sample? env with
      | none =>
          rw [rows_decodeNext_of_no_sample hx (.inr hkind)]
          exact Nat.le_add_right _ _
      | some p =>
          obtain ⟨metric, x⟩ := p
          simp only [Item.rows, hx]
          rw [decodeNext_of_sample hx]
          split
          · exact Nat.le_add_right _ _
          · dsimp only
            rw [length_rows_extend]
            split
            · exact Nat.le_refl _
            · exact Nat.le_refl _

theorem length_decodeItems {d : Nat} (items : List Item) (s : Ingest)
    (hitems : ∀ item ∈ items, item.rowCount env table ≤ d) :
    ((decodeItems env s items).1.pending.rows table).length ≤
      (s.pending.rows table).length + items.length * d := by
  induction items generalizing s with
  | nil => exact Nat.le_add_right _ _
  | cons item rest ih =>
      obtain ⟨hitem, hrest⟩ := List.forall_mem_cons.mp hitems
      have hnext : ((s.decodeNext env item).pending.rows table).length ≤
          (s.pending.rows table).length + item.rowCount env table := length_decodeNext
      have hih := ih (s.decodeNext env item) hrest
      rw [decodeItems_cons, List.length_cons, Nat.add_mul]
      omega

end Ingest

namespace Tasks

variable {s s' : Tasks} {e : Event} {d : Nat} {tr : List (Tasks × Event)}

/-- What is held of a table. -/
structure Bounded (env : Externals) (table : String) (d : Nat) (s : Tasks) : Prop where
  queued : ∀ item ∈ s.ingest.queue.items, item.rowCount env table ≤ d
  waiting : (s.pendingRows table).length ≤ maxPendingRowsPerTable
  alone : s.flushing ≠ none → s.pendingRows table = []
  batches : Written (fun batch => (batch.rows table).length ≤ maxBatchRows d) s

/-- An item that is put on the queue. -/
theorem Bounded.put (h : Bounded env table d s) (item : Item)
    (hitem : item.rowCount env table ≤ d) :
    Bounded env table d { s with ingest := s.ingest.put item } := by
  have hpending := (Ingest.put_frame s.ingest item).1
  refine ⟨fun queued hqueued => ?_, ?_, ?_, ⟨h.batches.flying, h.batches.orphans⟩⟩
  · have hmem : queued ∈ s.ingest.queue.items ++ [item] := by
      by_cases hfull : s.ingest.queue.full
      · rw [show queued ∈ (s.ingest.put item).queue.items ↔ _ from
          by rw [(Ingest.put_of_full item hfull).1]] at hqueued
        rcases List.mem_append.mp hqueued with hmem | hmem
        · exact List.mem_append_left _ (List.mem_of_mem_tail hmem)
        · exact List.mem_append_right _ hmem
      · rw [← (Ingest.put_of_not_full item hfull).1]
        exact hqueued
    rcases List.mem_append.mp hmem with hmem | hmem
    · exact h.queued queued hmem
    · rw [List.mem_singleton.mp hmem]
      exact hitem
  · show ((s.ingest.put item).pending.rows table).length ≤ _
    rw [hpending]
    exact h.waiting
  · intro hflushing
    show (s.ingest.put item).pending.rows table = []
    rw [hpending]
    exact h.alone hflushing

theorem Bounded.step (h : Bounded env table d s) (hs : step env s e = some s')
    (hitems : ∀ item ∈ arrivals (s, e), item.rowCount env table ≤ d)
    (hmodels : ∀ model, e ≠ .addModel table model) : Bounded env table d s' := by
  have hwritten : ∀ batch, (s.ingest.flushStart env).2.1 = some batch →
      (batch.rows table).length ≤ maxBatchRows d := by
    intro batch hbatch
    have hrows := (Ingest.flushStart_rows env s.ingest table).1
    rw [hbatch] at hrows
    have hdecoded := Ingest.length_decodeItems s.ingest.queue.items
      { s.ingest with queue := ∅, pending := ∅ } h.queued
    have hempty : ((∅ : Batch).rows table).length = 0 := congrArg List.length (Dict.rows_empty table)
    have hqueue := Nat.mul_le_mul_right d s.ingest.queue.bounded
    have hwaiting := h.waiting
    have hlength := congrArg List.length hrows
    rw [List.length_append] at hlength
    show (batch.rows table).length ≤ maxPendingRowsPerTable + queueMaxItems * d
    exact (Nat.le_of_eq hlength).trans (Nat.add_le_add hwaiting
      (hdecoded.trans (by rw [hempty, Nat.zero_add]; exact hqueue)))
  have hbatches := h.batches.step hs hwritten
  cases step_cases hs with
  | onMetric name dataValue receivedAt | onTag tag dataValue receivedAt =>
      exact h.put _ (hitems _ List.mem_cons_self)
  | addModel table' model =>
      have hne : table' ≠ table := fun heq => hmodels model (by rw [heq])
      have hrows : (s.ingest.addModel table' model).pending.rows table =
          s.ingest.pending.rows table :=
        (Dict.rows_extend _ _ _ _).trans (by rw [if_neg hne, List.append_nil])
      refine ⟨h.queued, ?_, fun hflushing => ?_, hbatches⟩
      · rw [pendingRows, hrows]
        exact h.waiting
      · rw [pendingRows, hrows]
        exact h.alone hflushing
  | newSession metrics => exact ⟨h.queued, h.waiting, h.alone, hbatches⟩
  | flush hidle =>
      have hnone := (Ingest.flushStart_rows env s.ingest table).2
      have hqueue : (s.ingest.flushStart env).1.queue.items = [] := by
        rw [(Ingest.flushStart_queue env s.ingest).1]
        rfl
      refine ⟨fun item hitem => ?_, ?_, fun _ => hnone, hbatches⟩
      · rw [hqueue] at hitem
        cases hitem
      · rw [pendingRows, hnone]
        exact Nat.zero_le _
  | writeReturns hflying | writeRaises hflying =>
      exact ⟨h.queued, h.waiting, fun _ => h.alone (by rw [hflying]; exact Option.some_ne_none _),
        hbatches⟩
  | wrote hflying =>
      exact ⟨h.queued, h.waiting, fun hne => absurd rfl hne, hbatches⟩
  | @failed batch pending records hflying hfailed =>
      refine ⟨h.queued, ?_, fun hne => absurd rfl hne, hbatches⟩
      obtain ⟨pending', heq, -, hin, hout⟩ := Ingest.flushFailed_spec s.ingest batch
      obtain rfl : pending = pending' :=
        congrArg Ingest.pending (hfailed.symm.trans heq)
      show (pending.rows table).length ≤ maxPendingRowsPerTable
      by_cases hmem : table ∈ batch.keys
      · rw [hin table hmem, Ingest.kept, List.length_drop]
        omega
      · have hnone : s.ingest.pending.rows table = [] :=
          h.alone (by rw [hflying]; exact Option.some_ne_none _)
        rw [hout table hmem, hnone]
        exact Nat.zero_le _
  | cancelRunning hflying | cancelReturned hflying | cancelRaised hflying =>
      exact ⟨h.queued, h.waiting, fun hne => absurd rfl hne, hbatches⟩
  | orphanReturns | orphanRaises => exact ⟨h.queued, h.waiting, h.alone, hbatches⟩

theorem bounded (h : Run (step env) start tr s)
    (hitems : ∀ p ∈ tr, ∀ item ∈ arrivals p, item.rowCount env table ≤ d)
    (hmodels : ∀ p ∈ tr, ∀ model, p.2 ≠ .addModel table model) : Bounded env table d s := by
  induction h with
  | nil =>
      refine ⟨fun _ hitem => absurd hitem List.not_mem_nil, Nat.zero_le _, fun _ => rfl, ?_⟩
      exact ⟨fun _ hflight => (by cases hflight), fun _ hbatch => absurd hbatch List.not_mem_nil⟩
  | snoc _ hs ih =>
      rw [List.forall_mem_append, List.forall_mem_singleton] at hitems hmodels
      exact (ih hitems.1 hmodels.1).step hs hitems.2 hmodels.2

/-- However often the writes of a run fail: what is waiting of a table that
the ingestor measures nothing for, with what is being written of it, is no more
than the bound of the trimming and the rows of one full queue; and so is what a
cancelled flush has left to its thread. -/
theorem memory_bounded (h : Run (step env) start tr s)
    (hitems : ∀ p ∈ tr, ∀ item ∈ arrivals p, item.rowCount env table ≤ d)
    (hmodels : ∀ p ∈ tr, ∀ model, p.2 ≠ .addModel table model) :
    (s.inFlight table).length + (s.pendingRows table).length ≤ maxBatchRows d ∧
      (s.pendingRows table).length ≤ maxPendingRowsPerTable ∧
      ∀ batch ∈ s.orphans, (batch.rows table).length ≤ maxBatchRows d := by
  have hbounded := bounded h hitems hmodels
  refine ⟨?_, hbounded.waiting, hbounded.batches.orphans⟩
  have hwaiting := hbounded.waiting.trans (Nat.le_add_right _ (queueMaxItems * d))
  unfold inFlight
  split
  · exact (Nat.le_of_eq (Nat.zero_add _)).trans hwaiting
  · next batch _ _ hflying =>
      have hnone := hbounded.alone (by rw [hflying]; exact Option.some_ne_none _)
      rw [hnone]
      exact hbounded.batches.flying _ hflying
  · exact (Nat.le_of_eq (Nat.zero_add _)).trans hwaiting

/-- Two tag values, in writes that fail. -/
def failingWrites : List Event :=
  let speed : Event := .onTag "Line1.Speed" (.good (.int 7)) ⟨early, some .utc⟩
  [speed, .flush, .writeRaises, .flushResumes, speed, .flush, .writeRaises, .flushResumes, .flush]

theorem execute_failingWrites :
    (execute (step (.ofTexts [])) start failingWrites).isSome = true := by
  decide

theorem memory_bounded_failingWrites :
    let run := executed (step (.ofTexts [])) start failingWrites execute_failingWrites
    (run.2.inFlight "tags").length = 2 ∧
      (run.2.inFlight "tags").length + (run.2.pendingRows "tags").length ≤ maxBatchRows 1 := by
  refine ⟨by decide, (memory_bounded (d := 1) (Run.executed execute_failingWrites) ?_ ?_).1⟩
  · decide
  · exact forall_mem_executed (P := fun e => ∀ model, e ≠ .addModel "tags" model)
      execute_failingWrites (by simp [failingWrites])

end Tasks

end KepServerLogger.Ingestor
