import KepServerLogger.Base.Entries
import KepServerLogger.Proofs.Conservation

/-!
# What a cancelled flush loses

A flush holds its batch in a local variable while the write runs. When the
write raises, the handler puts the batch back; when the flush is cancelled
instead, nobody does. That is harmless while the write goes on and commits,
but a write that raises — afterwards, or before the task was woken — takes
its rows with it, although they were decoded and are in no table.

The account below has a place for everything, also for the batches of
cancelled flushes that are still being written and for the lost ones. Rows
leave the order they were produced in, since a later flush can commit before
an orphaned one, so it counts instead of concatenating.
-/

namespace KepServerLogger.Ingestor.Tasks

open KepServerLogger.Py KepServerLogger.Lib

variable {env : Externals} {s s' : Tasks} {e : Event}

/-! ## Cancelled flushes -/

theorem orphanRows_eraseIdx {i : Nat} {batch : Batch} (table : String)
    (hi : s.orphans[i]? = some batch) :
    (s.orphanRows table).Perm
      (batch.rows table ++ orphanRows { s with orphans := s.orphans.eraseIdx i } table) :=
  flatMap_eraseIdx_perm hi (·.rows table)

/-- One step of a cancelled flush or of the write it left behind. -/
theorem rows_step_detached (table : String) (hs : step env s e = some s')
    (hd : e.detached = true) :
    produced env table (s, e) = [] ∧ trimmed table (s, e) = [] ∧
      s'.pendingRows table = s.pendingRows table ∧
      ∃ now, s'.committedRows table = s.committedRows table ++ now ∧
        (s.orphanRows table ++ s.inFlight table).Perm
          (now ++ lost table (s, e) ++ (s'.orphanRows table ++ s'.inFlight table)) := by
  cases step_cases hs with
  | cancelRunning hflying =>
      refine ⟨rfl, rfl, rfl, [], (List.append_nil _).symm, ?_⟩
      simp only [lost, lostBatch, inFlight, hflying, orphanRows, List.flatMap_append,
        List.flatMap_singleton, Option.elim_none, List.nil_append, List.append_nil]
      exact List.Perm.refl _
  | cancelReturned hflying =>
      refine ⟨rfl, rfl, rfl, [], (List.append_nil _).symm, ?_⟩
      simp only [lost, lostBatch, inFlight, hflying, Option.elim_none, List.nil_append]
      exact List.Perm.refl _
  | cancelRaised hflying =>
      refine ⟨rfl, rfl, rfl, [], (List.append_nil _).symm, ?_⟩
      simp only [lost, lostBatch, inFlight, hflying, Option.elim_some, List.nil_append,
        List.append_nil]
      exact List.perm_append_comm
  | @orphanReturns i batch hi =>
      refine ⟨rfl, rfl, rfl, batch.rows table, committedRows_append s batch table, ?_⟩
      simp only [lost, lostBatch, Option.elim_none, List.append_nil]
      rw [← List.append_assoc]
      exact (orphanRows_eraseIdx table hi).append_right _
  | orphanRaises hi =>
      refine ⟨rfl, rfl, rfl, [], (List.append_nil _).symm, ?_⟩
      simp only [lost, lostBatch, hi, Option.elim_some, List.nil_append]
      rw [← List.append_assoc]
      exact (orphanRows_eraseIdx table hi).append_right _
  | onMetric | onTag | addModel | newSession | flush | writeReturns | writeRaises | wrote
  | failed => cases hd

/-- Every row that was produced is in exactly one place. -/
theorem Run.rows_count {tr : List (Tasks × Event)} (h : Run (step env) start tr s)
    (table : String) (r : Row) :
    (tr.flatMap (produced env table)).count r =
      (s.committedRows table).count r + (tr.flatMap (trimmed table)).count r +
        (tr.flatMap (lost table)).count r + (s.orphanRows table).count r +
        (s.inFlight table).count r + (s.pendingRows table).count r := by
  induction h with
  | nil => rfl
  | @snoc tr s s' e _ hs ih =>
      simp only [List.flatMap_append, List.flatMap_singleton, List.count_append]
      cases hd : e.detached with
      | false =>
          obtain ⟨⟨now, hcommitted, hrows⟩, horphans, hlost⟩ := rows_step table hs hd
          have hcount := congrArg (List.count r) hrows
          have hlost' : lost table (s, e) = [] := by rw [lost, hlost]; rfl
          have hsame : s'.orphanRows table = s.orphanRows table := by
            rw [orphanRows, horphans]; rfl
          simp only [List.count_append] at hcount
          rw [hcommitted, hlost', hsame, List.count_append, List.count_nil]
          omega
      | true =>
          obtain ⟨hproduced, htrimmed, hpending, now, hcommitted, hperm⟩ :=
            rows_step_detached table hs hd
          have hcount := hperm.count_eq r
          simp only [List.count_append] at hcount
          rw [hcommitted, hproduced, htrimmed, hpending, List.count_append, List.count_nil]
          omega

/-! ## Batches have rows -/

/-- No batch is without rows, wherever it is. -/
structure Filled (s : Tasks) : Prop where
  pending : Ingest.NonemptyTables s.ingest.pending
  flying : ∀ flight, s.flushing = some flight →
    Ingest.NonemptyTables flight.batch ∧ flight.batch.items ≠ []
  orphans : ∀ batch ∈ s.orphans, Ingest.NonemptyTables batch ∧ batch.items ≠ []

theorem Filled.step (h : Filled s) (hs : step env s e = some s') : Filled s' := by
  have hwritten : Written (fun batch => Ingest.NonemptyTables batch ∧ batch.items ≠ []) s :=
    ⟨h.flying, h.orphans⟩
  obtain ⟨hflying, horphans⟩ := hwritten.step hs fun _ => Ingest.flushStart_batch h.pending
  refine ⟨?_, hflying, horphans⟩
  cases step_cases hs with
  | onMetric | onTag =>
      show Ingest.NonemptyTables (s.ingest.put _).pending
      rw [(Ingest.put_frame _ _).1]
      exact h.pending
  | addModel => exact h.pending.extend (List.cons_ne_nil _ _)
  | flush hidle =>
      simp only [Ingest.flushStart]
      split
      · exact Ingest.NonemptyTables.decodeItems (s := { s.ingest with queue := ∅ }) h.pending _
      · exact fun _ hp => absurd hp List.not_mem_nil
  | failed hraised hfailed hlog =>
      have hpending := h.pending.flushFailed (h.flying _ hraised).1
      rw [hfailed] at hpending
      exact hpending
  | newSession | writeReturns | writeRaises | wrote | cancelRunning | cancelReturned | cancelRaised
  | orphanReturns | orphanRaises => exact h.pending

theorem Run.filled {tr : List (Tasks × Event)} (h : Run (step env) start tr s) : Filled s :=
  h.invariant ⟨fun _ hp => absurd hp List.not_mem_nil, nofun,
    fun _ hb => absurd hb List.not_mem_nil⟩ fun _ _ _ hi hs => hi.step hs

/-- A lost batch has rows in it. -/
theorem Filled.lost_ne_nil (h : Filled s) {batch : Batch} (hlost : lostBatch (s, e) = some batch) :
    ∃ table, lost table (s, e) ≠ [] := by
  have hbatch : Ingest.NonemptyTables batch ∧ batch.items ≠ [] := by
    cases e with
    | cancelFlush =>
        simp only [lostBatch] at hlost
        split at hlost
        · next b hflying =>
            cases hlost
            exact h.flying _ hflying
        · cases hlost
    | orphanRaises i =>
        exact h.orphans batch (List.mem_of_getElem? hlost)
    | onMetric | onTag | addModel | newSession | flush | writeReturns | writeRaises
    | flushResumes | orphanReturns => cases hlost
  obtain ⟨table, hrows⟩ := hbatch.1.rows_ne_nil hbatch.2
  refine ⟨table, ?_⟩
  rw [lost, hlost]
  exact hrows

/-! ## When nothing is lost -/

/-- Once no write is running, every row that was produced is committed, was
trimmed or is pending, exactly if no write whose flush was cancelled has
raised. -/
theorem rows_kept_iff {tr : List (Tasks × Event)} (h : Run (step env) start tr s)
    (hidle : s.flushing = none) (horphans : s.orphans = []) :
    (∀ table, (tr.flatMap (produced env table)).Perm
      (s.committedRows table ++ tr.flatMap (trimmed table) ++ s.pendingRows table)) ↔
    ∀ p ∈ tr, lostBatch p = none := by
  have hrows : ∀ table r, (tr.flatMap (produced env table)).count r =
      (s.committedRows table ++ tr.flatMap (trimmed table) ++ s.pendingRows table).count r +
        (tr.flatMap (lost table)).count r := by
    intro table r
    have hcount := Run.rows_count h table r
    rw [inFlight, hidle, orphanRows, horphans, List.flatMap_nil, List.count_nil] at hcount
    simp only [List.count_append]
    omega
  constructor
  · intro hperm p hp
    cases hlost : lostBatch p with
    | none => rfl
    | some batch =>
        obtain ⟨_, _, _, hpre, _⟩ := h.of_mem hp
        obtain ⟨table, hne⟩ := (Run.filled hpre).lost_ne_nil hlost
        obtain ⟨r, rest, hr⟩ := List.exists_cons_of_ne_nil hne
        have hmem : r ∈ tr.flatMap (lost table) :=
          List.mem_flatMap.mpr ⟨p, hp, by rw [hr]; exact List.mem_cons_self⟩
        have hpos := List.count_pos_iff.mpr hmem
        have heq := (hperm table).count_eq r
        have hcount := hrows table r
        omega
  · intro hnone table
    rw [List.perm_iff_count]
    intro r
    have hlost : tr.flatMap (lost table) = [] := by
      rw [List.flatMap_eq_nil_iff]
      intro p hp
      rw [lost, hnone p hp]
      rfl
    rw [hrows table r, hlost, List.count_nil, Nat.add_zero]

/-- A tag value whose flush is cancelled at its await, as a session that ends
does, before the write raises. -/
def cancelledWrite : List Event :=
  [.onTag "Line1.Speed" (.good (.int 7)) ⟨⟨2026, 1, 1, 12, 0, 0, 0, by decide⟩, some .utc⟩,
    .flush, .cancelFlush, .orphanRaises 0]

theorem execute_cancelledWrite :
    (execute (step (.ofTexts [])) start cancelledWrite).isSome = true := by
  decide

theorem cancelledWrite_loses_row :
    let run := executed (step (.ofTexts [])) start cancelledWrite execute_cancelledWrite
    Run (step (.ofTexts [])) start run.1 run.2 ∧ run.2.flushing = none ∧ run.2.orphans = [] ∧
    ¬ (run.1.flatMap (produced (.ofTexts []) "tags")).Perm
      (run.2.committedRows "tags" ++ run.1.flatMap (trimmed "tags") ++
        run.2.pendingRows "tags") :=
  ⟨Run.executed execute_cancelledWrite, by decide, by decide,
    fun h => absurd h.length_eq (by decide)⟩

theorem rows_kept_iff_retriedWrite :
    let run := executed (step (.ofTexts [])) start retriedWrite execute_retriedWrite
    (∀ table, (run.1.flatMap (produced (.ofTexts []) table)).Perm
      (run.2.committedRows table ++ run.1.flatMap (trimmed table) ++ run.2.pendingRows table)) ↔
    ∀ p ∈ run.1, lostBatch p = none :=
  rows_kept_iff (Run.executed execute_retriedWrite) (by decide) (by decide)

end KepServerLogger.Ingestor.Tasks
