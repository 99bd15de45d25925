import Mathlib.Data.List.ReduceOption
import KepServerLogger.Ingestor.Server
import KepServerLogger.Proofs.SchemaRows

/-!
# One row that cannot be stored

A text with U+0000 in it is a value that PostgreSQL refuses wherever it
stands. Such a row decodes like any other, a string tag of a PLC is enough,
and from then on it is part of the batch. All tables of a batch share one
transaction, so the refusal is the whole batch's: nothing is committed, and
everything is put back to be written again together with the same row.

Nothing else makes a write fail here, because every row is a row of the
schema. So the rows of a flush are committed exactly if none of them is
refused, and which rows wait for how long is decided by that alone.
-/

namespace KepServerLogger.Ingestor

open KepServerLogger.Py KepServerLogger.Lib

/-! ## The statements of a batch -/

/-- `list(rows[0])` -/
def columnsOf : List Row → List String
  | [] => []
  | first :: _ => first.keys

def writeOf (table : String) (columns : List String) (row : Row) : Write :=
  ⟨table, columns, columns.map fun c => row.getD c .none⟩

def statementOf (table : String) : List Row → Option Statement
  | [] => none
  | first :: rest =>
      some ⟨insertQuery table first.keys, table, first.keys,
        (first :: rest).map fun row => first.keys.map fun c => row.getD c .none⟩

theorem rowValues_ok {columns : List String} {row : Row} (h : ∀ c ∈ columns, c ∈ row.keys) :
    rowValues columns row = .ok (columns.map fun c => row.getD c .none) := by
  refine mapM_ok fun c hc => ?_
  cases hget : row.get? c with
  | none => exact absurd (h c hc) (Dict.get?_eq_none.mp hget)
  | some v => simp only [Dict.getD, hget, Option.getD_some]

theorem validateIdentifier_schema {table : String} {columns : List String}
    (h : schema.get? table = some columns) :
    ∀ identifier ∈ table :: columns, validateIdentifier identifier = .ok () := by
  have hall : ∀ p ∈ schema.items, ∀ identifier ∈ p.1 :: p.2,
      identifierRe identifier.toList = true := by decide
  intro identifier hi
  rw [validateIdentifier, if_pos (hall _ (Dict.get?_eq_some.mp h) identifier hi)]

variable {table : String} {rows : List Row} {row : Row}

theorem columnsOf_perm (h : ∀ row ∈ rows, RowOfSchema table row) (hrow : row ∈ rows) :
    (columnsOf rows).Perm row.keys := by
  cases rows with
  | nil => exact absurd hrow List.not_mem_nil
  | cons first rest =>
      obtain ⟨columns, hget, hperm⟩ := h first List.mem_cons_self
      obtain ⟨columns', hget', hperm'⟩ := h row hrow
      rw [hget] at hget'
      cases hget'
      exact hperm.trans hperm'.symm

theorem insertStatement_ok (h : ∀ row ∈ rows, RowOfSchema table row) :
    insertStatement table rows = .ok (statementOf table rows) := by
  cases rows with
  | nil => rfl
  | cons first rest =>
      obtain ⟨columns, hget, hperm⟩ := h first List.mem_cons_self
      have hvalid : (table :: first.keys).forM validateIdentifier = .ok () := by
        refine forM_ok fun identifier hi => validateIdentifier_schema hget identifier ?_
        rcases List.mem_cons.mp hi with rfl | hi
        · exact List.mem_cons_self
        · exact List.mem_cons_of_mem _ (hperm.mem_iff.mp hi)
      have hparams : (first :: rest).mapM (rowValues first.keys) =
          .ok ((first :: rest).map fun row => first.keys.map fun c => row.getD c .none) :=
        mapM_ok fun row hrow => rowValues_ok fun c hc => (columnsOf_perm h hrow).mem_iff.mp hc
      simp only [insertStatement, hvalid, hparams]
      rfl

theorem mem_writes_statementOf {w : Write} :
    (∃ st, statementOf table rows = some st ∧ w ∈ st.writes) ↔
      ∃ row ∈ rows, w = writeOf table (columnsOf rows) row := by
  cases rows with
  | nil => simp [statementOf]
  | cons first rest =>
      have hwrites : ∀ w, w ∈ (Statement.mk (insertQuery table first.keys) table first.keys
          ((first :: rest).map fun row => first.keys.map fun c => row.getD c .none)).writes ↔
          ∃ row ∈ first :: rest, w = writeOf table first.keys row := by
        intro w
        simp only [Statement.writes, List.map_map, List.mem_map, eq_comm (a := w)]
        rfl
      constructor
      · rintro ⟨st, hst, hw⟩
        cases hst
        exact (hwrites w).mp hw
      · intro hw
        exact ⟨_, rfl, (hwrites w).mpr hw⟩

/-- A write has the values of its row. -/
theorem mem_values {columns : List String} (h : columns.Perm row.keys) {v : PyValue} :
    v ∈ (writeOf table columns row).values ↔ ∃ p ∈ row.items, p.2 = v := by
  simp only [writeOf, List.mem_map]
  constructor
  · rintro ⟨c, hc, rfl⟩
    obtain ⟨p, hp, rfl⟩ := List.mem_map.mp (h.mem_iff.mp hc)
    exact ⟨p, hp, by rw [Dict.getD, Dict.get?_eq_some.mpr hp, Option.getD_some]⟩
  · rintro ⟨p, hp, rfl⟩
    refine ⟨p.1, h.mem_iff.mpr (List.mem_map_of_mem hp), ?_⟩
    rw [Dict.getD, Dict.get?_eq_some.mpr hp, Option.getD_some]

theorem accepts_writeOf {accepts : Write → Bool} (hdb : RefusesOnlyNul accepts)
    (h : ∀ row ∈ rows, RowOfSchema table row) (hrow : row ∈ rows) :
    accepts (writeOf table (columnsOf rows) row) = true ↔ Storable row := by
  have hperm := columnsOf_perm h hrow
  constructor
  · intro haccepts p hp
    by_contra hnul
    have hrefused := hdb.nul (writeOf table (columnsOf rows) row)
      ⟨p.2, (mem_values hperm).mpr ⟨p, hp, rfl⟩, by simpa using hnul⟩
    rw [haccepts] at hrefused
    cases hrefused
  · intro hstorable
    obtain ⟨columns, hget, hcolumns⟩ := h row hrow
    refine hdb.others _ ⟨List.length_map _, columns, hget, hperm.trans hcolumns⟩ fun v hv => ?_
    obtain ⟨p, hp, rfl⟩ := (mem_values hperm).mp hv
    exact hstorable p hp

/-- The writes of a batch. -/
def writesOf (batch : Batch) : List Write :=
  (batch.items.map fun p => statementOf p.1 p.2).reduceOption.flatMap Statement.writes

theorem mem_writesOf {batch : Batch} {w : Write} :
    w ∈ writesOf batch ↔
      ∃ p ∈ batch.items, ∃ row ∈ p.2, w = writeOf p.1 (columnsOf p.2) row := by
  rw [writesOf, List.mem_flatMap]
  constructor
  · rintro ⟨st, hst, hw⟩
    obtain ⟨p, hp, heq⟩ := List.mem_map.mp (List.reduceOption_mem_iff.mp hst)
    exact ⟨p, hp, mem_writes_statementOf.mp ⟨st, heq, hw⟩⟩
  · rintro ⟨p, hp, hw⟩
    obtain ⟨st, hst, hw⟩ := mem_writes_statementOf.mpr hw
    exact ⟨st, List.reduceOption_mem_iff.mpr (hst ▸ List.mem_map_of_mem hp), hw⟩

theorem rows_of_mem_items {batch : Batch} {p : String × List Row} (hp : p ∈ batch.items) :
    batch.rows p.1 = p.2 := by
  rw [Dict.rows, Dict.getD, Dict.get?_eq_some.mpr hp, Option.getD_some]

theorem mem_items_of_row {batch : Batch} (hrow : row ∈ batch.rows table) :
    (table, batch.rows table) ∈ batch.items := by
  cases hget : batch.get? table with
  | none =>
      rw [Dict.rows, Dict.getD, hget] at hrow
      exact absurd hrow List.not_mem_nil
  | some rows =>
      have hp := Dict.get?_eq_some.mp hget
      rw [rows_of_mem_items hp]
      exact hp

theorem SchemaRows.of_mem_items {batch : Batch} (h : SchemaRows batch) {p : String × List Row}
    (hp : p ∈ batch.items) : ∀ row ∈ p.2, RowOfSchema p.1 row := by
  intro row hrow
  refine h p.1 row ?_
  rw [rows_of_mem_items hp]
  exact hrow

theorem insertStatements_ok {batch : Batch} (h : SchemaRows batch) :
    ∃ statements, insertStatements batch = .ok statements ∧
      statements.flatMap Statement.writes = writesOf batch := by
  refine ⟨_, ?_, rfl⟩
  rw [insertStatements, mapM_ok fun p hp => insertStatement_ok (h.of_mem_items hp)]
  rfl

theorem all_accepts_writesOf {accepts : Write → Bool} (hdb : RefusesOnlyNul accepts)
    {batch : Batch} (h : SchemaRows batch) :
    (writesOf batch).all accepts = true ↔ BatchStorable batch := by
  rw [List.all_eq_true]
  constructor
  · intro haccepts table row hrow
    have hp := mem_items_of_row hrow
    exact (accepts_writeOf hdb (h.of_mem_items hp) hrow).mp
      (haccepts _ (mem_writesOf.mpr ⟨_, hp, row, hrow, rfl⟩))
  · intro hstorable w hw
    obtain ⟨p, hp, row, hrow, rfl⟩ := mem_writesOf.mp hw
    refine (accepts_writeOf hdb (h.of_mem_items hp) hrow).mpr (hstorable p.1 row ?_)
    rw [rows_of_mem_items hp]
    exact hrow

/-- All or nothing. -/
theorem insertMany_returns_iff {accepts : Write → Bool} (hdb : RefusesOnlyNul accepts)
    {batch : Batch} (h : SchemaRows batch) :
    (Request.insertMany batch).returns accepts true = true ↔ BatchStorable batch := by
  obtain ⟨statements, hstatements, hwrites⟩ := insertStatements_ok h
  rw [← all_accepts_writesOf hdb h, ← hwrites, Request.returns, Request.statements, hstatements]
  cases statements <;> exact Iff.rfl

/-! ## The writes of a run -/

namespace Tasks

variable {env : Externals} {s s' : Tasks} {e : Event}

/-- The batch of a write that ends in this step, and whether it returns. -/
def writeEnds : Tasks × Event → Option (Batch × Bool)
  | (s, .writeReturns) =>
      match s.flushing with
      | some ⟨batch, .running⟩ => some (batch, true)
      | _ => none
  | (s, .writeRaises) =>
      match s.flushing with
      | some ⟨batch, .running⟩ => some (batch, false)
      | _ => none
  | (s, .orphanReturns i) => s.orphans[i]?.map (·, true)
  | (s, .orphanRaises i) => s.orphans[i]?.map (·, false)
  | _ => none

/-- The rows a step commits to a table. -/
def writtenRows (table : String) (p : Tasks × Event) : List Row :=
  match writeEnds p with
  | some (batch, true) => batch.rows table
  | _ => []

/-- A write returns exactly if the database takes its batch. -/
def answers (accepts : Write → Bool) (p : Tasks × Event) : Bool :=
  (writeEnds p).all fun w => w.2 = (Request.insertMany w.1).returns accepts true

/-- Against a database that refuses only what it can never store: the write of
a flush commits every storable row that was pending when the flush started,
exactly if all the rows it writes are storable or none of those was. -/
theorem flush_commits_storable_iff {accepts : Write → Bool} (hdb : RefusesOnlyNul accepts)
    {tr : List (Tasks × Event)} (h : Run (step env) start tr s)
    (hanswers : ∀ p ∈ tr, answers accepts p = true) (hrtt : ∀ p ∈ tr, p.2.addsRtt = true)
    {t : Tasks} (hflush : (t, .flush) ∈ tr) {batch : Batch}
    (hbatch : (t.ingest.flushStart env).2.1 = some batch)
    {q : Tasks × Event} (hq : q ∈ tr) {returned : Bool}
    (hends : writeEnds q = some (batch, returned)) :
    (∀ table, ∀ row ∈ t.pendingRows table, Storable row → row ∈ writtenRows table q) ↔
      BatchStorable batch ∨ ∀ table, ∀ row ∈ t.pendingRows table, ¬ Storable row := by
  obtain ⟨pre, _, hpre, hrun, _⟩ := h.of_mem hflush
  have hschema := Run.batch_schemaRows hrun (fun p hp => hrtt p (hpre.subset hp)) hbatch
  have hstorable := insertMany_returns_iff hdb hschema
  have hanswer := hanswers q hq
  rw [answers, hends, Option.all_some, decide_eq_true_eq] at hanswer
  rw [← hanswer] at hstorable
  cases returned with
  | true =>
      refine iff_of_true (fun table row hrow _ => ?_) (Or.inl (hstorable.mp rfl))
      have hrows := (Ingest.flushStart_rows env t.ingest table).1
      rw [hbatch, Option.elim_some] at hrows
      simp only [writtenRows, hends, hrows]
      exact List.mem_append_left _ hrow
  | false =>
      have hnot : ¬ BatchStorable batch := fun hall => absurd (hstorable.mpr hall) (by simp)
      simp only [writtenRows, hends, List.not_mem_nil, hnot, false_or]

/-! ## A tag with U+0000 in it -/

def tagArrives (tag value : String) : Event :=
  .onTag tag (.good (.str value)) ⟨⟨2026, 1, 1, 12, 0, 1, 0, by decide⟩, some .utc⟩

/-- The first write is refused. When the second starts, the speed has been
pending since the first. -/
def nulTag : List Event :=
  [tagArrives "Line1.Name" "\x00", tagArrives "Line1.Speed" "7", .flush, .writeRaises,
    .flushResumes, .flush, .writeRaises]

theorem execute_nulTag : (execute (step (.ofTexts [])) start nulTag).isSome = true := by
  decide

theorem nulTag_blocks_speed :
    let run := executed (step (.ofTexts [])) start nulTag execute_nulTag
    RefusesOnlyNul acceptsNoNul ∧ Run (step (.ofTexts [])) start run.1 run.2 ∧
      (∀ p ∈ run.1, answers acceptsNoNul p = true) ∧ (∀ p ∈ run.1, p.2.addsRtt = true) ∧
      ∃ t q, (t, .flush) ∈ run.1 ∧ q ∈ run.1 ∧
        (writeEnds q).map Prod.fst = (t.ingest.flushStart (.ofTexts [])).2.1 ∧
        ∃ row ∈ t.pendingRows "tags", Storable row ∧ row ∉ writtenRows "tags" q := by
  intro run
  refine ⟨refusesOnlyNul_acceptsNoNul, Run.executed execute_nulTag, by decide, by decide,
    (run.1.get ⟨5, by decide⟩).1, run.1.get ⟨6, by decide⟩, by decide, by decide, by decide, ?_⟩
  decide

theorem flush_commits_storable_nulTag :
    let run := executed (step (.ofTexts [])) start nulTag execute_nulTag
    let t := (run.1.get ⟨5, by decide⟩).1
    let q := run.1.get ⟨6, by decide⟩
    (∀ table, ∀ row ∈ t.pendingRows table, Storable row → row ∈ writtenRows table q) ↔
      BatchStorable ((t.ingest.flushStart (.ofTexts [])).2.1.get (by decide)) ∨
        ∀ table, ∀ row ∈ t.pendingRows table, ¬ Storable row := by
  intro run t q
  have hflush : (t, .flush) ∈ run.1 := by decide
  have hends : writeEnds q =
      some ((t.ingest.flushStart (.ofTexts [])).2.1.get (by decide), false) := by decide
  exact flush_commits_storable_iff refusesOnlyNul_acceptsNoNul (Run.executed execute_nulTag)
    (by decide) (by decide) hflush (Option.some_get _).symm (List.get_mem _ _) hends

end Tasks

end KepServerLogger.Ingestor
