import KepServerLogger.Ingestor.Tables
import KepServerLogger.Proofs.Cancellation
import KepServerLogger.Proofs.Dedup
import KepServerLogger.Proofs.SchemaRows

/-!
# Redelivered values

A metric that is idempotent stores whatever it is sent, so that a value that
is sent again is a row that is offered again. The table keeps the first row
of each key it is offered; what it ends up with is therefore decided by the
order in which rows are committed, and that is the order in which they are
produced as long as every batch that was moved out comes to be committed
before the next is moved out. A flush that is cancelled breaks that: its
batch may be overtaken by the next, or be lost, and a value that is sent
again then is the first the table sees.

Rows that `add_model` puts into the same table come between the decoded ones
wherever the flushes happen to be. They do not matter to the decoded ones
when the two have no key in common.
-/

namespace KepServerLogger.Ingestor

open KepServerLogger.Py KepServerLogger.Lib

namespace Tasks

variable {env : Externals} {table : String} {s s' : Tasks} {e : Event}

/-! ## Rows are committed in the order they are produced -/

/-- No batch is lost, and none is overtaken: no flush starts a write while that
of a cancelled one is running. -/
def keepsOrder (env : Externals) : Tasks × Event → Bool
  | (s, .flush) => s.orphans.isEmpty || (s.ingest.flushStart env).2.1.isNone
  | p => (lostBatch p).isNone

/-- What has been produced, from the oldest row to the newest, and at most one
batch on its way. -/
structure Ordered (env : Externals) (table : String) (tr : List (Tasks × Event)) (s : Tasks) :
    Prop where
  single : s.orphans = [] ∨ s.flushing = none ∧ s.orphans.length = 1
  rows : tr.flatMap (produced env table) =
    s.committedRows table ++ (s.orphanRows table ++ (s.inFlight table ++ s.pendingRows table))

/-- Nothing is committed while no flush is waiting, but by an orphan. -/
theorem committed_of_idle (hs : step env s e = some s') (hd : e.detached = false)
    (hidle : s.flushing = none) : s'.committed = s.committed := by
  cases e with
  | onMetric | onTag | addModel | newSession =>
      cases hs
      rfl
  | flush =>
      simp only [step, hidle, Option.some.injEq] at hs
      rw [← hs]
  | writeReturns | writeRaises | flushResumes =>
      simp only [step, hidle] at hs
      cases hs
  | cancelFlush | orphanReturns | orphanRaises => cases hd

/-- A flush starts a write where none is waiting. -/
theorem single_of_attached (hs : step env s e = some s') (hd : e.detached = false)
    (hflush : e = .flush → s.orphans = [] ∨ (s.ingest.flushStart env).2.1 = none)
    (h : s.orphans = [] ∨ s.flushing = none ∧ s.orphans.length = 1) :
    s'.orphans = [] ∨ s'.flushing = none ∧ s'.orphans.length = 1 := by
  have horphans := (rows_step "" hs hd).2.1
  rw [horphans]
  rcases h with h | ⟨hidle, hone⟩
  · exact .inl h
  · cases e with
    | onMetric | onTag | addModel | newSession =>
        cases hs
        exact .inr ⟨hidle, hone⟩
    | flush =>
        rcases hflush rfl with hnil | hnone
        · exact .inl hnil
        · simp only [step, hidle, Option.some.injEq] at hs
          exact .inr ⟨by rw [← hs, hnone]; rfl, hone⟩
    | writeReturns | writeRaises | flushResumes =>
        simp only [step, hidle] at hs
        cases hs
    | cancelFlush | orphanReturns | orphanRaises => cases hd

theorem orphanRows_of_nil (h : s.orphans = []) : s.orphanRows table = [] := by
  rw [orphanRows, h]
  rfl

theorem Ordered.attached {tr : List (Tasks × Event)} (h : Ordered env table tr s)
    (hs : step env s e = some s') (hd : e.detached = false) (hkeeps : keepsOrder env (s, e) = true)
    (htrim : trimmed table (s, e) = []) : Ordered env table (tr ++ [(s, e)]) s' := by
  obtain ⟨⟨now, hcommitted, hrows⟩, horphans, _⟩ := rows_step table hs hd
  have hflush : e = .flush → s.orphans = [] ∨ (s.ingest.flushStart env).2.1 = none := by
    rintro rfl
    simpa [keepsOrder] using hkeeps
  refine ⟨single_of_attached hs hd hflush h.single, ?_⟩
  have hnow : s.orphanRows table ++ now = now ++ s.orphanRows table := by
    rcases h.single with hnil | ⟨hidle, _⟩
    · rw [orphanRows_of_nil hnil, List.nil_append, List.append_nil]
    · have hsame : s'.committedRows table = s.committedRows table := by
        rw [committedRows, committedRows, committed_of_idle hs hd hidle]
      rw [hsame] at hcommitted
      rw [List.self_eq_append_right.mp hcommitted, List.nil_append, List.append_nil]
  have hsameOrphans : s'.orphanRows table = s.orphanRows table := by
    rw [orphanRows, orphanRows, horphans]
  rw [htrim, List.nil_append] at hrows
  rw [List.flatMap_append, List.flatMap_singleton, h.rows, hcommitted, hsameOrphans]
  calc s.committedRows table ++
        (s.orphanRows table ++ (s.inFlight table ++ s.pendingRows table)) ++
          produced env table (s, e)
      = s.committedRows table ++ (s.orphanRows table ++
          (s.inFlight table ++ s.pendingRows table ++ produced env table (s, e))) := by
        simp only [List.append_assoc]
    _ = s.committedRows table ++ (s.orphanRows table ++ now ++
          (s'.inFlight table ++ s'.pendingRows table)) := by
        rw [hrows, List.append_assoc]
    _ = s.committedRows table ++ now ++ (s.orphanRows table ++
          (s'.inFlight table ++ s'.pendingRows table)) := by
        rw [hnow]
        simp only [List.append_assoc]

theorem Ordered.detached {tr : List (Tasks × Event)} (h : Ordered env table tr s)
    (hs : step env s e = some s') (hd : e.detached = true) (hkeeps : keepsOrder env (s, e) = true) :
    Ordered env table (tr ++ [(s, e)]) s' := by
  have hlost : lostBatch (s, e) = none := by
    cases e with
    | cancelFlush | orphanReturns | orphanRaises => exact Option.isNone_iff_eq_none.mp hkeeps
    | onMetric | onTag | addModel | newSession | flush | writeReturns | writeRaises
    | flushResumes => cases hd
  have hproduced := (rows_step_detached table hs hd).1
  -- What a flush is writing is the only batch that is out.
  have hsole : ∀ {flight}, s.flushing = some flight → s.orphans = [] := by
    intro flight hflying
    rcases h.single with hnil | ⟨hidle, _⟩
    · exact hnil
    · rw [hidle] at hflying
      cases hflying
  cases step_cases hs with
  | cancelRunning hflying =>
      have hnil := hsole hflying
      refine ⟨.inr ⟨rfl, by rw [hnil]; rfl⟩, ?_⟩
      rw [List.flatMap_append, List.flatMap_singleton, hproduced, List.append_nil, h.rows,
        orphanRows_of_nil hnil]
      simp only [committedRows, orphanRows, inFlight, pendingRows, hflying, hnil,
        List.nil_append, List.flatMap_singleton]
  | cancelReturned hflying =>
      refine ⟨.inl (hsole hflying), ?_⟩
      rw [List.flatMap_append, List.flatMap_singleton, hproduced, List.append_nil, h.rows]
      simp only [committedRows, orphanRows, inFlight, pendingRows, hflying]
  | cancelRaised hflying =>
      simp only [lostBatch, hflying] at hlost
      cases hlost
  | @orphanReturns i batch hi =>
      obtain ⟨hlt, hget⟩ := List.getElem?_eq_some_iff.mp hi
      rcases h.single with hnil | ⟨hidle, hone⟩
      · rw [hnil] at hlt
        cases hlt
      · obtain ⟨b, hb⟩ := List.length_eq_one_iff.mp hone
        have hzero : i = 0 := by omega
        subst hzero
        have hbatch : b = batch := by
          rw [hb] at hi
          exact Option.some.inj hi
        subst hbatch
        refine ⟨.inl (by rw [hb]; rfl), ?_⟩
        rw [List.flatMap_append, List.flatMap_singleton, hproduced, List.append_nil, h.rows]
        simp only [committedRows, orphanRows, inFlight, pendingRows, hidle, hb,
          List.flatMap_append, List.flatMap_singleton, List.eraseIdx_cons_zero,
          List.flatMap_nil, List.nil_append, List.append_assoc]
  | orphanRaises hi =>
      simp only [lostBatch, hi] at hlost
      cases hlost
  | onMetric | onTag | addModel | newSession | flush | writeReturns | writeRaises | wrote
  | failed => cases hd

theorem Ordered.step {tr : List (Tasks × Event)} (h : Ordered env table tr s)
    (hs : Tasks.step env s e = some s') (hkeeps : keepsOrder env (s, e) = true)
    (htrim : trimmed table (s, e) = []) : Ordered env table (tr ++ [(s, e)]) s' := by
  cases hd : e.detached with
  | false => exact h.attached hs hd hkeeps htrim
  | true => exact h.detached hs hd hkeeps

theorem ordered_run {tr : List (Tasks × Event)} (h : Run (step env) start tr s)
    (hkeeps : ∀ p ∈ tr, keepsOrder env p = true) (htrim : ∀ p ∈ tr, trimmed table p = []) :
    Ordered env table tr s := by
  induction h with
  | nil => exact ⟨.inl rfl, rfl⟩
  | snoc _ hs ih =>
      rw [List.forall_mem_append, List.forall_mem_singleton] at hkeeps htrim
      exact (ih hkeeps.1 htrim.1).step hs hkeeps.2 htrim.2

end Tasks

/-! ## What is produced -/

/-- Only idempotent metrics have this table. -/
def IdempotentTable (table : String) : Prop :=
  table ≠ "tags" ∧ ∀ metric ∈ metricList, metric.table_name = table → metric.idempotent = true

instance (table : String) : Decidable (IdempotentTable table) :=
  inferInstanceAs (Decidable (_ ∧ _))

/-- The rows that an item makes for a table. -/
def Item.rows (env : Externals) (table : String) (item : Item) : List Row :=
  match item.sample? env with
  | some (metric, x) =>
      if metric.table_name = table then x.models.map (Ingest.metricRow metric) else []
  | none => []

namespace Ingest

variable {env : Externals} {table : String} {s : Ingest} {item : Item}

/-- An idempotent metric stores every value. -/
theorem rows_decodeNext (htable : IdempotentTable table) :
    (s.decodeNext env item).pending.rows table =
      s.pending.rows table ++ item.rows env table := by
  cases hx : item.sample? env with
  | some p =>
      obtain ⟨metric, x⟩ := p
      obtain ⟨_, hget, _⟩ := get?_of_sample? hx
      simp only [Item.rows, hx]
      rw [decodeNext_of_sample hx]
      by_cases htab : metric.table_name = table
      · have hidem := htable.2 metric (mem_metricList hget) htab
        have hnew : alreadyStored (decide (item.key ∈ s.awaitingFirst)) metric x.newest
            (s.lastTimestamp.get? item.key) = false := by
          unfold alreadyStored
          split
          · rfl
          · rw [hidem, Bool.not_true, Bool.and_false, Bool.false_and]
        rw [if_neg (by rw [hnew]; exact Bool.false_ne_true), if_pos htab, htab]
        exact (Dict.rows_extend _ _ _ _).trans (by rw [if_pos rfl])
      · rw [if_neg htab, List.append_nil]
        split
        · rfl
        · exact (Dict.rows_extend _ _ _ _).trans (by rw [if_neg htab, List.append_nil])
  | none =>
      simp only [Item.rows, hx, List.append_nil]
      unfold Item.sample? at hx
      cases hk : item.kind with
      | tag =>
          simp only [decodeNext, decodeItem, addTag, hk]
          cases item.dataValue.value with
          | none => rfl
          | some value =>
              exact (Dict.rows_extend _ _ _ _).trans
                (by rw [if_neg (Ne.symm htable.1), List.append_nil])
      | metric =>
          rw [hk] at hx
          simp only [decodeNext, decodeItem, addMetric, hk]
          cases hm : metrics.get? item.key with
          | none => rfl
          | some metric =>
              rw [hm] at hx
              simp only at hx ⊢
              cases hd : metric.decode env item.dataValue with
              | error e => rfl
              | ok models =>
                  cases models with
                  | nil => rfl
                  | cons m ms => rw [hd] at hx; cases hx

theorem rows_decodeItems_idempotent (htable : IdempotentTable table) (items : List Item)
    (s : Ingest) :
    (decodeItems env s items).1.pending.rows table =
      s.pending.rows table ++ items.flatMap (Item.rows env table) := by
  induction items generalizing s with
  | nil => exact (List.append_nil _).symm
  | cons item rest ih =>
      rw [decodeItems_cons, ih, rows_decodeNext htable, List.flatMap_cons, List.append_assoc]

end Ingest

namespace Tasks

variable {env : Externals} {table : String} {s s' : Tasks} {e : Event}

/-- The rows of `add_model`. -/
def added (table : String) : Tasks × Event → List Row
  | (_, .addModel table' model) => if table' = table then [model.toRow] else []
  | _ => []

theorem produced_eq (htable : IdempotentTable table) (p : Tasks × Event) :
    produced env table p = (taken p).flatMap (Item.rows env table) ++ added table p := by
  obtain ⟨s, e⟩ := p
  cases e with
  | flush =>
      simp only [produced, taken, added, List.append_nil]
      rw [Ingest.decodeQueued, Ingest.rows_decodeItems_idempotent htable]
      rfl
  | addModel => rfl
  | onMetric | onTag | newSession | writeReturns | writeRaises | flushResumes | cancelFlush
  | orphanReturns | orphanRaises => rfl

/-- Nothing is queued, pending or on its way. -/
def Quiet (s : Tasks) : Prop :=
  s.ingest.queue.items = [] ∧ s.ingest.pending.items = [] ∧ s.flushing = none ∧ s.orphans = []

instance (s : Tasks) : Decidable s.Quiet := inferInstanceAs (Decidable (_ ∧ _))

/-- What has been committed at the end: the rows of what arrived and those of
`add_model`, the first of each key where either has it. -/
theorem find?_committed (htable : IdempotentTable table) {columns : List String}
    {tr : List (Tasks × Event)} (h : Run (step env) start tr s)
    (hapart : ∀ row ∈ tr.flatMap (added table),
      ∀ row' ∈ (tr.flatMap arrivals).flatMap (Item.rows env table),
        rowKey columns row ≠ rowKey columns row')
    (hfits : ∀ p ∈ tr, evicted p = [] ∧ trimmed table p = []) (hquiet : s.Quiet)
    (hkeeps : ∀ p ∈ tr, keepsOrder env p = true) (k : List (Option PyValue)) :
    (s.committedRows table).find? (rowKey columns · = k) =
      ((tr.flatMap (added table)).find? (rowKey columns · = k)).or
        (((tr.flatMap arrivals).flatMap (Item.rows env table)).find? (rowKey columns · = k)) := by
  obtain ⟨hqueue, hpending, hflushing, horphans⟩ := hquiet
  have hrows := (ordered_run h hkeeps fun p hp => (hfits p hp).2).rows
  have hnone : s.orphanRows table ++ (s.inFlight table ++ s.pendingRows table) = [] := by
    have hempty : s.ingest.pending.rows table = [] := by
      rw [Dict.rows, Dict.getD, Dict.get?, hpending]
      rfl
    rw [orphanRows_of_nil horphans, inFlight, hflushing, pendingRows, hempty]
    rfl
  have htaken : tr.flatMap taken = tr.flatMap arrivals := by
    have haccounts := (Run.items_account h).1
    have hevicted : tr.flatMap evicted = [] :=
      List.flatMap_eq_nil_iff.mpr fun p hp => (hfits p hp).1
    rw [hevicted, hqueue] at haccounts
    exact haccounts.delivered_eq
  rw [hnone, List.append_nil] at hrows
  rw [← hrows, List.flatMap_congr fun p _ => produced_eq htable p]
  rw [← htaken, List.flatMap_assoc] at hapart ⊢
  exact KeyedTable.find?_flatMap_append hapart k

/-! ## The values of one metric -/

/-- The values that are delivered of a metric. -/
def delivered (name : String) : Tasks × Event → List DataValue
  | (_, .onMetric name' dataValue _) => if name' = name then [dataValue] else []
  | _ => []

end Tasks

/-- The rows that a value makes. -/
def valueRows (env : Externals) (metric : Metric) (dataValue : DataValue) : List Row :=
  match metric.decode env dataValue with
  | .ok models => models.map (Ingest.metricRow metric)
  | .error _ => []

theorem name_of_get? {name : String} {metric : Metric} (h : metrics.get? name = some metric) :
    metric.name = name := by
  have hmem := Dict.get?_eq_some.mp h
  have hitems : metrics.items = metricList.map fun m => (m.name, m) := by decide
  rw [hitems] at hmem
  obtain ⟨m, _, heq⟩ := List.mem_map.mp hmem
  cases heq
  rfl

/-- A table belongs to one metric. -/
theorem eq_of_table_name {metric metric' : Metric} (h : metric ∈ metricList)
    (h' : metric' ∈ metricList) (heq : metric.table_name = metric'.table_name) :
    metric = metric' := by
  have hall : ∀ m ∈ metricList, ∀ m' ∈ metricList, m.table_name = m'.table_name → m = m' := by
    decide
  exact hall metric h metric' h' heq

theorem Item.rows_eq {env : Externals} {name : String} {metric : Metric}
    (hmetric : metrics.get? name = some metric) (item : Item) :
    item.rows env metric.table_name =
      if item.kind = .metric ∧ item.key = name then valueRows env metric item.dataValue else [] := by
  cases hx : item.sample? env with
  | some p =>
      obtain ⟨metric', x⟩ := p
      obtain ⟨hkind, hget, hdecode⟩ := Ingest.get?_of_sample? hx
      simp only [Item.rows, hx]
      by_cases hkey : item.key = name
      · rw [hkey, hmetric] at hget
        cases hget
        rw [if_pos rfl, if_pos ⟨hkind, hkey⟩, valueRows, hdecode]
      · rw [if_neg fun h : item.kind = .metric ∧ item.key = name => hkey h.2, if_neg]
        intro htable
        have heq := eq_of_table_name (mem_metricList hget) (mem_metricList hmetric) htable
        rw [← name_of_get? hget, ← name_of_get? hmetric, heq] at hkey
        exact hkey rfl
  | none =>
      simp only [Item.rows, hx]
      split
      · next h =>
          unfold Item.sample? at hx
          rw [h.1, h.2, hmetric] at hx
          simp only at hx
          unfold valueRows
          split
          · next models hdecode =>
              cases models with
              | nil => rfl
              | cons m ms =>
                  rw [hdecode] at hx
                  cases hx
          · rfl
      · rfl

/-- Every idempotent metric has a table with a primary key to itself. -/
theorem idempotentTable_of_metric {metric : Metric} (h : metric ∈ metricList)
    (hidem : metric.idempotent = true) :
    IdempotentTable metric.table_name ∧
      ∃ columns, primaryKey.get? metric.table_name = some columns := by
  have hall : ∀ m ∈ metricList, m.idempotent = true → IdempotentTable m.table_name ∧
      (primaryKey.get? m.table_name).isSome = true := by
    decide
  obtain ⟨htable, hkey⟩ := hall metric h hidem
  exact ⟨htable, Option.isSome_iff_exists.mp hkey⟩

namespace Tasks

variable {env : Externals} {s s' : Tasks}

theorem arrivals_rows {name : String} {metric : Metric}
    (hmetric : metrics.get? name = some metric) (tr : List (Tasks × Event)) :
    (tr.flatMap arrivals).flatMap (Item.rows env metric.table_name) =
      (tr.flatMap (delivered name)).flatMap (valueRows env metric) := by
  rw [List.flatMap_assoc, List.flatMap_assoc]
  refine List.flatMap_congr fun p _ => ?_
  obtain ⟨t, e⟩ := p
  cases e with
  | onMetric name' dataValue receivedAt =>
      rw [arrivals, List.flatMap_singleton, Item.rows_eq hmetric, delivered]
      by_cases hname : name' = name
      · rw [if_pos ⟨rfl, hname⟩, if_pos hname, List.flatMap_singleton]
      · rw [if_neg fun h => hname h.2, if_neg hname, List.flatMap_nil]
  | onTag tag dataValue receivedAt =>
      rw [arrivals, List.flatMap_singleton, Item.rows_eq hmetric, if_neg fun h => by cases h.1]
      rfl
  | addModel | newSession | flush | writeReturns | writeRaises | flushResumes | cancelFlush
  | orphanReturns | orphanRaises => rfl

/-- Two runs that deliver the same values of an idempotent metric, the second
some of them again, leave the same rows in its table, if no buffer overflows,
both end with nothing pending, the rows of `add_model` have other keys, and no
batch of a cancelled flush is lost or overtaken. -/
theorem contents_redelivered {name : String} {metric : Metric}
    (hmetric : metrics.get? name = some metric) (hidem : metric.idempotent = true)
    {tr tr' : List (Tasks × Event)} (h : Run (step env) start tr s)
    (h' : Run (step env) start tr' s')
    (hrepeats : KeyedTable.Repeats (tr.flatMap (delivered name)) (tr'.flatMap (delivered name)))
    (hadded : tr'.flatMap (added metric.table_name) = tr.flatMap (added metric.table_name))
    (hapart : ∀ row ∈ tr.flatMap (added metric.table_name),
      ∀ row' ∈ (tr'.flatMap (delivered name)).flatMap (valueRows env metric),
        rowKey (primaryKey.getD metric.table_name []) row ≠
          rowKey (primaryKey.getD metric.table_name []) row')
    (hfits : ∀ p ∈ tr ++ tr', evicted p = [] ∧ trimmed metric.table_name p = [])
    (hquiet : s.Quiet ∧ s'.Quiet) (hkeeps : ∀ p ∈ tr ++ tr', keepsOrder env p = true) :
    (contents metric.table_name (s.committedRows metric.table_name)).Perm
      (contents metric.table_name (s'.committedRows metric.table_name)) := by
  obtain ⟨htable, columns, hcolumns⟩ :=
    idempotentTable_of_metric (mem_metricList hmetric) hidem
  rw [Dict.getD, hcolumns, Option.getD_some] at hapart
  rw [List.forall_mem_append] at hfits hkeeps
  simp only [contents, hcolumns]
  refine KeyedTable.perm_insertAll fun k => ?_
  have hfirst : ((tr.flatMap (delivered name)).flatMap (valueRows env metric)).find?
        (rowKey columns · = k) =
      ((tr'.flatMap (delivered name)).flatMap (valueRows env metric)).find?
        (rowKey columns · = k) := hrepeats.find?_flatMap (valueRows env metric) k
  rw [find?_committed htable h ?_ hfits.1 hquiet.1 hkeeps.1,
    find?_committed htable h' ?_ hfits.2 hquiet.2 hkeeps.2, arrivals_rows hmetric,
    arrivals_rows hmetric, hadded, hfirst]
  · rw [hadded, arrivals_rows hmetric]
    exact hapart
  · rw [arrivals_rows hmetric]
    intro row hrow row' hrow'
    obtain ⟨dataValue, hvalue, hmem⟩ := List.mem_flatMap.mp hrow'
    exact hapart row hrow row' (List.mem_flatMap.mpr ⟨dataValue, hrepeats.subset hvalue, hmem⟩)

def measuredRtt : OPCUAModel :=
  .heartbeatRTT ⟨⟨⟨2026, 1, 1, 12, 0, 6, 0, by decide⟩⟩, "agent", 3, ⟨"1.5"⟩⟩

def rttValue : DataValue := .good (.str (payload [measuredRtt]).dumps)

def rttEnv : Externals := .ofTexts [((payload [measuredRtt]).dumps, payload [measuredRtt])]

def deliveredAt : Datetime := ⟨⟨2026, 1, 1, 12, 0, 7, 0, by decide⟩, some .utc⟩

/-- The flush is cancelled, and its write raises. -/
def sentOnce : List Event :=
  [.onMetric "heartbeat" rttValue deliveredAt, .flush, .cancelFlush, .orphanRaises 0]

/-- The same, and the next session is sent what the node holds. -/
def sentAgain : List Event :=
  sentOnce ++ [.newSession ["heartbeat"], .onMetric "heartbeat" rttValue deliveredAt, .flush,
    .writeReturns, .flushResumes]

theorem execute_sentOnce : (execute (step rttEnv) start sentOnce).isSome = true := by decide

theorem execute_sentAgain : (execute (step rttEnv) start sentAgain).isSome = true := by decide

/-- Without the second delivery the table is empty, and with it it is not. -/
theorem sentAgain_stores_lost :
    let run := executed (step rttEnv) start sentOnce execute_sentOnce
    let run' := executed (step rttEnv) start sentAgain execute_sentAgain
    KeyedTable.Repeats (run.1.flatMap (delivered "heartbeat"))
      (run'.1.flatMap (delivered "heartbeat")) ∧
    (∀ p ∈ run.1 ++ run'.1, evicted p = [] ∧ trimmed "heartbeat_rtt" p = []) ∧
    run.2.Quiet ∧ run'.2.Quiet ∧
    ¬ (contents "heartbeat_rtt" (run.2.committedRows "heartbeat_rtt")).Perm
      (contents "heartbeat_rtt" (run'.2.committedRows "heartbeat_rtt")) := by
  intro run run'
  have hdelivered : run.1.flatMap (delivered "heartbeat") = [rttValue] := by decide
  have hdelivered' : run'.1.flatMap (delivered "heartbeat") = [rttValue] ++ [rttValue] := by
    decide
  refine ⟨?_, by decide, by decide, by decide, fun hperm => ?_⟩
  · rw [hdelivered, hdelivered']
    exact .again _ (.next _ .nil) List.mem_cons_self
  · exact absurd hperm.length_eq (by decide)

def collectorRtt : OPCUAModel :=
  .heartbeatRTT ⟨⟨⟨2026, 1, 1, 12, 0, 6, 0, by decide⟩⟩, "collector", 3, ⟨"1.5"⟩⟩

/-- One value and one measurement, written at once. -/
def writtenTogether : List Event :=
  [.onMetric "heartbeat" rttValue deliveredAt, .addModel "heartbeat_rtt" collectorRtt, .flush,
    .writeReturns, .flushResumes]

/-- The first write fails, and the value comes again before the retry and in
the next session. -/
def writtenApart : List Event :=
  [.onMetric "heartbeat" rttValue deliveredAt, .flush, .writeRaises,
    .addModel "heartbeat_rtt" collectorRtt, .onMetric "heartbeat" rttValue deliveredAt,
    .flushResumes, .flush, .writeReturns, .flushResumes, .newSession ["heartbeat"],
    .onMetric "heartbeat" rttValue deliveredAt, .flush, .writeReturns, .flushResumes]

theorem execute_writtenTogether :
    (execute (step rttEnv) start writtenTogether).isSome = true := by
  decide

theorem execute_writtenApart : (execute (step rttEnv) start writtenApart).isSome = true := by
  decide

theorem contents_writtenApart :
    let run := executed (step rttEnv) start writtenTogether execute_writtenTogether
    let run' := executed (step rttEnv) start writtenApart execute_writtenApart
    (contents "heartbeat_rtt" (run.2.committedRows "heartbeat_rtt")).length = 2 ∧
    (contents "heartbeat_rtt" (run.2.committedRows "heartbeat_rtt")).Perm
      (contents "heartbeat_rtt" (run'.2.committedRows "heartbeat_rtt")) := by
  intro run run'
  have hdelivered : run.1.flatMap (delivered "heartbeat") = [rttValue] := by decide
  have hdelivered' : run'.1.flatMap (delivered "heartbeat") =
      [rttValue] ++ [rttValue] ++ [rttValue] := by
    decide
  have hmetric : metrics.get? "heartbeat" = some metricList[5] := by decide
  refine ⟨by decide, ?_⟩
  refine contents_redelivered hmetric (by decide) (Run.executed execute_writtenTogether)
    (Run.executed execute_writtenApart) ?_ (by decide) (by decide) (by decide) (by decide)
    (by decide)
  rw [hdelivered, hdelivered']
  exact .again _ (.again _ (.next _ .nil) List.mem_cons_self) List.mem_cons_self

end Tasks

end KepServerLogger.Ingestor
