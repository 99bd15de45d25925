import KepServerLogger.Base.Raising
import KepServerLogger.Proofs.Cancellation

/-!
# Every row is a row of the schema

What the ingestor puts in a pending table has the columns that the `CREATE
TABLE` statement of the table declares, in some order. This is not checked
anywhere: a metric's rows get their columns from its model class, and the
table, the class and the renamed columns are fields of one `Metric`. So a
write never fails for the shape of its rows.
-/

namespace KepServerLogger.Ingestor

open KepServerLogger.Py KepServerLogger.Lib

def RowOfSchema (table : String) (row : Row) : Prop :=
  ∃ columns, schema.get? table = some columns ∧ row.keys.Perm columns

/-! ## What a metric decodes to -/

section

variable {env : Externals}

theorem construct_cls {cls : ModelClass} {item : List (String × Json)} {m : OPCUAModel}
    (h : cls.construct env item = .ok m) : m.cls = cls := by
  cases cls <;>
    simp only [ModelClass.construct] at h <;>
    · repeat obtain ⟨_, _, h⟩ := ok_of_bind h
      cases h
      rfl

theorem decode_cls {metric : Metric} {dataValue : DataValue} {models : List OPCUAModel}
    (h : metric.decode env dataValue = .ok models) : ∀ m ∈ models, m.cls = metric.model := by
  unfold Metric.decode at h
  split at h
  · cases h
  · split at h
    · cases h
      exact fun _ hm => absurd hm List.not_mem_nil
    · split at h
      · cases h
        exact fun _ hm => absurd hm List.not_mem_nil
      · split at h
        · split at h <;> cases h
        · obtain ⟨items, _, h⟩ := ok_of_bind h
          intro m hm
          obtain ⟨item, _, hitem⟩ := mem_of_mapM_ok h m hm
          cases item with
          | obj kvs => exact construct_cls hitem
          | null | bool | int | float | str | arr => cases hitem

end

theorem mem_metricList {name : String} {metric : Metric} (h : metrics.get? name = some metric) :
    metric ∈ metricList := by
  have hmem := Dict.get?_eq_some.mp h
  have hitems : metrics.items = metricList.map fun m => (m.name, m) := by decide
  rw [hitems] at hmem
  obtain ⟨m, hm, heq⟩ := List.mem_map.mp hmem
  cases heq
  exact hm

theorem metricRow_ofSchema {metric : Metric} {m : OPCUAModel} (hmetric : metric ∈ metricList)
    (hcls : m.cls = metric.model) :
    RowOfSchema metric.table_name (Ingest.metricRow metric m) := by
  simp only [metricList, List.mem_cons, List.not_mem_nil, or_false] at hmetric
  rcases hmetric with rfl | rfl | rfl | rfl | rfl | rfl | rfl | rfl <;> cases m <;>
    cases hcls
  all_goals exact ⟨_, rfl, List.isPerm_iff.mp rfl⟩

theorem tagRow_ofSchema (t : TagData) : RowOfSchema "tags" t.modelDump :=
  ⟨_, rfl, List.isPerm_iff.mp rfl⟩

/-! ## What a step produces -/

/-- Every row of a batch is a row of its table. -/
def SchemaRows (batch : Batch) : Prop :=
  ∀ table, ∀ row ∈ batch.rows table, RowOfSchema table row

theorem SchemaRows.empty : SchemaRows ∅ := fun _ _ h => absurd h List.not_mem_nil

theorem SchemaRows.extend {batch : Batch} (h : SchemaRows batch) {table : String}
    {rows : List Row} (hrows : ∀ row ∈ rows, RowOfSchema table row) :
    SchemaRows (batch.extend table rows) := by
  intro table' row hrow
  rw [Dict.rows_extend] at hrow
  rcases List.mem_append.mp hrow with hold | hnew
  · exact h table' row hold
  · split at hnew
    · next heq => exact heq ▸ hrows row hnew
    · exact absurd hnew List.not_mem_nil

namespace Ingest

variable {env : Externals} {s s' : Ingest}

theorem addMetric_schemaRows {name : String} {dataValue : DataValue}
    (h : SchemaRows s.pending) (hs : s.addMetric env name dataValue = .ok s') :
    SchemaRows s'.pending := by
  unfold addMetric at hs
  split at hs
  · cases hs
  · next metric hmetric =>
      split at hs
      · cases hs
      · cases hs
        exact h
      · next m ms hdecode =>
          simp only at hs
          split at hs
          · cases hs
            exact h
          · cases hs
            refine h.extend fun row hrow => ?_
            obtain ⟨m', hm', rfl⟩ := List.mem_map.mp hrow
            exact metricRow_ofSchema (mem_metricList hmetric) (decode_cls hdecode m' hm')

theorem addTag_schemaRows {tag : String} {dataValue : DataValue} {receivedAt : Datetime}
    (h : SchemaRows s.pending) (hs : s.addTag tag dataValue receivedAt = .ok s') :
    SchemaRows s'.pending := by
  unfold addTag at hs
  split at hs
  · cases hs
  · cases hs
    refine h.extend fun row hrow => ?_
    rw [List.mem_singleton.mp hrow]
    exact tagRow_ofSchema _

theorem decodeItems_schemaRows (h : SchemaRows s.pending) (items : List Item) :
    SchemaRows (decodeItems env s items).1.pending := by
  induction items generalizing s with
  | nil => exact h
  | cons item rest ih =>
      simp only [decodeItems]
      split
      · next s' hs =>
          refine ih ?_
          unfold decodeItem at hs
          cases hk : item.kind with
          | metric => rw [hk] at hs; exact addMetric_schemaRows h hs
          | tag => rw [hk] at hs; exact addTag_schemaRows h hs
      · exact ih h

end Ingest

namespace Tasks

variable {env : Externals} {s : Tasks}

/-- The heartbeat handler is the only caller of `add_model`. -/
def Event.addsRtt : Event → Bool
  | .addModel table model => table = "heartbeat_rtt" && model.cls = .heartbeatRTT
  | _ => true

theorem produced_ofSchema {p : Tasks × Event} (hp : p.2.addsRtt = true) {table : String} {row : Row}
    (hrow : row ∈ produced env table p) : RowOfSchema table row := by
  obtain ⟨s, e⟩ := p
  cases e with
  | flush =>
      exact Ingest.decodeItems_schemaRows (s := { s.ingest with queue := ∅, pending := ∅ })
        SchemaRows.empty s.ingest.queue.items table row hrow
  | addModel table' model =>
      simp only [Event.addsRtt, Bool.and_eq_true, decide_eq_true_eq] at hp
      obtain ⟨rfl, hcls⟩ := hp
      simp only [produced] at hrow
      split at hrow
      · next heq =>
          subst heq
          rw [List.mem_singleton.mp hrow]
          cases model <;> cases hcls
          exact ⟨_, rfl, List.isPerm_iff.mp rfl⟩
      · exact absurd hrow List.not_mem_nil
  | onMetric | onTag | newSession | writeReturns | writeRaises | flushResumes | cancelFlush
  | orphanReturns | orphanRaises => exact absurd hrow List.not_mem_nil

/-- What is pending in a run was produced in it. -/
theorem Run.pending_produced {tr : List (Tasks × Event)} (h : Run (step env) start tr s)
    {table : String} {row : Row} (hrow : row ∈ s.pendingRows table) :
    ∃ p ∈ tr, row ∈ produced env table p := by
  have hcount := Run.rows_count h table row
  have hpos := List.count_pos_iff.mpr hrow
  have hmem : row ∈ tr.flatMap (produced env table) := by
    rw [← List.count_pos_iff]
    omega
  exact List.mem_flatMap.mp hmem

/-- The batch that a flush of a run moves out. -/
theorem Run.batch_schemaRows {tr : List (Tasks × Event)} (h : Run (step env) start tr s)
    (hrtt : ∀ p ∈ tr, p.2.addsRtt = true) {batch : Batch}
    (hb : (s.ingest.flushStart env).2.1 = some batch) : SchemaRows batch := by
  intro table row hrow
  have hrows := (Ingest.flushStart_rows env s.ingest table).1
  rw [hb, Option.elim_some] at hrows
  rw [hrows] at hrow
  rcases List.mem_append.mp hrow with hrow | hrow
  · obtain ⟨p, hp, hrow⟩ := Run.pending_produced h hrow
    exact produced_ofSchema (hrtt p hp) hrow
  · exact produced_ofSchema (p := (s, .flush)) rfl hrow

end Tasks

end KepServerLogger.Ingestor
