import Mathlib.Data.Finset.Dedup
import Mathlib.Data.Finset.Basic
import KepServerLogger.Lib.Metrics
import KepServerLogger.Ingestor.Db
import KepServerLogger.Py.Queue

/-!
# Between the notifications and the database (ingestor/src/ingest.py)

The callbacks only put what they were given on a queue. A flush takes the
queue empty, decodes every item into rows of the pending tables, moves the
pending tables out as one batch and hands the batch to a worker thread. The
await on that thread is where everything else can happen, so a flush is in
three parts here: up to the await, and after it when the write failed or
succeeded.

Decoding one item either adds its rows or raises, and an item that raises is
logged and dropped. A metric value that is the first of its session is
dropped as well when it is not newer than what the metric has delivered
before.

What a flush logs is kept, since the number of evicted items is nowhere else.
-/

namespace KepServerLogger.Ingestor

open KepServerLogger.Py KepServerLogger.Lib

def queueMaxItems : Nat := 100000

def maxPendingRowsPerTable : Nat := 500000

/-- `TagData` of lib/models.py. -/
structure TagData where
  tag : String
  value : String
  status_code : String
  source_timestamp : Option Datetime
  server_timestamp : Option Datetime
  logger_timestamp : Datetime
  deriving DecidableEq

def optDatetime : Option Datetime → PyValue
  | none => .none
  | some d => .datetime d

def TagData.modelDump (t : TagData) : Row :=
  ⟨[("tag", .str t.tag), ("value", .str t.value), ("status_code", .str t.status_code),
    ("source_timestamp", optDatetime t.source_timestamp),
    ("server_timestamp", optDatetime t.server_timestamp),
    ("logger_timestamp", .datetime t.logger_timestamp)], by simp⟩

inductive Kind where
  | metric
  | tag
  deriving DecidableEq, Repr

/-- What a callback puts on the queue. -/
structure Item where
  kind : Kind
  key : String
  dataValue : DataValue
  receivedAt : Datetime
  deriving DecidableEq

/-! ## What is logged -/

inductive LogRecord where
  | queueFull (dropped : Nat)
  | droppedItem (kind : Kind) (key : String) (e : Exc)
  | writeFailed
  | writesRecovered
  | droppedRows (lost : Nat) (table : String)
  | wroteRows (counts : List (String × Nat))
  deriving DecidableEq

def Kind.text : Kind → String
  | .metric => "metric"
  | .tag => "tag"

def LogRecord.message (label : String) : LogRecord → String
  | .queueFull dropped =>
      label ++ " Queue full, dropped the " ++ toString dropped ++ " oldest values"
  | .droppedItem kind key e =>
      label ++ " Dropped " ++ kind.text ++ " '" ++ key ++ "': " ++ e.text
  | .writeFailed => label ++ " Database write failed, keeping the rows to retry"
  | .writesRecovered => label ++ " Database writes recovered"
  | .droppedRows lost table =>
      label ++ " Dropped " ++ toString lost ++ " oldest " ++ table ++ " rows"
  | .wroteRows counts =>
      label ++ " Wrote rows: " ++
        ", ".intercalate (counts.map fun p => p.1 ++ " " ++ toString p.2)

/-! ## The state -/

structure Ingest where
  queue : Queue queueMaxItems Item
  dropped : Nat
  /-- Table → rows decoded and waiting to be written. -/
  pending : Batch
  lastTimestamp : Dict String Utc
  awaitingFirst : Finset String
  writeFailing : Bool
  deriving DecidableEq

namespace Ingest

def new : Ingest where
  queue := ∅
  dropped := 0
  pending := ∅
  lastTimestamp := ∅
  awaitingFirst := ∅
  writeFailing := false

def newSession (s : Ingest) (metrics : List String) : Ingest :=
  { s with awaitingFirst := metrics.toFinset }

/-- A full queue loses its oldest item first. -/
def put (s : Ingest) (item : Item) : Ingest :=
  if h : s.queue.full then
    { s with
      queue := s.queue.dropOldest.put item (Queue.not_full_dropOldest (by decide))
      dropped := s.dropped + 1 }
  else { s with queue := s.queue.put item h }

def onMetric (s : Ingest) (name : String) (dataValue : DataValue) (receivedAt : Datetime) :
    Ingest :=
  s.put ⟨.metric, name, dataValue, receivedAt⟩

def onTag (s : Ingest) (tag : String) (dataValue : DataValue) (receivedAt : Datetime) :
    Ingest :=
  s.put ⟨.tag, tag, dataValue, receivedAt⟩

def addModel (s : Ingest) (table : String) (model : OPCUAModel) : Ingest :=
  { s with pending := s.pending.extend table [model.toRow] }

/-! ## Decoding -/

/-- `max(m.timestamp for m in models)` -/
def newest (m : OPCUAModel) (ms : List OPCUAModel) : Utc :=
  (ms.map OPCUAModel.timestamp).foldl max m.timestamp

/-- `{metric.columns.get(f, f): v for f, v in m.to_row().items()}` -/
def metricRow (metric : Metric) (m : OPCUAModel) : Row :=
  Dict.ofList (m.toRow.items.map fun p => (metric.columns.getD p.1 p.1, p.2))

/-- `first and not metric.idempotent and last is not None and newest <= last` -/
def alreadyStored (first : Bool) (metric : Metric) (newest : Utc) : Option Utc → Bool
  | none => false
  | some last => first && !metric.idempotent && newest ≤ last

section

variable (env : Externals)

def addMetric (s : Ingest) (name : String) (dataValue : DataValue) : Except Exc Ingest :=
  match metrics.get? name with
  | none => .error ⟨.keyError, env.repr name⟩
  | some metric =>
      match metric.decode env dataValue with
      | .error e => .error e
      | .ok [] => .ok s
      | .ok (m :: ms) =>
          let newest := newest m ms
          let last := s.lastTimestamp.get? name
          let first := decide (name ∈ s.awaitingFirst)
          let s := { s with awaitingFirst := s.awaitingFirst.erase name }
          if alreadyStored first metric newest last then .ok s
          else
            .ok { s with
              lastTimestamp := s.lastTimestamp.set name (last.elim newest (max newest))
              pending := s.pending.extend metric.table_name
                ((m :: ms).map (metricRow metric)) }

def addTag (s : Ingest) (tag : String) (dataValue : DataValue) (receivedAt : Datetime) :
    Except Exc Ingest :=
  match dataValue.value with
  | none => .error ⟨.valueError, "no value"⟩
  | some value =>
      let row : TagData :=
        { tag
          value := value.toStr
          status_code := dataValue.statusCode.elim "Unknown" StatusCode.name
          source_timestamp := dataValue.sourceTimestamp
          server_timestamp := dataValue.serverTimestamp
          logger_timestamp := receivedAt }
      .ok { s with pending := s.pending.extend "tags" [row.modelDump] }

def decodeItem (s : Ingest) (item : Item) : Except Exc Ingest :=
  match item.kind with
  | .metric => s.addMetric env item.key item.dataValue
  | .tag => s.addTag item.key item.dataValue item.receivedAt

/-- The loop of `_decode_queued`; an item that raises leaves the state alone. -/
def decodeItems (s : Ingest) : List Item → Ingest × List LogRecord
  | [] => (s, [])
  | item :: rest =>
      match s.decodeItem env item with
      | .ok s' => decodeItems s' rest
      | .error e =>
          let r := decodeItems s rest
          (r.1, .droppedItem item.kind item.key e :: r.2)

def decodeQueued (s : Ingest) : Ingest × List LogRecord :=
  decodeItems env { s with queue := ∅ } s.queue.items

/-! ## A flush -/

/-- `flush` up to its await, with the batch it hands to `insert_many`. -/
def flushStart (s : Ingest) : Ingest × Option Batch × List LogRecord :=
  let decoded := s.decodeQueued env
  let s := { decoded.1 with dropped := 0 }
  let records :=
    if decoded.1.dropped = 0 then decoded.2 else decoded.2 ++ [.queueFull decoded.1.dropped]
  if s.pending.items.isEmpty then (s, none, records)
  else ({ s with pending := ∅ }, some s.pending, records)

end

/-- One turn of the loop of `_requeue`. -/
def requeueTable (s : Ingest) (table : String) (rows : List Row) :
    Ingest × List LogRecord :=
  let kept := rows ++ s.pending.rows table
  if maxPendingRowsPerTable < kept.length then
    let lost := kept.length - maxPendingRowsPerTable
    ({ s with pending := s.pending.set table (kept.drop lost) }, [.droppedRows lost table])
  else ({ s with pending := s.pending.set table kept }, [])

def requeueTables (s : Ingest) : List (String × List Row) → Ingest × List LogRecord
  | [] => (s, [])
  | (table, rows) :: rest =>
      let first := s.requeueTable table rows
      let others := requeueTables first.1 rest
      (others.1, first.2 ++ others.2)

def requeue (s : Ingest) (batch : Batch) : Ingest × List LogRecord :=
  s.requeueTables batch.items

/-- `flush` after a write that raised. -/
def flushFailed (s : Ingest) (batch : Batch) : Ingest × List LogRecord :=
  let requeued := s.requeue batch
  if requeued.1.writeFailing then requeued
  else ({ requeued.1 with writeFailing := true }, requeued.2 ++ [.writeFailed])

/-- `flush` after a write that returned. -/
def flushWrote (s : Ingest) (batch : Batch) : Ingest × List LogRecord :=
  let wrote := [LogRecord.wroteRows (batch.items.map fun p => (p.1, p.2.length))]
  if s.writeFailing then ({ s with writeFailing := false }, .writesRecovered :: wrote)
  else (s, wrote)

end Ingest

end KepServerLogger.Ingestor
