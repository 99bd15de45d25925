import KepServerLogger.Base.Run
import KepServerLogger.Ingestor.Ingest

/-!
# What can happen to one Ingest

The event loop runs one callback or one piece of a task at a time, so a run
of an `Ingest` is a sequence of such pieces, with the worker threads ending
their writes in between. A write commits its whole batch or raises having
committed nothing, which is what the shared connection guarantees.

A flush that is cancelled at its await is gone at once. Its thread is not: a
write that was still running goes on without anybody waiting for it, and one
that was still queued for a thread is cancelled with it: it never runs, which
is to be left behind and then to raise. A write that has already raised when
the cancellation comes is not seen to have raised either, because the task is
woken with the cancellation instead.

What a run did is read off its steps: what was put and taken, what rows were
produced, trimmed and lost.
-/

namespace KepServerLogger.Ingestor

open KepServerLogger.Py KepServerLogger.Lib

/-- The worker thread of a write, as far as it got. -/
inductive Thread where
  | running
  | returned
  | raised
  deriving DecidableEq, Repr

/-- A flush at its await: the batch it moved out and the thread that writes it. -/
structure Flight where
  batch : Batch
  thread : Thread
  deriving DecidableEq

structure Tasks where
  ingest : Ingest
  flushing : Option Flight
  /-- Batches whose flush was cancelled while the write was running. -/
  orphans : List Batch
  /-- The batches `insert_many` has committed, in order. -/
  committed : List Batch
  logged : List LogRecord
  deriving DecidableEq

namespace Tasks

inductive Event where
  | onMetric (name : String) (dataValue : DataValue) (receivedAt : Datetime)
  | onTag (tag : String) (dataValue : DataValue) (receivedAt : Datetime)
  | addModel (table : String) (model : OPCUAModel)
  | newSession (metrics : List String)
  | flush
  | writeReturns
  | writeRaises
  /-- The flush goes on after its await. -/
  | flushResumes
  | cancelFlush
  | orphanReturns (i : Nat)
  /-- Also of a write that is cancelled before a thread takes it. -/
  | orphanRaises (i : Nat)
  deriving DecidableEq

def start : Tasks := ⟨.new, none, [], [], []⟩

section

variable (env : Externals)

def step (s : Tasks) : Event → Option Tasks
  | .onMetric name dataValue receivedAt =>
      some { s with ingest := s.ingest.onMetric name dataValue receivedAt }
  | .onTag tag dataValue receivedAt =>
      some { s with ingest := s.ingest.onTag tag dataValue receivedAt }
  | .addModel table model => some { s with ingest := s.ingest.addModel table model }
  | .newSession metrics => some { s with ingest := s.ingest.newSession metrics }
  | .flush =>
      match s.flushing with
      | some _ => none
      | none =>
          let r := s.ingest.flushStart env
          some { s with
            ingest := r.1
            flushing := r.2.1.map (⟨·, .running⟩)
            logged := s.logged ++ r.2.2 }
  | .writeReturns =>
      match s.flushing with
      | some ⟨batch, .running⟩ =>
          some { s with
            flushing := some ⟨batch, .returned⟩
            committed := s.committed ++ [batch] }
      | _ => none
  | .writeRaises =>
      match s.flushing with
      | some ⟨batch, .running⟩ => some { s with flushing := some ⟨batch, .raised⟩ }
      | _ => none
  | .flushResumes =>
      match s.flushing with
      | some ⟨batch, .returned⟩ =>
          let r := s.ingest.flushWrote batch
          some { s with ingest := r.1, flushing := none, logged := s.logged ++ r.2 }
      | some ⟨batch, .raised⟩ =>
          let r := s.ingest.flushFailed batch
          some { s with ingest := r.1, flushing := none, logged := s.logged ++ r.2 }
      | _ => none
  | .cancelFlush =>
      match s.flushing with
      | some ⟨batch, .running⟩ =>
          some { s with flushing := none, orphans := s.orphans ++ [batch] }
      | some _ => some { s with flushing := none }
      | none => none
  | .orphanReturns i =>
      match s.orphans[i]? with
      | some batch =>
          some { s with
            orphans := s.orphans.eraseIdx i
            committed := s.committed ++ [batch] }
      | none => none
  | .orphanRaises i =>
      match s.orphans[i]? with
      | some _ => some { s with orphans := s.orphans.eraseIdx i }
      | none => none

end

/-! ## Where the rows of a table are -/

def committedRows (s : Tasks) (table : String) : List Row :=
  s.committed.flatMap (·.rows table)

/-- The rows a flush has moved out and not seen committed. -/
def inFlight (s : Tasks) (table : String) : List Row :=
  match s.flushing with
  | some ⟨_, .returned⟩ => []
  | some ⟨batch, _⟩ => batch.rows table
  | none => []

def orphanRows (s : Tasks) (table : String) : List Row :=
  s.orphans.flatMap (·.rows table)

def pendingRows (s : Tasks) (table : String) : List Row := s.ingest.pending.rows table

/-- The sum of the dropped counts among log records. -/
def droppedCount (records : List LogRecord) : Nat :=
  (records.map fun r =>
    match r with
    | .queueFull dropped => dropped
    | _ => 0).sum

def reported (s : Tasks) : Nat := droppedCount s.logged

/-! ## What one step did -/

/-- What a callback puts on the queue. -/
def arrivals : Tasks × Event → List Item
  | (_, .onMetric name dataValue receivedAt) => [⟨.metric, name, dataValue, receivedAt⟩]
  | (_, .onTag tag dataValue receivedAt) => [⟨.tag, tag, dataValue, receivedAt⟩]
  | _ => []

/-- A put on a full queue evicts the oldest item. -/
def evicted (p : Tasks × Event) : List Item :=
  if arrivals p ≠ [] ∧ p.1.ingest.queue.full then p.1.ingest.queue.items.take 1 else []

/-- What `_decode_queued` takes. -/
def taken : Tasks × Event → List Item
  | (s, .flush) => s.ingest.queue.items
  | _ => []

/-- The rows that decoding and `add_model` produce for a table. -/
def produced (env : Externals) (table : String) : Tasks × Event → List Row
  | (s, .flush) => (({ s.ingest with pending := ∅ }.decodeQueued env).1.pending).rows table
  | (_, .addModel table' model) => if table' = table then [model.toRow] else []
  | _ => []

/-- The rows `_requeue` trims from a table of the batch. -/
def trimmed (table : String) : Tasks × Event → List Row
  | (s, .flushResumes) =>
      match s.flushing with
      | some ⟨batch, .raised⟩ =>
          if table ∈ batch.keys then
            let kept := batch.rows table ++ s.ingest.pending.rows table
            kept.take (kept.length - maxPendingRowsPerTable)
          else []
      | _ => []
  | _ => []

/-- The batch of a write that raised with nobody left to requeue it. -/
def lostBatch : Tasks × Event → Option Batch
  | (s, .cancelFlush) =>
      match s.flushing with
      | some ⟨batch, .raised⟩ => some batch
      | _ => none
  | (s, .orphanRaises i) => s.orphans[i]?
  | _ => none

def lost (table : String) (p : Tasks × Event) : List Row :=
  (lostBatch p).elim [] (·.rows table)

end Tasks

/-! ## What decoding did -/

/-- The models of a value, of which there is at least one. -/
structure Sample where
  first : OPCUAModel
  rest : List OPCUAModel
  deriving DecidableEq

def Sample.models (x : Sample) : List OPCUAModel := x.first :: x.rest

def Sample.newest (x : Sample) : Utc := Ingest.newest x.first x.rest

/-- The metric and the models of an item that decodes to any. -/
def Item.sample? (env : Externals) (item : Item) : Option (Metric × Sample) :=
  match item.kind with
  | .tag => none
  | .metric =>
      match metrics.get? item.key with
      | none => none
      | some metric =>
          match metric.decode env item.dataValue with
          | .ok (m :: ms) => some (metric, ⟨m, ms⟩)
          | _ => none

namespace Ingest

variable (env : Externals)

/-- The state after one turn of the loop of `_decode_queued`. -/
def decodeNext (s : Ingest) (item : Item) : Ingest :=
  match s.decodeItem env item with
  | .ok s' => s'
  | .error _ => s

/-- The turns of the loop, each with the state it starts in. -/
def decodeCalls (s : Ingest) : List Item → List (Ingest × Item)
  | [] => []
  | item :: rest => (s, item) :: decodeCalls (s.decodeNext env item) rest

/-- The rows one turn puts in the pending tables. -/
def storedRows (c : Ingest × Item) : List (String × List Row) :=
  (decodeNext env { c.1 with pending := ∅ } c.2).pending.items

end Ingest

namespace Tasks

/-- The items a step decodes, each with the state it is decoded in. -/
def calls (env : Externals) : Tasks × Event → List (Ingest × Item)
  | (s, .flush) => { s.ingest with queue := ∅ }.decodeCalls env s.ingest.queue.items
  | _ => []

end Tasks

end KepServerLogger.Ingestor
