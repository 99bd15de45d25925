import KepServerLogger.Base.TimedNode
import KepServerLogger.System.Pipeline

/-!
# When a metric is published (extractor/src/main.py)

`_publish_forever` publishes every enabled metric once per cycle and sleeps
`polling_interval_seconds` between two cycles; when a session ends, `main`
sleeps `RECONNECT_DELAY` before it connects again. This is the metric of
`Pipeline` in time, with the extractor as the one that writes to the node.

A write that was asked for may take effect at any later time or never, also
after its cycle or its session has ended: whoever awaited it has then given
up. The server samples and sends when it likes. How punctual the two are is
`Punctuality`, which a run may keep to. Time is in milliseconds, and a sleep
may end early by the resolution of the clock it is measured with.
-/

namespace KepServerLogger.System

open KepServerLogger.Py KepServerLogger.Lib KepServerLogger.Ingestor

/-- `RECONNECT_DELAY` -/
def reconnectDelaySeconds : Nat := 5

/-- Where the extractor is. -/
inductive Cycle where
  | connecting
  /-- In a cycle in which so many tasks have not asked for their write. -/
  | publishing (left : Nat)
  /-- `asyncio.sleep(settings.polling_interval_seconds)` -/
  | resting (since : Nat)
  /-- `asyncio.sleep(RECONNECT_DELAY)` -/
  | sleeping (since : Nat)
  deriving DecidableEq

/-- What the extractor's clock, the way to the server and the server are like. -/
structure Punctuality where
  resolution : Nat
  /-- How long a write takes, if it takes effect. -/
  latency : Nat
  /-- By how much the server may be late with a sampling or a sending. -/
  lateness : Nat
  deriving DecidableEq

structure Schedule where
  pipeline : Pipeline
  now : Nat
  cycle : Cycle
  /-- The writes that have not taken effect, and when they were asked for. -/
  requests : List (Nat × List OPCUAModel)
  requestedAt : Option Nat
  writtenAt : Option Nat
  sampledAt : Nat
  sentAt : Nat
  deriving DecidableEq

namespace Deployment

variable (d : Deployment)

/-- How long `_publish_forever` sleeps, in milliseconds. -/
def polling : Nat := 1000 * d.settings.polling_interval_seconds.toNat

/-- The tasks of a cycle that publish the metric. -/
def tasksPerCycle : Nat := d.settings.metrics.count d.metric.name

/-- What the metric's subscription asks of the server. -/
def sampling : Nat := d.subscription.config.sampling_interval_ms.toNat

def sending : Nat := d.subscription.config.publish_interval_ms.toNat

def queueSize : Nat := d.subscription.config.queue_size.toNat

end Deployment

namespace Schedule

inductive Event where
  | elapse (ms : Nat)
  | beginCycle
  /-- `publish_metric`, up to where it awaits the write. -/
  | request (models : List OPCUAModel)
  | endCycle
  /-- `_run_session` raises. -/
  | endSession
  /-- `main` has slept. -/
  | wake
  /-- The oldest write that was asked for takes effect. -/
  | execute
  /-- It never does. -/
  | lose
  /-- Anything that the extractor has no part in. -/
  | other (e : Pipeline.Event)

def start (left : DataValue) : Schedule := ⟨.start left, 0, .connecting, [], none, none, 0, 0⟩

variable (d : Deployment) (c : Punctuality)

def step (s : Schedule) : Event → Option Schedule
  | .elapse ms => some { s with now := s.now + ms }
  | .beginCycle =>
      match s.cycle with
      | .connecting => some { s with cycle := .publishing d.tasksPerCycle }
      | .resting since =>
          if since + d.polling ≤ s.now + c.resolution then
            some { s with cycle := .publishing d.tasksPerCycle }
          else none
      | _ => none
  | .request models =>
      match s.cycle, d.publishMetric models with
      | .publishing (left + 1), .ok (some _) =>
          some { s with
            cycle := .publishing left
            requests := s.requests ++ [(s.now, models)]
            requestedAt := some s.now }
      | _, _ => none
  | .endCycle =>
      match s.cycle with
      | .publishing _ => some { s with cycle := .resting s.now }
      | _ => none
  | .endSession =>
      match s.cycle with
      | .sleeping _ => none
      | _ => some { s with cycle := .sleeping s.now }
  | .wake =>
      match s.cycle with
      | .sleeping since =>
          if since + 1000 * reconnectDelaySeconds ≤ s.now + c.resolution then
            some { s with cycle := .connecting }
          else none
      | _ => none
  | .execute =>
      match s.requests with
      | [] => none
      | r :: requests =>
          (Pipeline.step d s.pipeline (.publish r.2)).map fun pipeline =>
            { s with pipeline, requests, writtenAt := some s.now }
  | .lose =>
      match s.requests with
      | [] => none
      | _ :: requests => some { s with requests }
  | .other (.publish _) => none
  | .other e =>
      (Pipeline.step d s.pipeline e).map fun pipeline =>
        match e with
        | .subscribe _ => { s with pipeline, sampledAt := s.now, sentAt := s.now }
        | .sample => { s with pipeline, sampledAt := s.now }
        | .send => { s with pipeline, sentAt := s.now }
        | _ => { s with pipeline }

/-- No time passes in which a write should have taken effect or been lost, or
in which the server should have sampled or sent at the intervals that it was
given with the subscription. -/
def punctual : Schedule × Event → Bool
  | (s, .elapse ms) =>
      (∀ r ∈ s.requests, s.now + ms ≤ r.1 + c.latency) ∧
        (s.pipeline.node.item.isSome →
          s.now + ms ≤ s.sampledAt + d.sampling + c.lateness ∧
            s.now + ms ≤ s.sentAt + d.sending + c.lateness)
  | _ => true

/-- What a step is to the pipeline. -/
def pipelineEvent : Schedule × Event → Option Pipeline.Event
  | (s, .execute) => s.requests.head?.map fun r => .publish r.2
  | (_, .other e) => some e
  | _ => none

end Schedule

end KepServerLogger.System
