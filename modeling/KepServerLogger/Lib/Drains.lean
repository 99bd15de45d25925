import KepServerLogger.Lib.Heartbeat
import KepServerLogger.Lib.Logging
import KepServerLogger.Py.Draining

/-!
# Drains in worker threads (lib/logging.py and lib/heartbeat.py)

Two buffers are emptied by a getter of the extractor, which runs in a worker
thread: `ErrorBufferHandler.drain` and `drain_rtts`. The publishing cycle
calls one after the other. Meanwhile records are emitted by any thread, and
round trip times are appended on the event loop; what else the handler of a
notification does is not on the deque.
-/

namespace KepServerLogger.Lib

open KepServerLogger.Py

/-! ## ErrorBufferHandler -/

structure ErrorDrains where
  errors : ErrorBuffer
  drain : Option Drain
  returned : List (List AgentError)
  raised : List Exc
  deriving DecidableEq

namespace ErrorDrains

inductive Event where
  | emit (record : LogRecord)
  /-- `asyncio.to_thread(drain)` -/
  | calls
  /-- The thread does one operation of the drain. -/
  | operates
  | returns
  deriving DecidableEq

def start : ErrorDrains := ⟨∅, none, [], []⟩

def step (s : ErrorDrains) : Event → Option ErrorDrains
  | .emit record => some { s with errors := ErrorBuffer.emit s.errors record }
  | .calls =>
      match s.drain with
      | none => some { s with drain := some .queued }
      | some _ => none
  | .operates =>
      match s.drain with
      | some drain =>
          match drain.step s.errors with
          | some (.ok (errors, drain)) => some { s with errors, drain := some drain }
          | some (.error e) => some { s with drain := none, raised := s.raised ++ [e] }
          | none => none
      | none => none
  | .returns =>
      match s.drain with
      | some (.taking 0 taken) => some { s with drain := none, returned := s.returned ++ [taken] }
      | _ => none

/-- What the running drain has taken. -/
def taken (s : ErrorDrains) : List AgentError := s.drain.elim [] Drain.taken

def appended : ErrorDrains × Event → List AgentError
  | (_, .emit record) => [record.agentError]
  | _ => []

/-- The oldest record of a full buffer, where another is emitted. -/
def evicted : ErrorDrains × Event → List AgentError
  | (s, .emit _) =>
      if s.errors.items.length = maxBufferedErrors then s.errors.items.take 1 else []
  | _ => []

end ErrorDrains

/-! ## SystemHeartbeatHandler -/

/-- One operation of `drain_rtts` on the buffer of the handler. -/
def SystemHeartbeatHandler.drainRtts (h : SystemHeartbeatHandler) (drain : Draining HeartbeatRTT) :
    Option (Except Exc (SystemHeartbeatHandler × Draining HeartbeatRTT)) :=
  match drain.step (fun length => length) h.rtts with
  | some (.ok (rtts, drain)) => some (.ok ({ h with rtts }, drain))
  | some (.error ()) => some (.error Drain.popFromEmpty)
  | none => none

structure RttDrains where
  handler : SystemHeartbeatHandler
  drain : Option (Draining HeartbeatRTT)
  returned : List (List HeartbeatRTT)
  raised : List Exc
  deriving DecidableEq

namespace RttDrains

inductive Event where
  | sends (monotonic : Int)
  | notified (val : Int) (now : Utc) (monotonic : Int)
  /-- `asyncio.to_thread(drain_rtts)` -/
  | calls
  /-- The thread does one operation of the drain. -/
  | operates
  | returns
  deriving DecidableEq

def start (pair : String) (max_heartbeat max_rtt : Int) : RttDrains :=
  ⟨.new pair max_heartbeat max_rtt, none, [], []⟩

variable (millis : Int → PyFloat)

def step (s : RttDrains) : Event → Option RttDrains
  | .sends monotonic => some { s with handler := s.handler.sendHeartbeat monotonic }
  | .notified val now monotonic =>
      some { s with handler := (s.handler.datachangeNotification millis val now monotonic).1 }
  | .calls =>
      match s.drain with
      | none => some { s with drain := some .started }
      | some _ => none
  | .operates =>
      match s.drain with
      | some drain =>
          match s.handler.drainRtts drain with
          | some (.ok (handler, drain)) => some { s with handler, drain := some drain }
          | some (.error e) => some { s with drain := none, raised := s.raised ++ [e] }
          | none => none
      | none => none
  | .returns =>
      match s.drain with
      | some (.taking 0 taken) => some { s with drain := none, returned := s.returned ++ [taken] }
      | _ => none

def taken (s : RttDrains) : List HeartbeatRTT := s.drain.elim [] Draining.taken

/-- The round trip time that is appended. -/
def appended? : RttDrains × Event → Option HeartbeatRTT
  | (s, .notified val now monotonic) =>
      (s.handler.datachangeNotification millis val now monotonic).2.1
  | _ => none

def appended (p : RttDrains × Event) : List HeartbeatRTT := (appended? millis p).toList

/-- The oldest one of a full buffer, where another is appended. -/
def evicted (p : RttDrains × Event) : List HeartbeatRTT :=
  match appended? millis p with
  | some _ =>
      if p.1.handler.rtts.items.length = maxBufferedRtts then p.1.handler.rtts.items.take 1 else []
  | none => []

end RttDrains

end KepServerLogger.Lib
