import KepServerLogger.Lib.Heartbeat

/-!
# The heartbeat's task (lib/heartbeat.py)

`start` subscribes, and where the handler is not the echoing one it leaves
`run` behind as a task of its own that nobody awaits. The task sends, looks
whether the other side has gone silent and reports it if so, and sleeps, until
it is cancelled at one of its awaits. What a send raises is logged; what the
report raises ends the task.

Notifications come in at every await, and from the moment the server has the
subscription, so also before the task exists and after it is over. Each step
knows when it was taken. `total_seconds` keeps the order of whole
microseconds, so the limit it is compared with is a number of these.
-/

namespace KepServerLogger.Lib

open KepServerLogger.Py

def maxHeartbeatNumber : Int := 255

def heartbeatIntervalSeconds : Int := 5

/-- `is_stale` -/
def SystemHeartbeatHandler.isStale (h : SystemHeartbeatHandler) (stale_after : Int)
    (now : Utc) : Bool :=
  match h.last_received_at with
  | none => false
  | some received => stale_after < now.since received

/-- Where `start` waits, and then the task. -/
inductive HeartbeatPhase where
  /-- Subscribing. -/
  | starting
  /-- The task exists and has not run. -/
  | created
  /-- In `send_heartbeat`, since this instant. -/
  | sending (since : Utc)
  | sleeping (since : Utc)
  | cancelled
  /-- `on_stale` raised. -/
  | raised (e : Exc)
  deriving DecidableEq

/-- The task is over. -/
def HeartbeatPhase.IsOver : HeartbeatPhase → Prop
  | .cancelled | .raised _ => True
  | _ => False

structure HeartbeatRun where
  handler : SystemHeartbeatHandler
  /-- In microseconds. -/
  stale_after : Int
  /-- `on_stale is not None` -/
  reports : Bool
  phase : HeartbeatPhase
  /-- When `on_stale` was called. -/
  staleCalls : List Utc
  deriving DecidableEq

namespace HeartbeatRun

inductive Event where
  /-- `start` is over. -/
  | started (now : Utc)
  /-- `send_heartbeat` begins. -/
  | beat (monotonic : Int) (now : Utc)
  /-- `send_heartbeat` ended with `outcome`; `on_stale`, where it is called,
  ends with `report`. -/
  | sent (outcome : Except Exc Unit) (now : Utc) (report : Except Exc Unit)
  | cancel
  | notified (val : Int) (now : Utc) (monotonic : Int)
  deriving DecidableEq

def new (handler : SystemHeartbeatHandler) (stale_after : Int) (reports : Bool) :
    HeartbeatRun where
  handler := handler
  stale_after := stale_after
  reports := reports
  phase := .starting
  staleCalls := []

/-- `self.is_stale() and on_stale is not None` -/
def callsOnStale (s : HeartbeatRun) (now : Utc) : Bool :=
  s.handler.isStale s.stale_after now && s.reports

/-- The rest of the loop's body after the send. -/
def check (s : HeartbeatRun) (now : Utc) (report : Except Exc Unit) : HeartbeatRun :=
  if s.callsOnStale now then
    { s with
      staleCalls := s.staleCalls ++ [now]
      phase :=
        match report with
        | .ok () => .sleeping now
        | .error e => .raised e }
  else { s with phase := .sleeping now }

def send (s : HeartbeatRun) (monotonic : Int) (now : Utc) : HeartbeatRun :=
  { s with handler := s.handler.sendHeartbeat monotonic, phase := .sending now }

variable (millis : Int → PyFloat)

def step (s : HeartbeatRun) : Event → Option HeartbeatRun
  | .started _ =>
      match s.phase with
      | .starting => some { s with phase := .created }
      | _ => none
  | .beat monotonic now =>
      match s.phase with
      | .created => some (s.send monotonic now)
      | .sleeping _ => some (s.send monotonic now)
      | _ => none
  | .sent _ now report =>
      -- What the send raises is logged, and the check comes all the same.
      match s.phase with
      | .sending _ => some (s.check now report)
      | _ => none
  | .cancel =>
      match s.phase with
      | .created => some { s with phase := .cancelled }
      | .sending _ => some { s with phase := .cancelled }
      | .sleeping _ => some { s with phase := .cancelled }
      | _ => none
  | .notified val now monotonic =>
      some { s with handler := (s.handler.datachangeNotification millis val now monotonic).1 }

end HeartbeatRun

end KepServerLogger.Lib
