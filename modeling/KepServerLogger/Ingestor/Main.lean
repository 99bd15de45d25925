import KepServerLogger.Ingestor.Server
import KepServerLogger.Ingestor.Tasks
import KepServerLogger.Lib.HeartbeatRun

/-!
# One server's coroutine (ingestor/src/main.py)

`main` initializes the database, and then runs one session after another
until it is cancelled. A session connects, reports itself active, starts the
heartbeats and the subscriptions, and runs the consumer next to the health
check until one of them raises or the task is cancelled. Whatever ended it,
the session is taken down in the same order: the subscriptions and the
heartbeats are stopped, what is queued is flushed once more, and the client
disconnects. Then `main` reports the failure and waits, or reports the
shutdown and ends.

A state is where the coroutine waits and what the rest of the program shares
with it. Between two awaits nothing else runs on the event loop, so a step is
one such piece, and the operations of the database that it makes are part of
it; only the worker threads and the server go on meanwhile. An operation
raises when the connection or the server cannot be used or the server refuses
it, and nothing in the program ever connects again.

The heartbeat is a task of its own. When reporting that it is stale raises,
the task is over and nobody notices; and when the session is cancelled while
it is being taken down, the task is left behind.
-/

namespace KepServerLogger.Ingestor

open KepServerLogger.Py KepServerLogger.Lib

inductive Origin where
  | opcua
  | database
  deriving DecidableEq, Repr

/-- How the body of a session was left. -/
inductive Exit where
  | cancelled
  | raised (origin : Origin) (exc : Reported)
  deriving DecidableEq

def Exit.origin : Exit → Option Origin
  | .cancelled => none
  | .raised origin _ => some origin

inductive Phase where
  | initializing
  /-- Setting the client up and entering `async with client`. -/
  | connecting
  /-- Reading the host name. -/
  | reading
  /-- Starting the collector's heartbeat. -/
  | starting
  /-- Starting the agent's heartbeat and the subscriptions. -/
  | subscribing
  /-- In the task group. -/
  | running
  /-- Stopping the subscriptions and the heartbeats. -/
  | stopping (exit : Exit)
  /-- In the last flush. -/
  | flushing (exit : Exit)
  /-- Leaving `async with client`. -/
  | disconnecting (exit : Exit)
  /-- At the `except` clauses of `main`. -/
  | handling (exit : Exit)
  /-- The event is logged, the status is not. -/
  | reporting (error_id : String)
  | sleeping
  /-- Whether the task was being cancelled, and what it raised instead. -/
  | ended (cancelled : Bool) (exc : Option Reported)
  deriving DecidableEq

namespace Phase

/-- The client is connected and may deliver. -/
def inSession : Phase → Bool
  | starting | subscribing | running | stopping _ | flushing _ | disconnecting _ => true
  | _ => false

def isEnded : Phase → Bool
  | ended _ _ => true
  | _ => false

/-- What a session is being taken down with. -/
def exit : Phase → Option Exit
  | stopping exit | flushing exit | disconnecting exit | handling exit => some exit
  | _ => none

/-- Where the exception comes from that is ending a session. -/
def endedBy (phase : Phase) : Option Origin := phase.exit.bind Exit.origin

end Phase

/-- `TimeoutError(message)`, which is reported without having been raised. -/
def timeoutError (message : String) : Reported :=
  ⟨"TimeoutError", message, "TimeoutError: " ++ message ++ "\n"⟩

/-- The statements of `initialize`, any of which may raise. -/
inductive InitStage where
  | ensureDatabase
  | connect
  | schema
  deriving DecidableEq, Repr

structure Main where
  phase : Phase
  tasks : Tasks
  /-- `db._conn is not None` -/
  attached : Bool
  /-- The link of that connection has not broken. -/
  usable : Bool
  /-- The server accepts connections and executes what it is given. -/
  up : Bool
  /-- The collector's heartbeat of this session is running. -/
  heartbeat : Bool
  /-- Heartbeats of earlier sessions that were never stopped. -/
  leaked : Nat
  /-- What `log_status` and `log_event` have committed. -/
  logs : List Request

namespace Main

/-- An event that calls the database carries what the call raises should it
fail. -/
inductive Event where
  | dbInitialize (failure : Option (InitStage × Reported))
  | connected
  | connectFails (exc : Reported)
  | hostRead (host_name : PyValue) (now : Datetime) (exc : Reported)
  | hostFails (exc : Reported)
  | heartbeatStarts
  | startFails (exc : Reported)
  | started
  | onMetric (name : String) (dataValue : DataValue) (receivedAt : Datetime)
  | onTag (tag : String) (dataValue : DataValue) (receivedAt : Datetime)
  | onRtt (rtt : HeartbeatRTT)
  | tick
  | flushResumes
  /-- `check_health` returns a message. -/
  | silent (message event_id : String) (now : Datetime) (exc : Reported)
  /-- `check_health` raises. -/
  | subscriptionEnded (exc : Reported)
  | heartbeatStale (event_id : String) (now : Datetime)
  | leakedStale (event_id : String) (now : Datetime)
  | stopped
  | flushed
  | disconnected
  | disconnectFails (exc : Reported)
  /-- `except asyncio.CancelledError` -/
  | shutdown (now : Datetime) (exc : Reported)
  /-- `log_event` of `except Exception` -/
  | reportFailure (event_id : String) (now : Datetime) (exc : Reported)
  /-- `log_status` of `except Exception` -/
  | reportInactive (now : Datetime) (exc : Reported)
  | wake
  | cancel
  | writeReturns
  | writeRaises
  | orphanReturns (i : Nat)
  | orphanRaises (i : Nat)
  | linkBreaks
  | databaseDown
  | databaseUp

def start : Main where
  phase := .initializing
  tasks := .start
  attached := false
  usable := false
  up := true
  heartbeat := false
  leaked := 0
  logs := []

def available (s : Main) : Bool := s.attached && s.usable && s.up

/-- `main` is over; its `finally` closes the connection. -/
def close (s : Main) (cancelled : Bool) (exc : Option Reported) : Main :=
  { s with phase := .ended cancelled exc, attached := false, usable := false }

def inactive (reason error_id : Option String) (now : Datetime) : Request :=
  .logStatus "inactive" .none reason error_id now

def heartbeatIsStale (event_id : String) (now : Datetime) : Request :=
  .logEvent "WARNING" "SYSTEM-HEARTBEAT" (timeoutError "Heartbeat is stale") event_id now

section

variable (accepts : Write → Bool)

def returns (s : Main) (request : Request) : Bool := request.returns accepts s.available

/-- A thread that is writing a batch ends in one way only. -/
def threadEnds (s : Main) (batch : Option Batch) (returned : Bool) : Option Main :=
  match batch with
  | some batch => if s.returns accepts (.insertMany batch) = returned then some s else none
  | none => none

/-- The batch of the flush that is waiting for its thread. -/
def writing (s : Main) : Option Batch :=
  match s.tasks.flushing with
  | some ⟨batch, .running⟩ => some batch
  | _ => none

/-- What an event does to everything but `Ingest`. -/
def advance (s : Main) : Event → Option Main
  | .dbInitialize failure =>
      match s.phase, failure with
      | .initializing, none =>
          if s.up then some { s with phase := .connecting, attached := true, usable := true }
          else none
      | .initializing, some (stage, exc) =>
          -- This is outside the `try` that closes the connection.
          some { s with
            phase := .ended false (some exc)
            attached := stage = .schema
            usable := stage = .schema }
      | _, _ => none
  | .connected =>
      match s.phase with
      | .connecting => some { s with phase := .reading }
      | _ => none
  | .connectFails exc =>
      match s.phase with
      | .connecting => some { s with phase := .handling (.raised .opcua exc) }
      | _ => none
  | .hostRead host_name now exc =>
      match s.phase with
      | .reading =>
          let request := .logStatus "active" host_name none none now
          if s.returns accepts request then
            some { s with phase := .starting, logs := s.logs ++ [request] }
          else some { s with phase := .disconnecting (.raised .database exc) }
      | _ => none
  | .hostFails exc =>
      match s.phase with
      | .reading => some { s with phase := .disconnecting (.raised .opcua exc) }
      | _ => none
  | .heartbeatStarts =>
      match s.phase with
      | .starting => some { s with phase := .subscribing, heartbeat := true }
      | _ => none
  | .startFails exc =>
      match s.phase with
      | .starting | .subscribing => some { s with phase := .stopping (.raised .opcua exc) }
      | _ => none
  | .started =>
      match s.phase with
      | .subscribing => some { s with phase := .running }
      | _ => none
  | .onMetric .. | .onTag .. | .onRtt _ => if s.phase.inSession then some s else none
  | .tick =>
      match s.phase with
      | .running => some s
      | _ => none
  | .flushResumes =>
      match s.phase with
      | .running | .flushing _ => some s
      | _ => none
  | .silent message event_id now exc =>
      match s.phase with
      | .running =>
          let request := .logEvent "WARNING" "SUBSCRIPTION" (timeoutError message) event_id now
          if s.returns accepts request then some { s with logs := s.logs ++ [request] }
          else some { s with phase := .stopping (.raised .database exc) }
      | _ => none
  | .subscriptionEnded exc =>
      match s.phase with
      | .running => some { s with phase := .stopping (.raised .opcua exc) }
      | _ => none
  | .heartbeatStale event_id now =>
      let request := heartbeatIsStale event_id now
      if !s.heartbeat then none
      else if s.returns accepts request then some { s with logs := s.logs ++ [request] }
      else some { s with heartbeat := false }
  | .leakedStale event_id now =>
      let request := heartbeatIsStale event_id now
      if s.leaked = 0 then none
      else if s.returns accepts request then some { s with logs := s.logs ++ [request] }
      else some { s with leaked := s.leaked - 1 }
  | .stopped =>
      match s.phase with
      | .stopping exit => some { s with phase := .flushing exit, heartbeat := false }
      | _ => none
  | .flushed =>
      match s.phase, s.tasks.flushing with
      | .flushing exit, none => some { s with phase := .disconnecting exit }
      | _, _ => none
  | .disconnected =>
      match s.phase with
      | .disconnecting exit => some { s with phase := .handling exit }
      | _ => none
  | .disconnectFails exc =>
      match s.phase with
      -- What `__aexit__` raises replaces what it was leaving with.
      | .disconnecting _ => some { s with phase := .handling (.raised .opcua exc) }
      | _ => none
  | .shutdown now exc =>
      match s.phase with
      | .handling .cancelled =>
          let request := inactive (some "shutdown") none now
          if s.returns accepts request then
            some ({ s with logs := s.logs ++ [request] }.close true none)
          else some (s.close true (some exc))
      | _ => none
  | .reportFailure event_id now exc =>
      match s.phase with
      | .handling (.raised _ reason) =>
          let request := .logEvent "ERROR" "RECONNECT" reason event_id now
          if s.returns accepts request then
            some { s with phase := .reporting event_id, logs := s.logs ++ [request] }
          else some (s.close false (some exc))
      | _ => none
  | .reportInactive now exc =>
      match s.phase with
      | .reporting error_id =>
          let request := inactive none (some error_id) now
          if s.returns accepts request then
            some { s with phase := .sleeping, logs := s.logs ++ [request] }
          else some (s.close false (some exc))
      | _ => none
  | .wake =>
      match s.phase with
      | .sleeping => some { s with phase := .connecting }
      | _ => none
  | .cancel =>
      match s.phase with
      | .connecting => some { s with phase := .handling .cancelled }
      | .reading => some { s with phase := .disconnecting .cancelled }
      | .starting | .subscribing | .running => some { s with phase := .stopping .cancelled }
      -- The rest of the `finally` is skipped, the heartbeat with it.
      | .stopping _ =>
          some { s with
            phase := .disconnecting .cancelled
            heartbeat := false
            leaked := s.leaked + s.heartbeat.toNat }
      | .flushing _ => some { s with phase := .disconnecting .cancelled }
      | .disconnecting _ => some { s with phase := .handling .cancelled }
      | .sleeping => some (s.close true none)
      | .initializing | .handling _ | .reporting _ | .ended _ _ => none
  | .writeReturns => s.threadEnds accepts s.writing true
  | .writeRaises => s.threadEnds accepts s.writing false
  | .orphanReturns i => s.threadEnds accepts s.tasks.orphans[i]? true
  | .orphanRaises i => s.threadEnds accepts s.tasks.orphans[i]? false
  | .linkBreaks => if s.usable then some { s with usable := false } else none
  | .databaseDown => some { s with up := false }
  | .databaseUp => some { s with up := true }

/-- The task group cancels the consumer, which may be in a flush. -/
def endsFlush (s : Main) : Option Tasks.Event := s.tasks.flushing.map fun _ => .cancelFlush

/-- What an event does to `Ingest`. -/
def taskEvent (metrics : List String) (s : Main) : Event → Option Tasks.Event
  | .onMetric name dataValue receivedAt => some (.onMetric name dataValue receivedAt)
  | .onTag tag dataValue receivedAt => some (.onTag tag dataValue receivedAt)
  | .onRtt rtt => some (.addModel "heartbeat_rtt" (.heartbeatRTT rtt))
  | .hostRead host_name now _ =>
      if s.returns accepts (.logStatus "active" host_name none none now) then
        some (.newSession metrics)
      else none
  | .tick | .stopped => some .flush
  | .flushResumes => some .flushResumes
  | .silent message event_id now _ =>
      if s.returns accepts
          (.logEvent "WARNING" "SUBSCRIPTION" (timeoutError message) event_id now) then none
      else s.endsFlush
  | .subscriptionEnded _ | .cancel => s.endsFlush
  | .writeReturns => some .writeReturns
  | .writeRaises => some .writeRaises
  | .orphanReturns i => some (.orphanReturns i)
  | .orphanRaises i => some (.orphanRaises i)
  | _ => none

/-- `metrics` is the list of the settings, the same for every session. -/
def step (env : Externals) (metrics : List String) (s : Main) (e : Event) : Option Main :=
  match s.advance accepts e with
  | none => none
  | some s' =>
      match s.taskEvent accepts metrics e with
      | none => some s'
      | some event => (Tasks.step env s.tasks event).map fun tasks => { s' with tasks }

end

end Main

/-- `collector_heartbeat`, as `_run_session` builds and starts it. -/
def collectorHeartbeat (polling_interval_seconds : Int) : HeartbeatRun :=
  .new (.new "collector" maxHeartbeatNumber (polling_interval_seconds * 2 * 1000000000))
    (polling_interval_seconds * 5 * 1000000) true

end KepServerLogger.Ingestor
