import KepServerLogger.Base.Run
import KepServerLogger.Lib.Logging
import KepServerLogger.Lib.Metrics
import KepServerLogger.Lib.Monitor

/-!
# Publishing (extractor/src/publish.py and main.py)

The extractor runs one session after another. A session publishes in cycles:
each enabled metric, and the host name, is a task of a task group that ends
when all of them have. A task that fails is counted by the monitor; one whose
exception gets past `safe_handle` cancels the others and ends the session.

Of all metrics only `errors` has a source that empties itself, so its tasks
are followed here step by step and the others by how they end. A task hands
`drain` to a worker thread, takes the result and writes it to the node. The
thread cannot be cancelled once it runs; the task that waits for it can, and
then the thread goes on with nobody to give its records to.

The buffer belongs to the process. Records are appended to it at any time and
by any thread, also by what is published here when it fails, so each append
is an event of its own.
-/

namespace KepServerLogger.Extractor

open KepServerLogger.Py KepServerLogger.Lib

/-- A task of `publish_metric` for the metric `errors`. -/
inductive Publish where
  /-- At `models = await getters[metric.name](settings)`. -/
  | getting (drain : Drain)
  /-- At `await client.write_value(...)`, with what it writes. -/
  | writing (models : List AgentError) (text : String)
  deriving DecidableEq

namespace Publish

def held : Publish → List AgentError
  | getting drain => drain.taken
  | writing models _ => models

/-- What stays of a cancelled task: its thread, unless the executor has not
begun with it. -/
def orphaned : Publish → Option Drain
  | getting .queued => none
  | getting drain => some drain
  | writing _ _ => none

/-- What goes with a cancelled task. -/
def unsent : Publish → List AgentError
  | getting _ => []
  | writing models _ => models

end Publish

inductive Phase where
  /-- Not publishing: connecting, or waiting to connect again. -/
  | away
  /-- Between two cycles. -/
  | sleeping
  /-- In the task group. -/
  | publishing
  | ended
  deriving DecidableEq, Repr

/-- The process. -/
structure Agent where
  errors : ErrorBuffer
  phase : Phase
  monitor : OPCUAMonitor
  /-- The tasks of the cycle that publish `errors`. -/
  tasks : List Publish
  /-- The components of the tasks of the cycle that have not ended otherwise. -/
  others : List String
  /-- Threads whose task was cancelled while they ran. -/
  orphans : List Drain
  /-- The batches whose write has returned. -/
  written : List (List AgentError)
  deriving DecidableEq

namespace Agent

inductive Event where
  | emit (record : LogRecord)
  /-- `_publish_forever` begins. -/
  | connected
  | cycle
  /-- The thread of the `i`-th task does one operation. -/
  | threadSteps (i : Nat)
  /-- The `i`-th task goes on after its thread has returned. -/
  | drained (i : Nat)
  | writeReturns (i : Nat)
  | writeRaises (i : Nat) (e : Exc)
  | orphanSteps (i : Nat)
  | orphanReturns (i : Nat)
  /-- Another task ends. -/
  | ends (component : String) (outcome : Except Exc Unit)
  | cycleEnds
  /-- Ctrl-C cancels `main`. -/
  | interrupt

def start : Agent where
  errors := ∅
  phase := .away
  monitor := .new
  tasks := []
  others := []
  orphans := []
  written := []

/-- The tasks of a cycle that publish `errors`, one for each time the settings
list it. -/
def errorTasks (metrics : List String) : List Publish :=
  (metrics.filter (· = "errors")).map fun _ => .getting .queued

/-- The components of the other tasks: `metric.name.upper()`, and `HOSTNAME`. -/
def otherTasks (metrics : List String) : List String :=
  (metrics.filter (· ≠ "errors")).map String.toUpper ++ ["HOSTNAME"]

/-- The group is cancelled, and the session with it. -/
def abort (s : Agent) (phase : Phase) : Agent :=
  { s with
    phase
    tasks := []
    others := []
    orphans := s.orphans ++ s.tasks.filterMap Publish.orphaned }

/-- A task has ended with `outcome`, under `safe_handle`. -/
def settle (s : Agent) (component : String) (outcome : Except Exc Unit) : Agent :=
  match safeHandle component s.monitor outcome with
  | (monitor, .ok ()) => { s with monitor }
  | (monitor, .error _) => { s with monitor }.abort .away

/-- The `i`-th task has ended. -/
def taskEnds (s : Agent) (i : Nat) (outcome : Except Exc Unit) : Agent :=
  { s with tasks := s.tasks.eraseIdx i }.settle "ERRORS" outcome

/-- `settings.metrics` is the same for every session. -/
def step (metrics : List String) (s : Agent) : Event → Option Agent
  | .emit record => some { s with errors := ErrorBuffer.emit s.errors record }
  | .connected =>
      match s.phase with
      | .away => some { s with phase := .sleeping, monitor := .new }
      | _ => none
  | .cycle =>
      match s.phase with
      | .sleeping =>
          some { s with
            phase := .publishing
            tasks := errorTasks metrics
            others := otherTasks metrics }
      | _ => none
  | .threadSteps i =>
      match s.tasks[i]? with
      | some (.getting drain) =>
          match drain.step s.errors with
          | some (.ok (errors, drain)) =>
              some { s with errors, tasks := s.tasks.set i (.getting drain) }
          | some (.error e) => some (s.taskEnds i (.error e))
          | none => none
      | _ => none
  | .drained i =>
      match s.tasks[i]? with
      | some (.getting (.taking 0 [])) => some (s.taskEnds i (.ok ()))
      | some (.getting (.taking 0 models)) =>
          match Metric.encode (models.map .agentError) with
          | .ok text => some { s with tasks := s.tasks.set i (.writing models text) }
          | .error e => some (s.taskEnds i (.error e))
      | _ => none
  | .writeReturns i =>
      match s.tasks[i]? with
      | some (.writing models _) =>
          some ({ s with written := s.written ++ [models] }.taskEnds i (.ok ()))
      | _ => none
  | .writeRaises i e =>
      match s.tasks[i]? with
      | some (.writing _ _) => some (s.taskEnds i (.error e))
      | _ => none
  | .orphanSteps i =>
      match s.orphans[i]? with
      | some drain =>
          match drain.step s.errors with
          | some (.ok (errors, drain)) => some { s with errors, orphans := s.orphans.set i drain }
          | some (.error _) => some { s with orphans := s.orphans.eraseIdx i }
          | none => none
      | none => none
  | .orphanReturns i =>
      match s.orphans[i]? with
      | some (.taking 0 _) => some { s with orphans := s.orphans.eraseIdx i }
      | _ => none
  | .ends component outcome =>
      if component ∈ s.others then
        some ({ s with others := s.others.erase component }.settle component outcome)
      else none
  | .cycleEnds =>
      match s.phase, s.tasks, s.others with
      | .publishing, [], [] => some { s with phase := .sleeping }
      | _, _, _ => none
  | .interrupt =>
      match s.phase with
      | .ended => none
      | _ => some (s.abort .ended)

/-! ## Where the records are -/

/-- What is in the hands of tasks and threads. -/
def held (s : Agent) : List AgentError :=
  s.tasks.flatMap Publish.held ++ s.orphans.flatMap Drain.taken

/-- No publish is running, and no thread of one. -/
def Idle (s : Agent) : Prop := s.tasks = [] ∧ s.orphans = []

instance (s : Agent) : Decidable s.Idle := inferInstanceAs (Decidable (_ ∧ _))

/-! ## What one step did -/

/-- What the buffer takes in. -/
def arrivals : Agent × Event → List AgentError
  | (_, .emit record) => [record.agentError]
  | _ => []

/-- What a full buffer drops for it. -/
def evicted : Agent × Event → List AgentError
  | (s, .emit record) => s.errors.dropped record.agentError
  | _ => []

/-- What goes with the tasks of the group if this outcome cancels it. -/
def settleLoses (s : Agent) (component : String) (outcome : Except Exc Unit) : List AgentError :=
  match safeHandle component s.monitor outcome with
  | (_, .ok ()) => []
  | (_, .error _) => s.tasks.flatMap Publish.unsent

def taskLoses (s : Agent) (i : Nat) (e : Exc) : List AgentError :=
  { s with tasks := s.tasks.eraseIdx i }.settleLoses "ERRORS" (.error e)

/-- The records that were in somebody's hands and are not any more, without
having been written. -/
def lost : Agent × Event → List AgentError
  | (s, .threadSteps i) =>
      match s.tasks[i]? with
      | some (.getting drain) =>
          match drain.step s.errors with
          | some (.error e) => drain.taken ++ s.taskLoses i e
          | _ => []
      | _ => []
  | (s, .drained i) =>
      match s.tasks[i]? with
      | some (.getting (.taking 0 models)) =>
          match Metric.encode (models.map .agentError) with
          | .error e => models ++ s.taskLoses i e
          | .ok _ => []
      | _ => []
  | (s, .writeRaises i e) =>
      match s.tasks[i]? with
      | some (.writing models _) => models ++ s.taskLoses i e
      | _ => []
  | (s, .orphanSteps i) =>
      match s.orphans[i]? with
      | some drain =>
          match drain.step s.errors with
          | some (.error _) => drain.taken
          | _ => []
      | none => []
  | (s, .orphanReturns i) =>
      match s.orphans[i]? with
      | some drain => drain.taken
      | none => []
  | (s, .ends component outcome) => s.settleLoses component outcome
  | (s, .interrupt) => s.tasks.flatMap Publish.unsent
  | _ => []

end Agent

end KepServerLogger.Extractor
