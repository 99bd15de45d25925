import KepServerLogger.Lib.Models
import KepServerLogger.Py.Deque

/-!
# The buffer of warnings and errors (lib/logging.py)

`ErrorBufferHandler` turns every record of level WARNING or higher into an
`AgentError` and appends it to a deque, from whichever thread logs. `drain`
runs in a worker thread: it reads the length once and then takes that many
records off the left, one operation at a time, so it is a small machine here
and not a function. What it has taken is in its hands only.
-/

namespace KepServerLogger.Lib

open KepServerLogger.Py

def maxBufferedErrors : Nat := 999

def maxErrorsPerPublish : Nat := 50

def maxErrorTracebackChars : Nat := 4000

/-- `record.exc_info`, as far as `emit` reads it. -/
structure ExcInfo where
  type_name : String
  text : String
  /-- `"".join(traceback.format_exception(*record.exc_info))` -/
  formatted : String
  deriving DecidableEq

/-- `logging.LogRecord` -/
structure LogRecord where
  name : String
  levelname : String
  /-- `getMessage()` -/
  message : String
  exc_info : Option ExcInfo
  /-- `datetime.fromtimestamp(record.created, UTC)` -/
  created : Utc
  deriving DecidableEq

/-! ## The component of a message -/

/-- `\[([^\]]*)\]` at the front of the text, with what follows it. -/
def bracketGroup : List Char → Option (List Char × List Char)
  | '[' :: cs =>
      match cs.dropWhile (· ≠ ']') with
      | _ :: rest => some (cs.takeWhile (· ≠ ']'), rest)
      | [] => none
  | _ => none

/-- The run of groups at the front of the text, white space after each. The
text gets shorter with each group, so its length is enough fuel. -/
def bracketGroups : Nat → List Char → List (List Char)
  | 0, _ => []
  | n + 1, s =>
      match bracketGroup s with
      | none => []
      | some (group, rest) => group :: bracketGroups n (rest.dropWhile isStrSpace)

/-- `_COMPONENT_TAG.match(message).group(1)`. The star takes the whole run and
gives back groups until the next one is not empty, so what is captured is the
last group of the run that is not empty. -/
def componentTag (message : String) : Option String :=
  ((bracketGroups message.length message.toList).filter (· ≠ [])).getLast?.map String.ofList

example : componentTag "[plant-a] [OPC] [] lost" = some "OPC" := by decide

/-! ## The handler -/

/-- `details[-MAX_ERROR_TRACEBACK_CHARS:]` -/
def lastChars (n : Nat) (s : String) : String :=
  String.ofList (s.toList.drop (s.toList.length - n))

/-- The `AgentError` that `emit` appends. -/
def LogRecord.agentError (record : LogRecord) : AgentError where
  timestamp := record.created
  level := record.levelname
  component := (componentTag record.message).getD record.name
  message :=
    match record.exc_info with
    | none => record.message
    | some exc => record.message ++ ": " ++ exc.type_name ++ ": " ++ exc.text
  traceback := record.exc_info.map fun exc => lastChars maxErrorTracebackChars exc.formatted

abbrev ErrorBuffer := Deque maxBufferedErrors AgentError

namespace ErrorBuffer

def emit (errors : ErrorBuffer) (record : LogRecord) : ErrorBuffer :=
  errors.append record.agentError

end ErrorBuffer

/-- Where a thread stands in `drain`. -/
inductive Drain where
  /-- In the executor's queue. -/
  | queued
  /-- At `count = min(len(self._errors), MAX_ERRORS_PER_PUBLISH)`. -/
  | started
  /-- In the list comprehension, with `popleft` still to be called this often. -/
  | taking (remaining : Nat) (taken : List AgentError)
  deriving DecidableEq

namespace Drain

/-- What the thread has taken off the buffer. -/
def taken : Drain → List AgentError
  | taking _ taken => taken
  | _ => []

def popFromEmpty : Exc := ⟨.other, "pop from an empty deque"⟩

/-- One operation of the thread; `none` when it has returned. Where `popleft`
raises, the list built so far goes with the thread. -/
def step (errors : ErrorBuffer) : Drain → Option (Except Exc (ErrorBuffer × Drain))
  | queued => some (.ok (errors, started))
  | started => some (.ok (errors, taking (min errors.items.length maxErrorsPerPublish) []))
  | taking 0 _ => none
  | taking (remaining + 1) taken =>
      match errors.popleft with
      | some (error, errors) => some (.ok (errors, taking remaining (taken ++ [error])))
      | none => some (.error popFromEmpty)

end Drain

end KepServerLogger.Lib
