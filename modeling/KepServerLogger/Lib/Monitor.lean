import KepServerLogger.Py.Dict
import KepServerLogger.Py.Value

/-!
# Counting failures (lib/monitor.py)

Every unit of work of a session runs under `safe_handle`, which counts how
often its component has failed in a row. A failure is swallowed until it is
one too many; a `ConnectionError` is never swallowed.
-/

namespace KepServerLogger.Lib

open KepServerLogger.Py

def maxConsecutiveMetricFailures : Nat := 3

structure OPCUAMonitor where
  consecutive_failures : Dict String Nat
  deriving DecidableEq

namespace OPCUAMonitor

def new : OPCUAMonitor := ⟨∅⟩

/-- `self.consecutive_failures.pop(component, None)` -/
def onSuccess (monitor : OPCUAMonitor) (component : String) : OPCUAMonitor :=
  ⟨monitor.consecutive_failures.erase component⟩

def forcingReconnect (component : String) (count : Nat) : Exc :=
  ⟨.connectionError,
    component ++ " failed " ++ toString count ++ " times in a row, forcing reconnect"⟩

def onFailure (monitor : OPCUAMonitor) (component : String) : OPCUAMonitor × Except Exc Unit :=
  let count := monitor.consecutive_failures.getD component 0 + 1
  (⟨monitor.consecutive_failures.set component count⟩,
    if maxConsecutiveMetricFailures ≤ count then .error (forcingReconnect component count)
    else .ok ())

end OPCUAMonitor

/-- `safe_handle` once its coroutine has ended with `outcome`, without a hook. -/
def safeHandle (component : String) (monitor : OPCUAMonitor) (outcome : Except Exc Unit) :
    OPCUAMonitor × Except Exc Unit :=
  match outcome with
  | .ok () => (monitor.onSuccess component, .ok ())
  | .error e =>
      if e.kind = .connectionError then (monitor, .error e) else monitor.onFailure component

/-- `safe_handle` with its `on_error_hook`, which is told of the failure
before the monitor is; what the hook raises goes out in its place. -/
def safeHandleWith (hook : Option (Exc → Except Exc Unit)) (component : String)
    (monitor : OPCUAMonitor) (outcome : Except Exc Unit) : OPCUAMonitor × Except Exc Unit :=
  match outcome with
  | .ok () => (monitor.onSuccess component, .ok ())
  | .error e =>
      if e.kind = .connectionError then (monitor, .error e)
      else
        match hook.elim (.ok ()) (· e) with
        | .ok () => monitor.onFailure component
        | .error e' => (monitor, .error e')

/-- A hook that returns changes nothing. -/
theorem safeHandleWith_of_returns {hook : Option (Exc → Except Exc Unit)}
    {outcome : Except Exc Unit} (h : ∀ f ∈ hook, ∀ e, outcome = .error e → f e = .ok ())
    (component : String) (monitor : OPCUAMonitor) :
    safeHandleWith hook component monitor outcome = safeHandle component monitor outcome := by
  cases outcome with
  | ok => rfl
  | error e =>
      have hreturns : hook.elim (.ok ()) (· e) = .ok () := by
        cases hook with
        | none => rfl
        | some f => exact h f rfl e rfl
      simp only [safeHandleWith, safeHandle, hreturns]

end KepServerLogger.Lib
