import KepServerLogger.Base.Handles
import KepServerLogger.Lib.Models

/-!
# The Windows services (extractor/src/metrics/services.py)

`get_service_info` asks the service control manager for one service: it opens
the manager, opens the service, by its name or by the name that belongs to its
display name, and queries it. Each handle is closed in a `finally`.

The manager is whatever answers; it may answer each call by what was called
before, and any call may raise, a closing too.
-/

namespace KepServerLogger.Extractor

open KepServerLogger.Py KepServerLogger.Lib

/-- What a call to win32service raises. -/
inductive ServiceExc where
  /-- `win32service.error`, with its `winerror` if it has one. -/
  | win32 (winerror : Option Int) (text : String)
  | other (exc : Exc)
  deriving DecidableEq

/-- `str(exc)` -/
def ServiceExc.text : ServiceExc → String
  | .win32 _ text => text
  | .other exc => exc.text

inductive ServiceCall where
  | openSCManager
  | openService (name : String)
  | getServiceKeyName (name : String)
  | queryServiceStatus
  | queryServiceStatusEx
  deriving DecidableEq

abbrev ServiceCalls : Type := List (HandleCall ServiceCall)

abbrev Asking (α : Type) : Type := Handling ServiceCall ServiceExc α

/-- The service control manager, by what it was called for so far. -/
structure ServiceManager where
  opens : ServiceCall → ServiceCalls → Except ServiceExc Unit
  keyName : String → ServiceCalls → Except ServiceExc String
  /-- The service type and the current state. -/
  status : ServiceCalls → Except ServiceExc (Nat × Nat)
  /-- The "ProcessId" of the process info, if it has one. -/
  processId : ServiceCalls → Except ServiceExc (Option Nat)
  closes : Nat → ServiceCalls → Except ServiceExc Unit
  /-- `utcnow()` -/
  now : ServiceCalls → Utc
  /-- `platform.node()` -/
  node : String

/-- `SERVICE_STATE_MAP` -/
def serviceStateMap : Dict Nat String :=
  ⟨[(1, "Stopped"), (2, "StartPending"), (3, "StopPending"), (4, "Running"),
    (5, "ContinuePending"), (6, "PausePending"), (7, "Paused")], by decide⟩

/-- `SERVICE_TYPE_FLAGS` -/
def serviceTypeFlags : List (Nat × String) :=
  [(0x1, "KernelDriver"), (0x2, "FileSystemDriver"), (0x10, "Win32OwnProcess"),
    (0x20, "Win32ShareProcess"), (0x100, "InteractiveProcess")]

/-- `_service_type_to_string` -/
def serviceTypeToString (service_type : Nat) : String :=
  let parts := (serviceTypeFlags.filter fun p => service_type &&& p.1 ≠ 0).map Prod.snd
  if parts = [] then toString service_type else "|".intercalate parts

section

variable (sm : ServiceManager)

def openSCManager : Asking Nat := .opening none .openSCManager (sm.opens .openSCManager)

def openService (scm : Nat) (name : String) : Asking Nat :=
  .opening (some scm) (.openService name) (sm.opens (.openService name))

def closeServiceHandle (h : Nat) : Asking Unit := .closing h (sm.closes h)

/-- `_resolve_service_name` -/
def resolveServiceName (name_or_display_name : String) : Asking String := do
  let scm ← openSCManager sm
  (Handling.handling
    (.calling scm (.getServiceKeyName name_or_display_name) (sm.keyName name_or_display_name))
    fun
      | .win32 _ _ => pure name_or_display_name
      | .other exc => .raise (.other exc)).finally' (closeServiceHandle sm scm)

/-- The service handle, by the name or by the name that is resolved if there
is no such service. -/
def openNamed (scm : Nat) (service_name : String) : Asking Nat :=
  Handling.handling (openService sm scm service_name) fun
    | .win32 (some 1060) _ => do
        let open_name ← resolveServiceName sm service_name
        openService sm scm open_name
    | e => .raise e

def queryService (service_name : String) (service_handle : Nat) : Asking ServiceInfo := do
  let status ← Handling.calling service_handle .queryServiceStatus sm.status
  let process_id ← Handling.calling service_handle .queryServiceStatusEx sm.processId
  fun t => (.ok {
    timestamp := sm.now t
    name := service_name
    status := (serviceStateMap.get? status.2).getD (toString status.2)
    service_type := serviceTypeToString status.1
    machine_name := sm.node
    process_ids := match process_id.getD 0 with
      | 0 => []
      | process_id => [Int.ofNat process_id] }, t)

def errorRetrieving (service_name : String) (exc : ServiceExc) : ServiceExc :=
  .other ⟨.runtimeError, "Error retrieving service '" ++ service_name ++ "': " ++ exc.text⟩

def getServiceInfo (service_name : String) : Asking ServiceInfo := do
  let scm ← openSCManager sm
  (Handling.handling
    (do
      let service_handle ← openNamed sm scm service_name
      (queryService sm service_name service_handle).finally' (closeServiceHandle sm service_handle))
    fun exc => .raise (errorRetrieving service_name exc)).finally' (closeServiceHandle sm scm)

/-- `get_services`, apart from the warning about an empty list. -/
def getServices (service_names : List String) : Asking (List ServiceInfo) :=
  .forEach (getServiceInfo sm) service_names

end

end KepServerLogger.Extractor
