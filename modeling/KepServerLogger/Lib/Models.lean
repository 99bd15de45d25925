import KepServerLogger.Py.Dict
import KepServerLogger.Py.Value

/-!
# The models (lib/models.py)

One structure for each model class. A timestamp that went through
`parse_timestamp` is an aware datetime in UTC, so that is the type of the
field: a model with a naive or a local timestamp cannot be built.

A model leaves the program in two forms, the JSON object on the wire
(`to_opcua`) and the database row (`to_row`), both made from `model_dump`.
It enters as a JSON object, through the validators pydantic runs for its
class. What pydantic itself decides — which values it takes for an `int` or
a `float` — is a parameter, as is the JSON reader.
-/

namespace KepServerLogger.Lib

open KepServerLogger.Py

/-- `TIMESTAMP_FORMAT` of lib/utils.py, `%Y-%m-%dT%H:%M:%SZ`. -/
def timestampFormat : List Directive :=
  [.field .Y, .lit '-', .field .m, .lit '-', .field .d, .lit 'T', .field .H,
    .lit ':', .field .M, .lit ':', .field .S, .lit 'Z']

/-- What the decoding path calls that is not in this repository. -/
structure Externals where
  /-- `json.loads`, of any value. -/
  jsonLoads : PyValue → Except Exc Json
  /-- The value pydantic takes for an `int` field, if any. -/
  pydanticInt : Json → Option Int
  /-- The value pydantic takes for a `float` field, if any. -/
  pydanticFloat : Json → Option PyFloat
  /-- `repr` of a string. -/
  repr : String → String

/-- Pydantic copies a value that already has the declared type. -/
structure Externals.Copies (env : Externals) : Prop where
  int : ∀ n, env.pydanticInt (.int n) = some n
  float : ∀ x, env.pydanticFloat (.float x) = some x

/-! ## The classes -/

structure CPUUsage where
  timestamp : Utc
  usage : PyFloat
  deriving DecidableEq

structure RAMUsage where
  timestamp : Utc
  total_kb : Int
  free_kb : Int
  deriving DecidableEq

structure StorageUsage where
  timestamp : Utc
  free_gb : PyFloat
  used_gb : PyFloat
  total_gb : PyFloat
  deriving DecidableEq

structure NetworkUsage where
  timestamp : Utc
  interface : String
  operational_status : String
  network_interface_type : String
  kb_bytes_sent : PyFloat
  kb_bytes_received : PyFloat
  deriving DecidableEq

structure ServiceInfo where
  timestamp : Utc
  name : String
  status : String
  service_type : String
  machine_name : String
  process_ids : List Int
  deriving DecidableEq

structure HeartbeatRTT where
  timestamp : Utc
  pair : String
  value : Int
  rtt_ms : PyFloat
  deriving DecidableEq

structure AgentError where
  timestamp : Utc
  level : String
  component : String
  message : String
  traceback : Option String
  deriving DecidableEq

structure KepEvent where
  timestamp : Utc
  name : String
  source : String
  message : String
  hash : String
  deriving DecidableEq

inductive ModelClass where
  | cpuUsage
  | ramUsage
  | storageUsage
  | networkUsage
  | serviceInfo
  | heartbeatRTT
  | agentError
  | kepEvent
  deriving DecidableEq, Repr

/-- An instance of a subclass of `OPCUAModel`. -/
inductive OPCUAModel where
  | cpuUsage (m : CPUUsage)
  | ramUsage (m : RAMUsage)
  | storageUsage (m : StorageUsage)
  | networkUsage (m : NetworkUsage)
  | serviceInfo (m : ServiceInfo)
  | heartbeatRTT (m : HeartbeatRTT)
  | agentError (m : AgentError)
  | kepEvent (m : KepEvent)
  deriving DecidableEq

namespace OPCUAModel

def cls : OPCUAModel → ModelClass
  | .cpuUsage _ => .cpuUsage
  | .ramUsage _ => .ramUsage
  | .storageUsage _ => .storageUsage
  | .networkUsage _ => .networkUsage
  | .serviceInfo _ => .serviceInfo
  | .heartbeatRTT _ => .heartbeatRTT
  | .agentError _ => .agentError
  | .kepEvent _ => .kepEvent

def timestamp : OPCUAModel → Utc
  | .cpuUsage m => m.timestamp
  | .ramUsage m => m.timestamp
  | .storageUsage m => m.timestamp
  | .networkUsage m => m.timestamp
  | .serviceInfo m => m.timestamp
  | .heartbeatRTT m => m.timestamp
  | .agentError m => m.timestamp
  | .kepEvent m => m.timestamp

def optStr : Option String → PyValue
  | none => .none
  | some s => .str s

/-- The declared fields with their values, the base class first. -/
def modelDump : OPCUAModel → Dict String PyValue
  | .cpuUsage m =>
      ⟨[("timestamp", .datetime m.timestamp.toDatetime), ("usage", .float m.usage)],
        by simp⟩
  | .ramUsage m =>
      ⟨[("timestamp", .datetime m.timestamp.toDatetime), ("total_kb", .int m.total_kb),
        ("free_kb", .int m.free_kb)], by simp⟩
  | .storageUsage m =>
      ⟨[("timestamp", .datetime m.timestamp.toDatetime), ("free_gb", .float m.free_gb),
        ("used_gb", .float m.used_gb), ("total_gb", .float m.total_gb)], by simp⟩
  | .networkUsage m =>
      ⟨[("timestamp", .datetime m.timestamp.toDatetime), ("interface", .str m.interface),
        ("operational_status", .str m.operational_status),
        ("network_interface_type", .str m.network_interface_type),
        ("kb_bytes_sent", .float m.kb_bytes_sent),
        ("kb_bytes_received", .float m.kb_bytes_received)], by simp⟩
  | .serviceInfo m =>
      ⟨[("timestamp", .datetime m.timestamp.toDatetime), ("name", .str m.name),
        ("status", .str m.status), ("service_type", .str m.service_type),
        ("machine_name", .str m.machine_name), ("process_ids", .ints m.process_ids)],
        by simp⟩
  | .heartbeatRTT m =>
      ⟨[("timestamp", .datetime m.timestamp.toDatetime), ("pair", .str m.pair),
        ("value", .int m.value), ("rtt_ms", .float m.rtt_ms)], by simp⟩
  | .agentError m =>
      ⟨[("timestamp", .datetime m.timestamp.toDatetime), ("level", .str m.level),
        ("component", .str m.component), ("message", .str m.message),
        ("traceback", optStr m.traceback)], by simp⟩
  | .kepEvent m =>
      ⟨[("timestamp", .datetime m.timestamp.toDatetime), ("name", .str m.name),
        ("source", .str m.source), ("message", .str m.message), ("hash", .str m.hash)],
        by simp⟩

/-- `",".join(str(pid) for pid in self.process_ids)` -/
def processIdsText (pids : List Int) : String :=
  String.ofList (join ',' (pids.map intStr))

/-- `OPCUAModel.to_opcua`, which a subclass extends. -/
def baseToOpcua (m : OPCUAModel) : Dict String PyValue :=
  m.modelDump.set "timestamp" (.str (String.ofList (strftime m.timestamp.clock timestampFormat)))

def isoTimestamp (t : Utc) : PyValue := .str (String.ofList (t.toDatetime.isoformat 'T'))

def toOpcua : OPCUAModel → Dict String PyValue
  | .serviceInfo m =>
      (baseToOpcua (.serviceInfo m)).set "process_ids" (.str (processIdsText m.process_ids))
  | .heartbeatRTT m =>
      (baseToOpcua (.heartbeatRTT m)).set "timestamp" (isoTimestamp m.timestamp)
  | .agentError m =>
      (baseToOpcua (.agentError m)).set "timestamp" (isoTimestamp m.timestamp)
  | m => baseToOpcua m

def toRow : OPCUAModel → Dict String PyValue
  | .serviceInfo m =>
      (OPCUAModel.serviceInfo m).modelDump.set "process_ids"
        (.str (processIdsText m.process_ids))
  | m => m.modelDump

end OPCUAModel

/-! ## Validation -/

/-- `s.replace("Z", "+00:00")` -/
def replaceZ (s : List Char) : List Char :=
  s.flatMap fun c => if c = 'Z' then "+00:00".toList else [c]

/-- `parse_timestamp` of a value off the wire. `strptime` raises `TypeError`
for what is not a string, and nothing catches it. -/
def parseTimestamp : Json → Except Exc Utc
  | .str v =>
      match strptime timestampFormat v.toList with
      | some n => .ok ⟨n⟩
      | none =>
          match (fromisoformat (replaceZ v.toList)).bind Datetime.toUtc with
          | some u => .ok u
          | none => .error ⟨.valueError, "Could not parse timestamp '" ++ v ++ "'"⟩
  | _ => .error ⟨.typeError, "strptime() argument 1 must be str"⟩

/-- The error pydantic raises for a field it cannot validate. -/
def invalid (field : String) : Exc := ⟨.validationError, field⟩

/-- A declared field without a default. -/
def required (item : List (String × Json)) (field : String) : Except Exc Json :=
  match Dict.lookup field item with
  | some v => .ok v
  | none => .error (invalid field)

def timestampField (item : List (String × Json)) : Except Exc Utc := do
  let v ← required item "timestamp"
  match parseTimestamp v with
  | .ok u => .ok u
  -- A `ValueError` of a validator becomes pydantic's own; others escape.
  | .error e => .error (if e.isValueError then invalid "timestamp" else e)

def strField (item : List (String × Json)) (field : String) : Except Exc String := do
  match ← required item field with
  | .str s => .ok s
  | _ => .error (invalid field)

def optStrField (item : List (String × Json)) (field : String) :
    Except Exc (Option String) :=
  match Dict.lookup field item with
  | none => .ok none
  | some .null => .ok none
  | some (.str s) => .ok (some s)
  | some _ => .error (invalid field)

section

variable (env : Externals)

def intField (item : List (String × Json)) (field : String) : Except Exc Int := do
  match env.pydanticInt (← required item field) with
  | some n => .ok n
  | none => .error (invalid field)

def floatField (item : List (String × Json)) (field : String) : Except Exc PyFloat := do
  match env.pydanticFloat (← required item field) with
  | some x => .ok x
  | none => .error (invalid field)

/-- `parse_process_ids`: a string is split at the commas, the empty parts
are skipped and the rest read by `int`; anything else is left to pydantic. -/
def parseProcessIds : Json → Option Json
  | .str v =>
      (((split ',' v.toList).filter (· ≠ [])).mapM int?).map fun pids =>
        .arr (pids.map .int)
  | v => some v

def pidsField (item : List (String × Json)) : Except Exc (List Int) := do
  match parseProcessIds (← required item "process_ids") with
  | some (.arr xs) =>
      match xs.mapM env.pydanticInt with
      | some pids => .ok pids
      | none => .error (invalid "process_ids")
  | _ => .error (invalid "process_ids")

/-- `cls(**item)`: the fields in the order they are declared; keys that are
not fields are ignored. -/
def ModelClass.construct (item : List (String × Json)) :
    ModelClass → Except Exc OPCUAModel
  | .cpuUsage => do
      let timestamp ← timestampField item
      let usage ← floatField env item "usage"
      return .cpuUsage { timestamp, usage }
  | .ramUsage => do
      let timestamp ← timestampField item
      let total_kb ← intField env item "total_kb"
      let free_kb ← intField env item "free_kb"
      return .ramUsage { timestamp, total_kb, free_kb }
  | .storageUsage => do
      let timestamp ← timestampField item
      let free_gb ← floatField env item "free_gb"
      let used_gb ← floatField env item "used_gb"
      let total_gb ← floatField env item "total_gb"
      return .storageUsage { timestamp, free_gb, used_gb, total_gb }
  | .networkUsage => do
      let timestamp ← timestampField item
      let interface ← strField item "interface"
      let operational_status ← strField item "operational_status"
      let network_interface_type ← strField item "network_interface_type"
      let kb_bytes_sent ← floatField env item "kb_bytes_sent"
      let kb_bytes_received ← floatField env item "kb_bytes_received"
      return .networkUsage
        { timestamp, interface, operational_status, network_interface_type,
          kb_bytes_sent, kb_bytes_received }
  | .serviceInfo => do
      let timestamp ← timestampField item
      let name ← strField item "name"
      let status ← strField item "status"
      let service_type ← strField item "service_type"
      let machine_name ← strField item "machine_name"
      let process_ids ← pidsField env item
      return .serviceInfo
        { timestamp, name, status, service_type, machine_name, process_ids }
  | .heartbeatRTT => do
      let timestamp ← timestampField item
      let pair ← strField item "pair"
      let value ← intField env item "value"
      let rtt_ms ← floatField env item "rtt_ms"
      return .heartbeatRTT { timestamp, pair, value, rtt_ms }
  | .agentError => do
      let timestamp ← timestampField item
      let level ← strField item "level"
      let component ← strField item "component"
      let message ← strField item "message"
      let traceback ← optStrField item "traceback"
      return .agentError { timestamp, level, component, message, traceback }
  | .kepEvent => do
      let timestamp ← timestampField item
      let name ← strField item "name"
      let source ← strField item "source"
      let message ← strField item "message"
      let hash ← strField item "hash"
      return .kepEvent { timestamp, name, source, message, hash }

end

end KepServerLogger.Lib
