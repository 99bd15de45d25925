import KepServerLogger.Lib.Models

/-!
# The metrics (lib/metrics.py)

A metric travels as a JSON array of models in one string node. `encode` is
what the extractor writes; `decode` is what the ingestor makes of one data
change, an exception standing for a value it cannot use.
-/

namespace KepServerLogger.Lib

open KepServerLogger.Py

/-- `ua.StatusCode`, as far as it is looked at. -/
structure StatusCode where
  name : String
  is_good : Bool
  deriving DecidableEq

/-- `ua.DataValue`: `value` is `none` when there is no variant at all. -/
structure DataValue where
  statusCode : Option StatusCode
  value : Option PyValue
  sourceTimestamp : Option Datetime
  serverTimestamp : Option Datetime
  deriving DecidableEq

/-- A good value without timestamps. -/
def DataValue.good (value : PyValue) : DataValue :=
  ⟨some ⟨"Good", true⟩, some value, none, none⟩

structure Metric where
  name : String
  node_name : String
  model : ModelClass
  table_name : String
  columns : Dict String String := ∅
  idempotent : Bool := false
  deriving DecidableEq

def Metric.nodeId (metric : Metric) (nodePrefix : String) : String :=
  nodePrefix ++ "." ++ metric.node_name ++ ".batch"

/-- The values of a dictionary as a JSON object; `none` where `json.dumps`
raises `TypeError`. -/
def dictToJson? (d : Dict String PyValue) : Option Json :=
  (d.items.mapM fun p : String × PyValue => p.2.toJson?.map fun v => (p.1, v)).map .obj

def Metric.encode (models : List OPCUAModel) : Except Exc String :=
  match models.mapM fun m => dictToJson? m.toOpcua with
  | some items => .ok (Json.arr items).dumps
  | none => .error ⟨.typeError, "not JSON serializable"⟩

section

variable (env : Externals)

/-- `cls(**item)`, which needs a mapping. -/
def constructItem (cls : ModelClass) : Json → Except Exc OPCUAModel
  | .obj item => cls.construct env item
  | _ => .error ⟨.typeError, "argument after ** must be a mapping"⟩

/-- The items a `for` loop goes through; iterating over an object gives its
keys and over a string its characters. -/
def iterate : Json → Except Exc (List Json)
  | .arr xs => .ok xs
  | .obj kvs => .ok (kvs.map fun p => .str p.1)
  | .str s => .ok (s.toList.map fun c => .str (String.ofList [c]))
  | _ => .error ⟨.typeError, "object is not iterable"⟩

def Metric.decode (metric : Metric) (dataValue : DataValue) :
    Except Exc (List OPCUAModel) :=
  match dataValue.statusCode with
  | some ⟨statusName, false⟩ =>
      .error ⟨.valueError, metric.name ++ ": bad status " ++ statusName⟩
  | _ =>
      match dataValue.value with
      | none => .ok []
      | some raw =>
          if !raw.truthy then .ok []
          else
            match env.jsonLoads raw with
            | .error e =>
                if e.kind = .jsonDecodeError then
                  .error ⟨.valueError, metric.name ++ ": invalid JSON (" ++ e.text ++
                    "); starts with " ++
                    env.repr (String.ofList (raw.toStr.toList.take 80))⟩
                else .error e
            | .ok payload => do (← iterate payload).mapM (constructItem env metric.model)

end

/-- The parameters at which runs can be computed: a JSON reader that knows the
texts of a table, and fields that only take values of the declared type. -/
def Externals.ofTexts (texts : List (String × Json)) : Externals where
  jsonLoads
    | .str s =>
        match Dict.lookup s texts with
        | some v => .ok v
        | none => .error ⟨.jsonDecodeError, "Expecting value: line 1 column 1 (char 0)"⟩
    | _ => .error ⟨.typeError, "the JSON object must be str, bytes or bytearray"⟩
  pydanticInt
    | .int n => some n
    | _ => none
  pydanticFloat
    | .float x => some x
    | _ => none
  repr s := "'" ++ s ++ "'"

theorem Externals.copies_ofTexts (texts : List (String × Json)) :
    (Externals.ofTexts texts).Copies :=
  ⟨fun _ => rfl, fun _ => rfl⟩

theorem Externals.jsonLoads_ofTexts (text : String) (v : Json) (rest : List (String × Json)) :
    (Externals.ofTexts ((text, v) :: rest)).jsonLoads (.str text) = .ok v := by
  simp [Externals.ofTexts, Dict.lookup]

def metricList : List Metric :=
  [{ name := "cpu", node_name := "CPU", model := .cpuUsage, table_name := "cpu_usage" },
    { name := "ram", node_name := "RAM", model := .ramUsage, table_name := "ram_usage" },
    { name := "storage", node_name := "Storage", model := .storageUsage,
      table_name := "storage_usage" },
    { name := "network", node_name := "Network", model := .networkUsage,
      table_name := "network_usage" },
    { name := "services", node_name := "Services", model := .serviceInfo,
      table_name := "services" },
    { name := "heartbeat", node_name := "Heartbeat", model := .heartbeatRTT,
      table_name := "heartbeat_rtt", idempotent := true },
    { name := "errors", node_name := "Errors", model := .agentError,
      table_name := "agent_logs", idempotent := true },
    { name := "events", node_name := "Events", model := .kepEvent, table_name := "events",
      columns := ⟨[("name", "event_name")], by simp⟩, idempotent := true }]

/-- `METRICS`, keyed by name. -/
def metrics : Dict String Metric := Dict.ofList (metricList.map fun m => (m.name, m))

end KepServerLogger.Lib
