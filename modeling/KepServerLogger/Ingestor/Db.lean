import KepServerLogger.Lib.Database
import KepServerLogger.Lib.Models

/-!
# The ingestor's database (ingestor/src/db.py)

Three operations write, all of them through `transaction()`: `insert_many`
takes the rows of several tables at once, `log_status` and `log_event` write
one row each. What an operation does before the transaction is to build its
statements, and only `insert_many` can fail there.

A statement is its text and its parameters; the table and the columns it
names stand next to the text, which is not parsed back. The schema is the
columns of the `CREATE TABLE` statements.
-/

namespace KepServerLogger.Ingestor

open KepServerLogger.Py KepServerLogger.Lib

/-- A row on its way to a table: column → value. -/
abbrev Row := Dict String PyValue

abbrev Batch := Dict String (List Row)

/-- One row as the database gets it. -/
structure Write where
  table : String
  columns : List String
  values : List PyValue
  deriving DecidableEq

structure Statement where
  query : String
  table : String
  columns : List String
  params : List (List PyValue)
  deriving DecidableEq

def Statement.writes (st : Statement) : List Write :=
  st.params.map fun values => ⟨st.table, st.columns, values⟩

/-! ## insert_many -/

def insertQuery (table : String) (columns : List String) : String :=
  "INSERT INTO " ++ table ++ " (" ++ ", ".intercalate columns ++ ") " ++
    "VALUES (" ++ ", ".intercalate (columns.map fun _ => "%s") ++ ") ON CONFLICT DO NOTHING;"

/-- `tuple(r[c] for c in columns)` -/
def rowValues (columns : List String) (r : Row) : Except Exc (List PyValue) :=
  columns.mapM fun c =>
    match r.get? c with
    | some v => .ok v
    | none => .error ⟨.keyError, "'" ++ c ++ "'"⟩

/-- One turn of the loop over the tables; a table without rows is skipped. -/
def insertStatement (table : String) : List Row → Except Exc (Option Statement)
  | [] => .ok none
  | first :: rest => do
      let columns := first.keys
      (table :: columns).forM validateIdentifier
      let params ← (first :: rest).mapM (rowValues columns)
      return some ⟨insertQuery table columns, table, columns, params⟩

def insertStatements (rowsByTable : Batch) : Except Exc (List Statement) := do
  let statements ← rowsByTable.items.mapM fun p => insertStatement p.1 p.2
  return statements.reduceOption

/-! ## log_status and log_event -/

/-- What `log_event` reads of an exception. -/
structure Reported where
  type_name : String
  text : String
  traceback : String
  deriving DecidableEq

/-- A call of one of the operations, with the clock reading and the id it
draws. -/
inductive Request where
  | insertMany (rowsByTable : Batch)
  | logStatus (event : String) (host_name : PyValue) (reason error_id : Option String)
      (now : Datetime)
  | logEvent (level component : String) (exc : Reported) (event_id : String)
      (now : Datetime)

def statusQuery : String :=
  "\n                INSERT INTO active_log (timestamp, event, host_name, reason, error_id)" ++
    "\n                VALUES (%s, %s, %s, %s, %s);\n                "

def statusStatement (event : String) (host_name : PyValue) (reason error_id : Option String)
    (now : Datetime) : Statement :=
  ⟨statusQuery, "active_log", ["timestamp", "event", "host_name", "reason", "error_id"],
    [[.datetime now, .str event, host_name, OPCUAModel.optStr reason,
      OPCUAModel.optStr error_id]]⟩

def eventQuery : String :=
  "\n                INSERT INTO ingestor_logs" ++
    " (id, timestamp, level, component, message, traceback)" ++
    "\n                VALUES (%s, %s, %s, %s, %s, %s);\n                "

def eventStatement (level component : String) (exc : Reported) (event_id : String)
    (now : Datetime) : Statement :=
  ⟨eventQuery, "ingestor_logs",
    ["id", "timestamp", "level", "component", "message", "traceback"],
    [[.str event_id, .datetime now, .str level, .str component,
      .str (exc.type_name ++ ": " ++ exc.text), .str exc.traceback]]⟩

/-- The statements an operation executes in its transaction. -/
def Request.statements : Request → Except Exc (List Statement)
  | .insertMany rowsByTable => insertStatements rowsByTable
  | .logStatus event host_name reason error_id now =>
      .ok [statusStatement event host_name reason error_id now]
  | .logEvent level component exc event_id now =>
      .ok [eventStatement level component exc event_id now]

/-- The rows of each statement. -/
def Request.plan (request : Request) : Except Exc (List (List Write)) := do
  let statements ← request.statements
  return statements.map Statement.writes

/-! ## The schema -/

/-- The columns of each table, from the `CREATE TABLE` statements of
`initialize`. -/
def schema : Dict String (List String) :=
  ⟨[("tags", ["logger_timestamp", "tag", "value", "status_code", "source_timestamp",
        "server_timestamp"]),
    ("events", ["hash", "timestamp", "event_name", "source", "message"]),
    ("cpu_usage", ["timestamp", "usage"]),
    ("network_usage", ["timestamp", "interface", "operational_status",
        "network_interface_type", "kb_bytes_sent", "kb_bytes_received"]),
    ("ram_usage", ["timestamp", "total_kb", "free_kb"]),
    ("services", ["timestamp", "name", "status", "service_type", "machine_name",
        "process_ids"]),
    ("heartbeat_rtt", ["timestamp", "pair", "value", "rtt_ms"]),
    ("agent_logs", ["timestamp", "level", "component", "message", "traceback"]),
    ("active_log", ["timestamp", "event", "host_name", "reason", "error_id"]),
    ("ingestor_logs", ["id", "timestamp", "level", "component", "message", "traceback"]),
    ("storage_usage", ["timestamp", "total_gb", "used_gb", "free_gb"])],
    by decide⟩

end KepServerLogger.Ingestor
