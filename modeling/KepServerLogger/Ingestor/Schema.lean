import KepServerLogger.Base.IfNotExists
import KepServerLogger.Base.Run
import KepServerLogger.Lib.Database
import KepServerLogger.Py.Dict

/-!
# The schema (ingestor/src/db.py, lib/database.py)

`initialize` runs once for each server when the ingestor starts. It creates
the server's database, then in one transaction the tables and their indexes,
then in one transaction each the hypertables with their retention. Every
statement is of the kind that leaves alone what is there already, so it can be
run again after it was interrupted anywhere, and `log_retention_days` may have
changed in between.

What a statement does to a database is PostgreSQL's and TimescaleDB's, and so
are the indexes that come with a table's key and with a hypertable. What the
ingestor relies on is `Postgres.Documented`.
-/

namespace KepServerLogger.Ingestor

open KepServerLogger.Py KepServerLogger.Lib

/-! ## Statements -/

structure Column where
  name : String
  type : String
  not_null : Bool
  deriving DecidableEq

structure TableDef where
  columns : List Column
  primary_key : List String
  deriving DecidableEq

structure IndexDef where
  table : String
  /-- The columns, and whether they are in descending order. -/
  columns : List (String × Bool)
  deriving DecidableEq

inductive Ddl where
  /-- `CREATE EXTENSION IF NOT EXISTS` -/
  | createExtension (name : String)
  /-- `CREATE TABLE IF NOT EXISTS` -/
  | createTable (name : String) (table : TableDef)
  /-- `CREATE INDEX IF NOT EXISTS` -/
  | createIndex (name : String) (index : IndexDef)
  /-- `create_hypertable(..., if_not_exists => TRUE)` -/
  | createHypertable (table column : String)
  /-- `add_retention_policy`, if the table has no such policy. -/
  | addRetention (table : String) (days : Int)
  deriving DecidableEq

/-- What a statement is about. Tables and indexes share their names. -/
inductive DbObject where
  | extension (name : String)
  | relation (name : String)
  | hypertable (table : String)
  | retention (table : String)
  deriving DecidableEq

def DbObject.isExtension : DbObject → Bool
  | .extension _ => true
  | _ => false

namespace Ddl

/-- What the statement makes, if there is none. -/
def object : Ddl → DbObject
  | .createExtension name => .extension name
  | .createTable name _ | .createIndex name _ => .relation name
  | .createHypertable table _ => .hypertable table
  | .addRetention table _ => .retention table

/-- The indexes that the server may make of itself: that of a primary key, and
that of the column of a hypertable. -/
def brings : Ddl → List DbObject
  | .createTable name _ => [.relation (name ++ "_pkey")]
  | .createHypertable table column => [.relation (table ++ "_" ++ column ++ "_idx")]
  | _ => []

end Ddl

/-- The server that the databases are on. -/
structure Postgres (Db : Type*) where
  /-- What `CREATE DATABASE` makes. -/
  fresh : Db
  /-- `none` where the statement raises. -/
  execute : Db → Ddl → Option Db
  /-- The statement that says how an object is, if there is the object. -/
  holds : Db → DbObject → Option Ddl

/-- A database that is created has nothing in it but what is installed in the
template, and each of the statements makes what it names only if there is no
such thing. -/
structure Postgres.Documented {Db : Type*} (pg : Postgres Db) : Prop where
  fresh : ∀ o, o.isExtension = false → pg.holds pg.fresh o = none
  ifNotExists : IfNotExists pg.execute pg.holds Ddl.object Ddl.brings

/-! ## What initialize asks for -/

def notNull (name type : String) : Column := ⟨name, type, true⟩

def nullable (name type : String) : Column := ⟨name, type, false⟩

def createTables : List (String × TableDef) :=
  [("tags", ⟨[notNull "logger_timestamp" "TIMESTAMPTZ", notNull "tag" "TEXT",
      nullable "value" "TEXT", nullable "status_code" "TEXT",
      nullable "source_timestamp" "TIMESTAMPTZ", nullable "server_timestamp" "TIMESTAMPTZ"], []⟩),
    ("events", ⟨[notNull "hash" "TEXT", notNull "timestamp" "TIMESTAMPTZ",
      notNull "event_name" "TEXT", notNull "source" "TEXT", notNull "message" "TEXT"],
      ["hash", "timestamp"]⟩),
    ("cpu_usage", ⟨[notNull "timestamp" "TIMESTAMPTZ", notNull "usage" "REAL"], []⟩),
    ("network_usage", ⟨[notNull "timestamp" "TIMESTAMPTZ", notNull "interface" "TEXT",
      notNull "operational_status" "TEXT", notNull "network_interface_type" "TEXT",
      notNull "kb_bytes_sent" "REAL", notNull "kb_bytes_received" "REAL"], []⟩),
    ("ram_usage", ⟨[notNull "timestamp" "TIMESTAMPTZ", notNull "total_kb" "BIGINT",
      notNull "free_kb" "BIGINT"], []⟩),
    ("services", ⟨[notNull "timestamp" "TIMESTAMPTZ", notNull "name" "TEXT",
      notNull "status" "TEXT", notNull "service_type" "TEXT", notNull "machine_name" "TEXT",
      notNull "process_ids" "TEXT"], []⟩),
    ("heartbeat_rtt", ⟨[notNull "timestamp" "TIMESTAMPTZ", notNull "pair" "TEXT",
      notNull "value" "INTEGER", notNull "rtt_ms" "DOUBLE PRECISION"],
      ["pair", "value", "timestamp"]⟩),
    ("agent_logs", ⟨[notNull "timestamp" "TIMESTAMPTZ", notNull "level" "TEXT",
      notNull "component" "TEXT", notNull "message" "TEXT", nullable "traceback" "TEXT"],
      ["timestamp", "component", "message"]⟩),
    ("active_log", ⟨[notNull "timestamp" "TIMESTAMPTZ", notNull "event" "TEXT",
      nullable "host_name" "TEXT", nullable "reason" "TEXT", nullable "error_id" "TEXT"], []⟩),
    ("ingestor_logs", ⟨[notNull "id" "TEXT", notNull "timestamp" "TIMESTAMPTZ",
      notNull "level" "TEXT", notNull "component" "TEXT", notNull "message" "TEXT",
      nullable "traceback" "TEXT"], ["id", "timestamp"]⟩),
    ("storage_usage", ⟨[notNull "timestamp" "TIMESTAMPTZ", notNull "total_gb" "REAL",
      notNull "used_gb" "REAL", notNull "free_gb" "REAL"], []⟩)]

def createIndexes : List (String × IndexDef) :=
  [("idx_tags_tag_timestamp", ⟨"tags", [("tag", false), ("logger_timestamp", true)]⟩),
    ("idx_cpu_timestamp", ⟨"cpu_usage", [("timestamp", true)]⟩),
    ("idx_network_timestamp", ⟨"network_usage", [("timestamp", true), ("interface", false)]⟩),
    ("idx_ram_timestamp", ⟨"ram_usage", [("timestamp", true)]⟩),
    ("idx_storage_timestamp", ⟨"storage_usage", [("timestamp", true)]⟩),
    ("idx_services_timestamp", ⟨"services", [("timestamp", true), ("name", false)]⟩),
    ("idx_events_timestamp", ⟨"events", [("timestamp", true)]⟩),
    ("idx_heartbeat_rtt_timestamp", ⟨"heartbeat_rtt", [("timestamp", true), ("pair", false)]⟩),
    ("idx_agent_logs_timestamp", ⟨"agent_logs", [("timestamp", true), ("level", false)]⟩),
    ("idx_active_log_timestamp", ⟨"active_log", [("timestamp", true)]⟩),
    ("idx_active_log_error_id", ⟨"active_log", [("error_id", false)]⟩),
    ("idx_ingestor_logs_timestamp", ⟨"ingestor_logs", [("timestamp", true), ("level", false)]⟩),
    ("idx_ingestor_logs_id", ⟨"ingestor_logs", [("id", false)]⟩)]

def createHypertables : List (String × String) :=
  [("tags", "logger_timestamp"), ("cpu_usage", "timestamp"), ("network_usage", "timestamp"),
    ("ram_usage", "timestamp"), ("storage_usage", "timestamp"), ("services", "timestamp"),
    ("events", "timestamp"), ("heartbeat_rtt", "timestamp"), ("agent_logs", "timestamp"),
    ("active_log", "timestamp"), ("ingestor_logs", "timestamp")]

/-- The first transaction of `initialize_schema`. -/
def schemaStatements : List Ddl :=
  .createExtension "timescaledb" :: createTables.map (fun p => .createTable p.1 p.2) ++
    createIndexes.map fun p => .createIndex p.1 p.2

/-- The transaction of `ensure_hypertable_and_retention`. -/
def hypertableStatements (table column : String) (retention_days : Int) : List Ddl :=
  [.createHypertable table column, .addRetention table retention_days]

/-- The transaction about a hypertable, or the first one. -/
def transactionStatements (retention_days : Int) : Option (String × String) → List Ddl
  | none => schemaStatements
  | some (table, column) => hypertableStatements table column retention_days

/-! ## The machine -/

/-- Where `initialize` stands. -/
inductive InitializeStage (Db : Type*) where
  /-- In `ensure_database_exists`. -/
  | database
  | connect
  /-- In a transaction: the database as it sees it, the statements left, the
  hypertable it is about if it is not the first, and the hypertables after it. -/
  | transaction (db : Db) (statements : List Ddl) (about : Option (String × String))
      (rest : List (String × String))

structure Initialize (Db : Type*) where
  db_name : String
  retention_days : Int
  stage : InitializeStage Db

/-- The databases of the server, and the attempt under way. -/
structure DatabaseServer (Db : Type*) where
  databases : Dict String Db
  attempt : Option (Initialize Db)

namespace DatabaseServer

inductive Event where
  /-- `IngestorDatabase(...).initialize()` -/
  | begins (db_name : String) (retention_days : Int)
  /-- The next operation returns, or raises for what it finds. -/
  | proceeds
  /-- The next operation raises, or the process ends. -/
  | interrupted
  deriving DecidableEq

variable {Db : Type*}

def start (databases : Dict String Db) : DatabaseServer Db := ⟨databases, none⟩

def goTo (s : DatabaseServer Db) (attempt : Initialize Db) (stage : InitializeStage Db) :
    DatabaseServer Db :=
  { s with attempt := some { attempt with stage } }

/-- `ensure_hypertable_and_retention` for the next table, if there is one. -/
def nextHypertable (s : DatabaseServer Db) (attempt : Initialize Db) (db : Db) :
    List (String × String) → DatabaseServer Db
  | [] => { s with attempt := none }
  | (table, column) :: rest =>
      match validateIdentifier table, validateIdentifier column with
      | .ok (), .ok () =>
          s.goTo attempt (.transaction db
            (hypertableStatements table column attempt.retention_days) (some (table, column)) rest)
      | _, _ => { s with attempt := none }

variable (pg : Postgres Db)

def step (s : DatabaseServer Db) : Event → Option (DatabaseServer Db)
  | .begins db_name retention_days =>
      match s.attempt with
      | none => some { s with attempt := some ⟨db_name, retention_days, .database⟩ }
      | some _ => none
  | .interrupted =>
      match s.attempt with
      | some _ => some { s with attempt := none }
      | none => none
  | .proceeds =>
      match s.attempt with
      | none => none
      | some attempt =>
          match attempt.stage with
          | .database =>
              match validateIdentifier attempt.db_name with
              | .error _ => some { s with attempt := none }
              | .ok () =>
                  let s := s.goTo attempt .connect
                  match s.databases.get? attempt.db_name with
                  | some _ => some s
                  | none =>
                      some { s with databases := s.databases.set attempt.db_name pg.fresh }
          | .connect =>
              match s.databases.get? attempt.db_name with
              | some db =>
                  some (s.goTo attempt (.transaction db schemaStatements none createHypertables))
              | none => some { s with attempt := none }
          | .transaction db (statement :: statements) about rest =>
              match pg.execute db statement with
              | some db => some (s.goTo attempt (.transaction db statements about rest))
              | none => some { s with attempt := none }
          | .transaction db [] _ rest =>
              let s := { s with databases := s.databases.set attempt.db_name db }
              some (s.nextHypertable attempt db rest)

/-! ## What one step did -/

/-- The statements of the transaction that a step commits. -/
def committed (db_name : String) : DatabaseServer Db × Event → List Ddl
  | (⟨_, some ⟨name, days, .transaction _ [] about _⟩⟩, .proceeds) =>
      if name = db_name then transactionStatements days about else []
  | _ => []

/-- The hypertable whose transaction a step commits, and the days it was given. -/
def tableCommits (db_name : String) : DatabaseServer Db × Event → List (String × Int)
  | (⟨_, some ⟨name, days, .transaction _ [] (some (table, _)) _⟩⟩, .proceeds) =>
      if name = db_name then [(table, days)] else []
  | _ => []

/-- The database whose `initialize` a step returns from. -/
def completed : DatabaseServer Db × Event → List String
  | (⟨_, some ⟨name, _, .transaction _ [] _ []⟩⟩, .proceeds) => [name]
  | _ => []

end DatabaseServer

end KepServerLogger.Ingestor
