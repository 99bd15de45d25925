import KepServerLogger.Base.KeyedTable
import KepServerLogger.Ingestor.Db

/-!
# What a table holds

Every row is inserted with `ON CONFLICT DO NOTHING`, so a table with a primary
key keeps the first row of each key it is offered. A table without one keeps
them all.
-/

namespace KepServerLogger.Ingestor

open KepServerLogger.Py

/-- The `PRIMARY KEY` of each table that declares one. -/
def primaryKey : Dict String (List String) :=
  ⟨[("events", ["hash", "timestamp"]),
    ("heartbeat_rtt", ["pair", "value", "timestamp"]),
    ("agent_logs", ["timestamp", "component", "message"]),
    ("ingestor_logs", ["id", "timestamp"])], by decide⟩

def rowKey (columns : List String) (row : Row) : List (Option PyValue) := columns.map row.get?

/-- What is in a table after these rows. -/
def contents (table : String) (rows : List Row) : List Row :=
  match primaryKey.get? table with
  | some columns => KeyedTable.insertAll (rowKey columns) [] rows
  | none => rows

end KepServerLogger.Ingestor
