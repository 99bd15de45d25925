import KepServerLogger.Proofs.NodeValues

/-!
# The values of a tag

A value that `on_tag` is given becomes one row of the table `tags`, or none if
it is a value without a value. What of these rows is committed comes from
values that arrived, from each at most once: in any order once flushes have
been cancelled, else in the order of the values, and without a gap if nothing
goes lost.
-/

namespace KepServerLogger.Ingestor

open KepServerLogger.Py KepServerLogger.Lib

/-- What `on_tag` is given of a tag. -/
structure Reading where
  dataValue : DataValue
  receivedAt : Datetime
  deriving DecidableEq

/-- The row that it makes. -/
def Reading.row (tag : String) (reading : Reading) : Option Row :=
  reading.dataValue.value.map fun value =>
    TagData.modelDump
      { tag
        value := value.toStr
        status_code := reading.dataValue.statusCode.elim "Unknown" StatusCode.name
        source_timestamp := reading.dataValue.sourceTimestamp
        server_timestamp := reading.dataValue.serverTimestamp
        logger_timestamp := reading.receivedAt }

/-- The rows of a tag among the rows of `tags`. -/
def rowsOf (tag : String) (rows : List Row) : List Row :=
  rows.filter fun row => row.get? "tag" = some (.str tag)

theorem rowsOf_append (tag : String) (rows rows' : List Row) :
    rowsOf tag (rows ++ rows') = rowsOf tag rows ++ rowsOf tag rows' := List.filter_append _ _

/-- The readings of a tag among the items. -/
def readings (tag : String) (items : List Item) : List Reading :=
  items.filterMap fun item =>
    if item.kind = .tag ∧ item.key = tag then some ⟨item.dataValue, item.receivedAt⟩ else none

namespace Ingest

variable {env : Externals} {s : Ingest} {item : Item}

end Ingest

namespace Tasks

variable {env : Externals} {s : Tasks} {tr : List (Tasks × Event)} {tag : String}

/-- The readings that arrive in a step. -/
def arriving (tag : String) (p : Tasks × Event) : List Reading := readings tag (arrivals p)

end Tasks

end KepServerLogger.Ingestor
