import KepServerLogger.Lib.Models

/-!
# The event log (extractor/src/metrics/events.py)

The server returns its whole event log as a JSON array. Each item becomes a
`KepEvent`, whose hash is made of the four texts of the item; the log is
published again with every cycle, and the hash is how the database knows the
events it has.
-/

namespace KepServerLogger.Extractor

open KepServerLogger.Py KepServerLogger.Lib

/-- The texts of an item. -/
structure EventTexts where
  timestamp : String
  name : String
  source : String
  message : String
  deriving DecidableEq

/-- `f"{name}|{source}|{message}|{timestamp}"` -/
def EventTexts.prehash (t : EventTexts) : String :=
  t.name ++ "|" ++ t.source ++ "|" ++ t.message ++ "|" ++ t.timestamp

section

/- `repr` is that of a string, and `sha256` the upper-case hex digest of the
UTF-8 text. -/
variable (repr sha256 : String → String)

/-- `str(item.get(key, ""))` -/
def itemText (item : List (String × Json)) (key : String) : String :=
  match Dict.lookup key item with
  | some v => v.toStr repr
  | none => ""

def eventTexts : Json → Except Exc EventTexts
  | .obj item =>
      .ok {
        timestamp := itemText repr item "timestamp"
        name := itemText repr item "event"
        source := itemText repr item "source"
        message := itemText repr item "message" }
  | _ => .error ⟨.other, "object has no attribute 'get'"⟩

def EventTexts.kepEvent (t : EventTexts) : Except Exc KepEvent :=
  (parseTimestamp (.str t.timestamp)).map fun timestamp =>
    { timestamp, name := t.name, source := t.source, message := t.message
      hash := sha256 t.prehash }

/-- `get_kepserver_events` once the server has answered with `payload`. -/
def getKepserverEvents : Json → Except Exc (List KepEvent)
  | .arr items => items.mapM fun item => eventTexts repr item >>= fun t => t.kepEvent sha256
  | _ => .ok []

end

end KepServerLogger.Extractor
