import KepServerLogger.Lib.OpcParser
import KepServerLogger.Py.Value

/-!
# Downtime (lib/opc_parser.py)

How long a client was away in all: the gaps between a disconnect and the
connect after it, over the connections of its session. The instants are texts
of the log. Durations are whole microseconds.
-/

namespace KepServerLogger.Lib

open KepServerLogger.Py

/-- `_delta_seconds`. What `fromisoformat` raises is caught. -/
def deltaSeconds (t0 t1 : String) : Except Exc (Option Int) :=
  if t0 = "" ∨ t1 = "" then .ok none
  else
    match fromisoformat t0.toList, fromisoformat t1.toList with
    | some a, some b => (b.minus a).map some
    | _, _ => .ok none

namespace ClientSession

/-- The past connections, with the current one added. -/
def allSpans (s : ClientSession) : List ConnectionSpan :=
  s.past_connections ++ [⟨s.connected_at, s.auth_token, s.disconnected_at, ""⟩]

/-- The loop of `total_downtime_seconds`, with what it has summed up so far. -/
def addGaps (total : Int) : List ConnectionSpan → Except Exc Int
  | span :: next :: rest =>
      match deltaSeconds span.disconnected_at next.connected_at with
      | .error e => .error e
      | .ok none => addGaps total (next :: rest)
      | .ok (some gap) => addGaps (if 0 < gap then total + gap else total) (next :: rest)
  | _ => .ok total

def totalDowntimeSeconds (s : ClientSession) : Except Exc Int := addGaps 0 s.allSpans

end ClientSession

end KepServerLogger.Lib
