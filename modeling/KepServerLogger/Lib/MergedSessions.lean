import KepServerLogger.Lib.OpcParser

/-!
# Sessions by tag, and merged with those of the handshakes (lib/opc_parser.py)

A log that begins in the middle of a session has no handshake of it. So a
second map is built from the tags alone, and the two are merged: where the
session of a tag carries the token of a handshake, the handshake's session
takes its place, and the sessions of the handshakes that no tag led to are
added under their own keys.

The sessions of the second map are each in one place only and are kept by
value; those of the handshakes are shared, and are references into their map.
-/

namespace KepServerLogger.Lib

open KepServerLogger.Py

/-! ## build_active_map -/

/-- `SKIP_TAGS` -/
def skipTags : List String := ["NoSession", "AnonymousClient"]

/-- `REQUEST_TYPES` -/
def requestTypes : List String :=
  ["ReadRequest", "WriteRequest", "ActivateSessionRequest", "CreateSessionRequest",
    "CloseSessionRequest"]

/-- The tag names a session. -/
def OpcEvent.Tagged (ev : OpcEvent) : Prop :=
  ev.session_tag ∉ skipTags ∧ ¬ "opc.tcp://".toList <+: ev.session_tag.toList

instance (ev : OpcEvent) : Decidable ev.Tagged := inferInstanceAs (Decidable (_ ∧ _))

namespace ClientSession

/-- The session that a new tag begins. -/
def ofTag (ev : OpcEvent) : ClientSession :=
  { application_name := ev.session_tag, connected_at := ev.timestamp, active := true }

/-- The first token is kept. -/
def observeToken (s : ClientSession) (ev : OpcEvent) : ClientSession :=
  if ev.authenticationToken ≠ "" ∧ ev.authenticationToken ≠ "i=0" ∧ s.auth_token = "" then
    { s with auth_token := ev.authenticationToken }
  else s

def observeRequest (s : ClientSession) (ev : OpcEvent) : ClientSession :=
  if ev.event_type ∈ requestTypes ∧ ev.timestamp ≠ "" then { s with last_seen := ev.timestamp }
  else s

def observeEnd (s : ClientSession) (ev : OpcEvent) : ClientSession :=
  if ev.event_type = "CloseSessionRequest" then
    { s with
      active := false
      disconnected_at := ev.timestamp
      disconnect_reason := "CloseSession" }
  else if ev.event_type = "ServiceFaultResponse" then
    { s with
      active := false
      disconnected_at := ev.timestamp
      disconnect_reason := ev.faultReason }
  else s

def observe (s : ClientSession) (ev : OpcEvent) : ClientSession :=
  ((s.observeToken ev).observeRequest ev).observeEnd ev

end ClientSession

/-- One turn of the loop of `build_active_map`. -/
def activeStep (sessions : Dict String ClientSession) (ev : OpcEvent) :
    Dict String ClientSession :=
  if ev.Tagged then
    sessions.set ev.session_tag ((sessions.getD ev.session_tag (.ofTag ev)).observe ev)
  else sessions

/-- `build_active_map` -/
def buildActiveMap (events : List OpcEvent) : Dict String ClientSession :=
  events.foldl activeStep ∅

/-! ## build_sessions -/

/-- A session in the merged map: one of the handshakes, or one of the tags. -/
inductive Merged
  | rich (r : Ref)
  | own (s : ClientSession)
  deriving DecidableEq

/-- The sessions that `build_client_map` returns, in its order. -/
def ClientMaps.values (m : ClientMaps) : List Ref := m.sessions.items.map Prod.snd

/-- `handshake_by_token` -/
def ClientMaps.byToken (m : ClientMaps) : Dict String Ref :=
  .ofList ((m.values.filter fun r => (m.objects.get r).auth_token ≠ "").map fun r =>
    ((m.objects.get r).auth_token, r))

/-- What `build_sessions` builds: the merged map, and the sessions of the
handshakes. -/
structure Sessions where
  objects : Heap ClientSession
  merged : Dict String Merged

namespace Sessions

/-- The session behind an entry of the merged map. -/
def sessionOf (x : Sessions) : Merged → ClientSession
  | .rich r => x.objects.get r
  | .own s => s

/-- The first loop, for one tag. -/
def mergeTag (byToken : Dict String Ref) (x : Sessions) (p : String × ClientSession) : Sessions :=
  match byToken.get? p.2.auth_token with
  | some rich =>
      { objects := x.objects.modify rich fun o =>
          { o with last_seen := strOr o.last_seen p.2.last_seen }
        merged := x.merged.set p.1 (.rich rich) }
  | none => { x with merged := x.merged.set p.1 (.own p.2) }

/-- `tagged` -/
def tagged (x : Sessions) : List String :=
  x.merged.items.map fun p => (x.sessionOf p.2).application_name

/-- The second loop, for one session of the handshakes. -/
def mergeHandshake (tagged : List String) (x : Sessions) (s : Ref) : Sessions :=
  if (x.objects.get s).application_name ∈ tagged then x
  else { x with merged := x.merged.set (x.objects.get s).key (.rich s) }

end Sessions

/-- The state after the first loop of `build_sessions`. -/
def mergeTags (active : Dict String ClientSession) (handshake : ClientMaps) : Sessions :=
  active.items.foldl (Sessions.mergeTag handshake.byToken) ⟨handshake.objects, ∅⟩

/-- `build_sessions` -/
def buildSessions (events : List OpcEvent) : Sessions :=
  let handshake := buildClientMap events
  let x := mergeTags (buildActiveMap events) handshake
  handshake.values.foldl (Sessions.mergeHandshake x.tagged) x

end KepServerLogger.Lib
