import KepServerLogger.Py.Dict
import KepServerLogger.Py.Heap
import KepServerLogger.Py.Text

/-!
# Sessions from a diagnostics log (lib/opc_parser.py)

An OPC UA server logs what its clients ask for and what it answers. From the
events of such a log a map is built: which sessions there are, under the token
or the id that the server gave them. A request and its response have only the
tag of the log line in common, so a session waits under its tag until the
response comes. An application that connects again takes up the session it
had, and the connection before goes to the session's history.

One session object is in up to three dictionaries at once and is changed
through each of them; so the dictionaries hold references.
-/

namespace KepServerLogger.Lib

open KepServerLogger.Py

structure OpcEvent where
  timestamp : String
  session_tag : String
  event_type : String
  fields : Dict String String
  deriving DecidableEq

/-- `ev.get(key, default="")` -/
def OpcEvent.get (ev : OpcEvent) (key : String) : String := ev.fields.getD key ""

/-- One connect→disconnect episode for a client. -/
structure ConnectionSpan where
  connected_at : String
  auth_token : String
  disconnected_at : String
  disconnect_reason : String
  deriving DecidableEq

structure ClientSession where
  application_name : String := ""
  application_uri : String := ""
  endpoint_url : String := ""
  username : String := ""
  session_id : String := ""
  auth_token : String := ""
  connected_at : String := ""
  activated_at : String := ""
  last_seen : String := ""
  disconnected_at : String := ""
  disconnect_reason : String := ""
  active : Bool := false
  /-- All connections but the current one. -/
  past_connections : List ConnectionSpan := []
  deriving DecidableEq

namespace ClientSession

instance : Inhabited ClientSession := ⟨{}⟩

def reconnectCount (s : ClientSession) : Nat := s.past_connections.length

/-- Archives the current span and starts a fresh one. -/
def pushReconnect (s : ClientSession) (new_connected_at new_auth_token : String) :
    ClientSession :=
  { s with
    past_connections := s.past_connections ++
      [⟨s.connected_at, s.auth_token, s.disconnected_at, s.disconnect_reason⟩]
    connected_at := new_connected_at
    auth_token := new_auth_token
    disconnected_at := ""
    disconnect_reason := ""
    active := false }

/-- What the session is stored under. -/
def key (s : ClientSession) : String := strOr s.auth_token s.session_id

end ClientSession

/-! ## Events -/

namespace OpcEvent

def IsRequest (ev : OpcEvent) : Prop := ev.event_type = "CreateSessionRequest"

def IsResponse (ev : OpcEvent) : Prop := ev.event_type = "CreateSessionResponse"

instance (ev : OpcEvent) : Decidable ev.IsRequest := inferInstanceAs (Decidable (_ = _))

instance (ev : OpcEvent) : Decidable ev.IsResponse := inferInstanceAs (Decidable (_ = _))

def serviceResult (ev : OpcEvent) : String := ev.get "serviceResult"

def authenticationToken (ev : OpcEvent) : String := ev.get "authenticationToken"

/-- `result and "Good" not in result` -/
def failed (ev : OpcEvent) : Bool :=
  decide (ev.serviceResult ≠ "") && !isIn "Good" ev.serviceResult

/-- The application of a request. -/
def appName (ev : OpcEvent) : String := afterFirst '|' (ev.get "applicationName")

/-- What a response has its session stored under. -/
def newKey (ev : OpcEvent) : String := strOr ev.authenticationToken (ev.get "sessionId")

/-- The reason that a fault leaves. -/
def faultReason (ev : OpcEvent) : String :=
  if ev.serviceResult = "" then "Fault" else "Fault:" ++ ev.serviceResult

end OpcEvent

/-! ## build_client_map -/

/-- The variables of `build_client_map`. -/
structure ClientMaps where
  objects : Heap ClientSession
  sessions : Dict String Ref
  pending : Dict String Ref
  by_app_name : Dict String Ref
  deriving DecidableEq

namespace ClientMaps

def empty : ClientMaps := ⟨∅, ∅, ∅, ∅⟩

/-- `_find_session` -/
def findSession (m : ClientMaps) (tag : String) : Option Ref :=
  (m.sessions.get? ("i=" ++ tag)).or (m.sessions.get? tag)

/-- A request of an application that has a session. -/
def reconnect (m : ClientMaps) (ev : OpcEvent) (existing : Ref) : ClientMaps :=
  let old_key := (m.objects.get existing).key
  { m with
    sessions := m.sessions.erase old_key
    objects := m.objects.modify existing (·.pushReconnect ev.timestamp "")
    pending := m.pending.set ev.session_tag existing }

/-- The first request of an application. -/
def connect (m : ClientMaps) (ev : OpcEvent) : ClientMaps :=
  let s := m.objects.next
  { m with
    objects := m.objects.alloc {
      application_name := ev.appName
      application_uri := ev.get "applicationUri"
      endpoint_url := ev.get "endpointUrl"
      connected_at := ev.timestamp }
    pending := m.pending.set ev.session_tag s
    by_app_name := m.by_app_name.set ev.appName s }

def createSessionRequest (m : ClientMaps) (ev : OpcEvent) : ClientMaps :=
  match m.by_app_name.get? ev.appName with
  | some existing => m.reconnect ev existing
  | none => m.connect ev

/-- A response to a session that waits for it. -/
def accept (m : ClientMaps) (ev : OpcEvent) (s : Ref) : ClientMaps :=
  { m with
    pending := m.pending.erase ev.session_tag
    objects := m.objects.modify s fun o => { o with
      session_id := ev.get "sessionId", auth_token := ev.authenticationToken, active := true }
    sessions := m.sessions.set ev.newKey s
    by_app_name := m.by_app_name.setdefault (m.objects.get s).application_name s }

def createSessionResponse (m : ClientMaps) (ev : OpcEvent) : ClientMaps :=
  if ev.failed then { m with pending := m.pending.erase ev.session_tag }
  else
    match m.pending.get? ev.session_tag with
    | none => { m with pending := m.pending.erase ev.session_tag }
    | some s => m.accept ev s

def activateSessionRequest (m : ClientMaps) (ev : OpcEvent) : ClientMaps :=
  match m.findSession ev.session_tag with
  | none => m
  | some s =>
      if (m.objects.get s).active then
        { m with objects := m.objects.modify s fun o => { o with
            username := strOr (ev.get "userName") o.username, activated_at := ev.timestamp } }
      else m

def activateSessionResponse (m : ClientMaps) (ev : OpcEvent) : ClientMaps :=
  match m.findSession ev.session_tag with
  | none => m
  | some s =>
      if ev.failed then
        { m with objects := m.objects.modify s fun o => { o with
            active := false, disconnect_reason := "Fault:" ++ ev.serviceResult } }
      else m

/-- The session of a tag, or else of a token. -/
def findSessionOr (m : ClientMaps) (tag auth : String) : Option Ref :=
  (m.findSession tag).or (if auth = "" then none else m.sessions.get? auth)

def serviceFaultResponse (m : ClientMaps) (ev : OpcEvent) : ClientMaps :=
  match m.findSessionOr ev.session_tag ev.authenticationToken with
  | none => m
  | some s =>
      if (m.objects.get s).active then
        { m with objects := m.objects.modify s fun o => { o with
            active := false
            disconnected_at := ev.timestamp
            disconnect_reason := ev.faultReason } }
      else m

def closeSessionRequest (m : ClientMaps) (ev : OpcEvent) : ClientMaps :=
  match m.findSessionOr ev.session_tag ev.authenticationToken with
  | none => m
  | some s =>
      { m with objects := m.objects.modify s fun o => { o with
          active := false
          disconnected_at := ev.timestamp
          disconnect_reason := "CloseSession" } }

/-- One turn of the loop. -/
def handle (m : ClientMaps) (ev : OpcEvent) : ClientMaps :=
  if ev.IsRequest then m.createSessionRequest ev
  else if ev.IsResponse then m.createSessionResponse ev
  else if ev.event_type = "ActivateSessionRequest" then m.activateSessionRequest ev
  else if ev.event_type = "ActivateSessionResponse" then m.activateSessionResponse ev
  else if ev.event_type = "ServiceFaultResponse" then m.serviceFaultResponse ev
  else if ev.event_type = "CloseSessionRequest" then m.closeSessionRequest ev
  else m

end ClientMaps

/-- `build_client_map`; it returns `sessions`. -/
def buildClientMap (events : List OpcEvent) : ClientMaps :=
  events.foldl ClientMaps.handle .empty

end KepServerLogger.Lib
