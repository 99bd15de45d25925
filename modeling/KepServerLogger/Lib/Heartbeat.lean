import KepServerLogger.Base.Run
import KepServerLogger.Lib.Models
import KepServerLogger.Py.Deque
import KepServerLogger.Py.Dict

/-!
# Heartbeats (lib/heartbeat.py)

Two machines meet at two tags of the server between them. One writes a number
to the first tag, the other is notified of it and writes the same number to
the second, and the first is notified of that. The number goes up and down
between zero and a maximum, so it repeats; what came back is matched with what
was sent by the number alone.

The handlers come first, as the code has them. Instants of the monotonic clock
are whole nanoseconds.

Then both ends over the two tags. Neither write arrives at once, in order or
at all for certain, and a request that timed out may still arrive. The server
notifies of a change, of the value that is there when a subscription begins,
and of nothing when a value is written again. Each value travels with the
number of the send it goes back to, which no program sees.
-/

namespace KepServerLogger.Lib

open KepServerLogger.Py

def maxBufferedRtts : Nat := 999

/-! ## SystemHeartbeatHandler -/

structure SystemHeartbeatHandler where
  pair : String
  max_heartbeat : Int
  max_rtt : Int
  increasing : Bool
  heartbeat : Int
  last_received_value : Option Int
  last_received_at : Option Utc
  /-- When each value was sent. -/
  sent_at_map : Dict Int Int
  rtts : Deque maxBufferedRtts HeartbeatRTT
  deriving DecidableEq

inductive HeartbeatWarning where
  | unexpectedJump (last val : Int)
  | slowEcho (val rtt : Int)
  | notOneWeSent (val : Int)
  deriving DecidableEq, Repr

namespace SystemHeartbeatHandler

def new (pair : String) (max_heartbeat max_rtt : Int) : SystemHeartbeatHandler where
  pair := pair
  max_heartbeat := max_heartbeat
  max_rtt := max_rtt
  increasing := true
  heartbeat := 0
  last_received_value := none
  last_received_at := none
  sent_at_map := ∅
  rtts := ∅

def updateHeartbeat (h : SystemHeartbeatHandler) : SystemHeartbeatHandler :=
  let increasing :=
    if h.heartbeat = h.max_heartbeat ∧ h.increasing then false
    else if h.heartbeat = 0 ∧ !h.increasing then true
    else h.increasing
  { h with increasing, heartbeat := h.heartbeat + if increasing then 1 else -1 }

/-- `send_heartbeat` up to its first await; then it writes `heartbeat`. -/
def sendHeartbeat (h : SystemHeartbeatHandler) (monotonic : Int) : SystemHeartbeatHandler :=
  let h := h.updateHeartbeat
  { h with sent_at_map := h.sent_at_map.set h.heartbeat monotonic }

/-- `last_received_value` and `last_received_at`, and the warning about them. -/
def receive (h : SystemHeartbeatHandler) (val : Int) (now : Utc) :
    SystemHeartbeatHandler × List HeartbeatWarning :=
  ({ h with last_received_value := some val, last_received_at := some now },
    match h.last_received_value with
    | some last => if |val - last| ≠ 1 then [.unexpectedJump last val] else []
    | none => [])

/-- `datachange_notification` where `echo` is not set; `millis` makes
milliseconds of nanoseconds. The `HeartbeatRTT` also goes to `on_rtt`. -/
def datachangeNotification (millis : Int → PyFloat) (h : SystemHeartbeatHandler) (val : Int)
    (now : Utc) (monotonic : Int) :
    SystemHeartbeatHandler × Option HeartbeatRTT × List HeartbeatWarning :=
  let (h, jump) := h.receive val now
  match h.sent_at_map.get? val with
  | some sent_at =>
      let rtt := monotonic - sent_at
      let heartbeat_rtt : HeartbeatRTT := ⟨now, h.pair, val, millis rtt⟩
      ({ h with
          sent_at_map := h.sent_at_map.erase val
          rtts := h.rtts.append heartbeat_rtt },
        some heartbeat_rtt,
        jump ++ if h.max_rtt < rtt then [.slowEcho val rtt] else [])
  | none => (h, none, jump ++ [.notOneWeSent val])

end SystemHeartbeatHandler

/-! ## The pair -/

/-- A value on its way, and the send that it goes back to; none where an
earlier session left it. -/
structure Beat where
  value : Int
  origin : Option Nat
  deriving DecidableEq, Repr

/-- What earlier sessions left. -/
structure Left where
  sendTag : Int
  receiveTag : Int
  /-- The other side has subscribed before this one begins. -/
  echoing : Bool
  writes : List Int
  unread : List Int
  echoes : List Int

structure HeartbeatPair where
  sender : SystemHeartbeatHandler
  /-- The values sent so far and when. -/
  sent : List (Int × Int)
  /-- The sender has subscribed; it sends from then on. -/
  started : Bool
  /-- Writes of the sender that have not arrived. -/
  writes : List Beat
  sendTag : Beat
  /-- The other side has a subscription. -/
  echoing : Bool
  /-- Its notifications, the oldest first. -/
  unread : List Beat
  /-- The calls of `echo_value` whose write has not arrived. -/
  echoes : List Beat
  receiveTag : Beat
  /-- The notifications of the sender, the oldest first. -/
  arrivals : List Beat
  deriving DecidableEq

namespace HeartbeatPair

inductive Event where
  /-- The sender subscribes to the receive tag. -/
  | start
  /-- `send_heartbeat`; it writes, or fails before. -/
  | send (monotonic : Int) (writes : Bool)
  | writeArrives (i : Nat)
  | writeLost (i : Nat)
  /-- The other side subscribes to the send tag. -/
  | echoStart
  | echoStop
  /-- `echo_value` -/
  | echoValue
  | echoArrives (i : Nat)
  | echoLost (i : Nat)
  | notified (now : Utc) (monotonic : Int)
  deriving DecidableEq

def new (pair : String) (max_heartbeat max_rtt : Int) (left : Left) : HeartbeatPair where
  sender := .new pair max_heartbeat max_rtt
  sent := []
  started := false
  writes := left.writes.map (⟨·, none⟩)
  sendTag := ⟨left.sendTag, none⟩
  echoing := left.echoing
  unread := left.unread.map (⟨·, none⟩)
  echoes := left.echoes.map (⟨·, none⟩)
  receiveTag := ⟨left.receiveTag, none⟩
  arrivals := []

/-- What a subscriber gets to see of a write. -/
def change (subscribed : Bool) (old new : Beat) : List Beat :=
  if subscribed && new.value ≠ old.value then [new] else []

variable (millis : Int → PyFloat)

def step (s : HeartbeatPair) : Event → Option HeartbeatPair
  | .start =>
      if s.started then none
      else some { s with started := true, arrivals := [s.receiveTag] }
  | .send monotonic writes =>
      if s.started then
        let sender := s.sender.sendHeartbeat monotonic
        some { s with
          sender := sender
          sent := s.sent ++ [(sender.heartbeat, monotonic)]
          writes := s.writes ++ if writes then [⟨sender.heartbeat, some s.sent.length⟩] else [] }
      else none
  | .writeArrives i =>
      match s.writes[i]? with
      | some beat =>
          some { s with
            writes := s.writes.eraseIdx i
            sendTag := beat
            unread := s.unread ++ change s.echoing s.sendTag beat }
      | none => none
  | .writeLost i =>
      match s.writes[i]? with
      | some _ => some { s with writes := s.writes.eraseIdx i }
      | none => none
  | .echoStart =>
      if s.echoing then none else some { s with echoing := true, unread := [s.sendTag] }
  | .echoStop => if s.echoing then some { s with echoing := false, unread := [] } else none
  | .echoValue =>
      match s.unread with
      | beat :: rest => some { s with unread := rest, echoes := s.echoes ++ [beat] }
      | [] => none
  | .echoArrives i =>
      match s.echoes[i]? with
      | some beat =>
          some { s with
            echoes := s.echoes.eraseIdx i
            receiveTag := beat
            arrivals := s.arrivals ++ change s.started s.receiveTag beat }
      | none => none
  | .echoLost i =>
      match s.echoes[i]? with
      | some _ => some { s with echoes := s.echoes.eraseIdx i }
      | none => none
  | .notified now monotonic =>
      match s.arrivals with
      | beat :: rest =>
          some { s with
            arrivals := rest
            sender := (s.sender.datachangeNotification millis beat.value now monotonic).1 }
      | [] => none

end HeartbeatPair

end KepServerLogger.Lib
