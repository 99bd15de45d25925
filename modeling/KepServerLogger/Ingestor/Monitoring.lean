import KepServerLogger.Base.Sweep
import KepServerLogger.Ingestor.Subscriptions

/-!
# The subscriptions while a session lasts (ingestor/src/main.py, ingestor/src/jobs.py)

The subscriptions that were built are started one after the other. Then
`monitor_subscriptions` asks each whether it is healthy and logs what it
answers, in one round after another. All the while the server sends values
and changes of status to the subscriptions it has been asked for.

An exception in `start` or in a round ends this; what the server still sends
while the session is taken down is taken as before.
-/

namespace KepServerLogger.Ingestor

open KepServerLogger.Py KepServerLogger.Lib

structure Subscriptions where
  /-- Those that `start` has been called of. -/
  begun : List (NodeSubscription × OnData)
  waiting : List (NodeSubscription × OnData)
  /-- What `start` or a round raised. -/
  failure : Option Exc

namespace Subscriptions

inductive Event where
  /-- `await subscription.start()` of the next one. -/
  | start (server : SubscriptionServer) (now : Utc)
  | notified (i : Nat) (node : String) (value : DataValue) (now : Utc)
  | statusChanged (i : Nat) (status : StatusCode)
  /-- A round: when it comes to each subscription, and how `log_event` ends
  where it is called. -/
  | round (clock : Nat → Utc) (log_event : Nat → String → Except Exc Unit)

def ofBuilt (built : List (NodeSubscription × OnData)) : Subscriptions := ⟨[], built, none⟩

section

variable (secondsText : Int → String)

/-- The body of the loop of `monitor_subscriptions`, with the message that it
has logged. -/
def checkAndLog (clock : Nat → Utc) (log_event : Nat → String → Except Exc Unit) (i : Nat)
    (subscription : NodeSubscription × OnData) :
    (NodeSubscription × OnData) × Except Exc (Option String) :=
  let (s, answer) := subscription.1.checkHealth secondsText (clock i)
  ((s, subscription.2),
    match answer with
    | .error e => .error e
    | .ok none => .ok none
    | .ok (some message) => (log_event i message).map fun () => some message)

/-- One round of `monitor_subscriptions`. -/
def monitorSubscriptions (clock : Nat → Utc) (log_event : Nat → String → Except Exc Unit)
    (subscriptions : List (NodeSubscription × OnData)) :
    List (NodeSubscription × OnData) × List (Nat × Option String) × Option Exc :=
  sweep (checkAndLog secondsText clock log_event) 0 subscriptions

def step (s : Subscriptions) : Event → Option Subscriptions
  | .start server now =>
      match s.failure, s.waiting with
      | none, (subscription, on_data) :: waiting =>
          let (subscription, _, outcome) := subscription.start server now
          some
            { begun := s.begun ++ [(subscription, on_data)]
              waiting
              failure :=
                match outcome with
                | .ok () => none
                | .error e => some e }
      | _, _ => none
  | .notified i node value now =>
      s.begun[i]?.map fun p =>
        { s with begun := s.begun.set i ((p.1.datachangeNotification node value now).1, p.2) }
  | .statusChanged i status =>
      s.begun[i]?.map fun p =>
        { s with begun := s.begun.set i (p.1.statusChangeNotification status, p.2) }
  | .round clock log_event =>
      match s.failure, s.waiting with
      | none, [] =>
          let (begun, _, failure) := monitorSubscriptions secondsText clock log_event s.begun
          some { s with begun, failure }
      | _, _ => none

/-! ## What one step did -/

/-- The call of `on_data`. -/
def handed : Subscriptions × Event → Option (OnData × String × DataValue × Utc)
  | (s, .notified i node value now) =>
      s.begun[i]?.bind fun p =>
        (p.1.datachangeNotification node value now).2.map fun call => (p.2, call)
  | _ => none

/-- The messages that a round has logged, each with its subscription. -/
def logged : Subscriptions × Event → List (Nat × String)
  | (s, .round clock log_event) =>
      (monitorSubscriptions secondsText clock log_event s.begun).2.1.filterMap fun p =>
        p.2.map fun message => (p.1, message)
  | _ => []

/-- What a step was to one of the subscriptions. -/
def own (i : Nat) : Subscriptions × Event → List NodeSubscription.Event
  | (_, .notified j node value now) => if j = i then [.notified node value now] else []
  | (_, .statusChanged j status) => if j = i then [.statusChanged status] else []
  | (s, .round clock log_event) =>
      if i < swept (checkAndLog secondsText clock log_event) 0 s.begun then [.checked (clock i)]
      else []
  | _ => []

/-- The server that answered `start`, and when it returned. -/
def startedBy : Subscriptions × Event → Option (SubscriptionServer × Utc)
  | (_, .start server now) => some (server, now)
  | _ => none

end

end Subscriptions

end KepServerLogger.Ingestor
