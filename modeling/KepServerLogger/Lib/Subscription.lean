import KepServerLogger.Base.Chunks
import KepServerLogger.Lib.Metrics

/-!
# Data change subscriptions (lib/subscription.py)

One `NodeSubscription` serves one metric node or one channel of tags. `start`
asks for its nodes in chunks; from then on the server calls the two
notification handlers, and `check_health` is called now and then.

The server is whatever answers `start` gets. A node is known here by the
string of its node id.
-/

namespace KepServerLogger.Lib

open KepServerLogger.Py

def itemsPerRequest : Nat := 1000

structure SubscriptionConfig where
  sampling_interval_ms : Int := 1000
  queue_size : Int := 10
  publish_interval_ms : Int := 500
  /-- `stale_after_seconds`, in microseconds. -/
  stale_after : Int := 60000000
  deriving DecidableEq

/-- `for_publish_interval`; half a second of it in milliseconds, where the
bounds do not decide, is a whole number that a float holds exactly. -/
def SubscriptionConfig.forPublishInterval (config : SubscriptionConfig) (seconds : Int) :
    SubscriptionConfig :=
  { config with
    sampling_interval_ms := max 100 (min 1000 (500 * seconds))
    stale_after := max config.stale_after (5 * seconds * 1000000) }

structure NodeSubscription where
  label : String
  nodes : Dict String String
  config : SubscriptionConfig
  /-- `_keys`, from the node id to the key. -/
  keys : Dict String String
  started_at : Option Utc
  last_received_at : Option Utc
  failed_status : Option StatusCode
  was_stale : Bool
  deriving DecidableEq

/-- What `subscribe_data_change` has for one node. -/
inductive Handle where
  | item (id : Int)
  | status (code : StatusCode)
  deriving DecidableEq

structure SubscribeRequest where
  nodes : List String
  queuesize : Int
  sampling_interval : Int
  deriving DecidableEq

/-- The client, and the server behind it. -/
structure SubscriptionServer where
  /-- `create_subscription`, of the publish interval. -/
  create : Int → Except Exc Unit
  /-- `get_node(node_id).nodeid.to_string()` -/
  getNode : String → Except Exc String
  /-- `subscribe_data_change`, of the requests so far with this one last. -/
  subscribe : List SubscribeRequest → Except Exc (List Handle)

/-- What `start` has asked for, and the warnings it has logged. -/
structure Subscribing where
  requests : List SubscribeRequest
  warnings : List String
  rejected : Nat
  deriving DecidableEq

namespace NodeSubscription

def new (label : String) (nodes : Dict String String) (config : SubscriptionConfig) :
    NodeSubscription where
  label := label
  nodes := nodes
  config := config
  keys := ∅
  started_at := none
  last_received_at := none
  failed_status := none
  was_stale := false

/-! ## start -/

/-- The first loop of `start`. -/
def resolveNodes (getNode : String → Except Exc String) :
    List (String × String) → Dict String String → Dict String String × Except Exc (List String)
  | [], keys => (keys, .ok [])
  | (key, node_id) :: rest, keys =>
      match getNode node_id with
      | .error e => (keys, .error e)
      | .ok node =>
          let (keys, items) := resolveNodes getNode rest (keys.set node key)
          (keys, items.map (node :: ·))

/-- The warning about a node that was rejected. -/
def rejection (label : String) : String × Handle → Option String
  | (_, .item _) => none
  | (node, .status code) => some (label ++ " Could not subscribe to " ++ node ++ ": " ++ code.name)

/-- The second loop of `start`, over where the chunks begin. -/
def subscribeChunks (server : SubscriptionServer) (s : NodeSubscription) (items : List String) :
    List Nat → Subscribing → Subscribing × Except Exc Unit
  | [], done => (done, .ok ())
  | i :: rest, done =>
      let chunk := chunkAt items itemsPerRequest i
      let requests :=
        done.requests ++ [⟨chunk, s.config.queue_size, s.config.sampling_interval_ms⟩]
      match server.subscribe requests with
      | .error e => ({ done with requests }, .error e)
      | .ok handles =>
          let warnings := (chunk.zip handles).filterMap (rejection s.label)
          subscribeChunks server s items rest
            { requests
              warnings := done.warnings ++ warnings
              rejected := done.rejected + warnings.length }

def noneSubscribed (label : String) (n : Nat) : Exc :=
  ⟨.connectionError, label ++ " None of " ++ toString n ++ " nodes could be subscribed"⟩

def start (server : SubscriptionServer) (s : NodeSubscription) (now : Utc) :
    NodeSubscription × Subscribing × Except Exc Unit :=
  match server.create s.config.publish_interval_ms with
  | .error e => (s, ⟨[], [], 0⟩, .error e)
  | .ok () =>
      let (keys, items) := resolveNodes server.getNode s.nodes.items s.keys
      let s := { s with keys }
      match items with
      | .error e => (s, ⟨[], [], 0⟩, .error e)
      | .ok items =>
          match subscribeChunks server s items (multiplesBelow items.length itemsPerRequest)
              ⟨[], [], 0⟩ with
          | (done, .error e) => (s, done, .error e)
          | (done, .ok ()) =>
              if done.rejected = items.length then
                (s, done, .error (noneSubscribed s.label items.length))
              else ({ s with started_at := some now }, done, .ok ())

/-! ## After that -/

/-- `datachange_notification`, with the arguments of `on_data` where it calls it. -/
def datachangeNotification (s : NodeSubscription) (node : String) (value : DataValue) (now : Utc) :
    NodeSubscription × Option (String × DataValue × Utc) :=
  ({ s with last_received_at := some now }, (s.keys.get? node).map fun key => (key, value, now))

def statusChangeNotification (s : NodeSubscription) (status : StatusCode) : NodeSubscription :=
  if status.is_good then s else { s with failed_status := some status }

/-- The instant that a silence is measured from. -/
def silentSince (s : NodeSubscription) : Option Utc := s.last_received_at.or s.started_at

def subscriptionFailed (label : String) (status : StatusCode) : Exc :=
  ⟨.connectionError, label ++ " Subscription failed: " ++ status.name⟩

/-- `secondsText` writes microseconds as whole seconds. -/
def noChanges (secondsText : Int → String) (label : String) (silent_for : Int) : String :=
  label ++ " No changes received for " ++ secondsText silent_for ++ "s"

def checkHealth (secondsText : Int → String) (s : NodeSubscription) (now : Utc) :
    NodeSubscription × Except Exc (Option String) :=
  match s.failed_status with
  | some status => (s, .error (subscriptionFailed s.label status))
  | none =>
      match s.silentSince with
      | none => (s, .ok none)
      | some since =>
          let silent_for := now.since since
          let stale := decide (s.config.stale_after < silent_for)
          ({ s with was_stale := stale },
            .ok (if stale && !s.was_stale then some (noChanges secondsText s.label silent_for)
              else none))

/-- What happens to a subscription once it has been started. -/
inductive Event where
  | notified (node : String) (value : DataValue) (now : Utc)
  | statusChanged (status : StatusCode)
  | checked (now : Utc)
  deriving DecidableEq

def step (secondsText : Int → String) (s : NodeSubscription) : Event → NodeSubscription
  | .notified node value now => (s.datachangeNotification node value now).1
  | .statusChanged status => s.statusChangeNotification status
  | .checked now => (s.checkHealth secondsText now).1

/-- The subscription after these events. -/
def after (secondsText : Int → String) (s : NodeSubscription) (past : List Event) :
    NodeSubscription :=
  past.foldl (step secondsText) s

end NodeSubscription

end KepServerLogger.Lib
