import KepServerLogger.Base.MonitoredNode
import KepServerLogger.Ingestor.Subscriptions
import KepServerLogger.Ingestor.Tasks
import KepServerLogger.Lib.OpcuaClient

/-!
# One metric, from the extractor to the table

What the two programs and the server between them make of one metric. The
extractor writes each batch of models to the metric's node. The ingestor has
a subscription to the node for as long as a session lasts, the server queues
the changes it samples, and each value that is sent goes through
`datachange_notification` and `on_metric` into the queue, from where flushes
take it to the table.

Everything else the ingestor does — other metrics, tags, round trips, writes
that fail, flushes that are cancelled — goes on around it, as it does in a run
of its tasks.
-/

namespace KepServerLogger.System

open KepServerLogger.Py KepServerLogger.Lib KepServerLogger.Ingestor

/-- A session of the ingestor, as the metric sees it. -/
inductive Session where
  | closed
  /-- `new_session` has been called, the subscription not started. -/
  | opened
  | subscribed (subscription : NodeSubscription)
  deriving DecidableEq

structure Pipeline where
  node : MonitoredNode DataValue
  session : Session
  tasks : Tasks
  deriving DecidableEq

/-- The parameters of both programs. -/
structure Deployment where
  metric : Metric
  settings : Settings
  /-- The metric has one subscription, and one task in a cycle. -/
  once : settings.metrics.count metric.name = 1
  /-- The name of the server in servers.json. -/
  server_name : String
  /-- The client that the extractor publishes with. -/
  client : OPCUAClient
  /-- What answers the ingestor's subscription. -/
  server : SubscriptionServer
  /-- `str.upper` -/
  upper : String → String
  /-- `float(s)` -/
  floatOf : String → Option PyFloat
  env : Externals

namespace Deployment

variable (d : Deployment)

theorem mem_metrics : d.metric.name ∈ d.settings.metrics :=
  List.count_pos_iff.mp (d.once ▸ Nat.one_pos)

def subscription : NodeSubscription :=
  metricSubscription d.upper d.settings d.server_name d.metric

/-- The string of the node that is published to. -/
def nodeText : Except Exc String := d.server.getNode (d.metric.nodeId d.settings.node_prefix)

/-- What `publish_metric` writes of the models that its getter returned. -/
def publishMetric (models : List OPCUAModel) : Except Exc (Option PyValue) :=
  if models = [] then .ok none
  else do
    let text ← Metric.encode models
    let value ← d.client.writeValue d.floatOf (.str text) .string
    return some value

end Deployment

namespace Pipeline

inductive Event where
  /-- `publish_metric`, as far as the write takes effect. -/
  | publish (models : List OPCUAModel)
  /-- A session has connected. -/
  | connect
  /-- `subscription.start()` -/
  | subscribe (now : Utc)
  /-- The server samples the node. -/
  | sample
  /-- The server sends what it has queued. -/
  | send
  /-- `datachange_notification`, of the oldest value that was sent. -/
  | notify (now : Utc)
  | disconnect
  /-- Whatever else the ingestor does. -/
  | task (e : Tasks.Event)

def start (left : DataValue) : Pipeline := ⟨.fresh left, .closed, .start⟩

variable (d : Deployment)

/-- What the ingestor does apart from the sessions and this metric. -/
def elsewhere : Tasks.Event → Bool
  | .onMetric name _ _ => name ≠ d.metric.name
  | .newSession _ => false
  | .addModel table _ => table = "heartbeat_rtt"
  | _ => true

def step (s : Pipeline) : Event → Option Pipeline
  | .publish models =>
      match d.publishMetric models with
      | .ok (some value) => some { s with node := s.node.write (.good value) }
      | .ok none => some s
      | .error _ => none
  | .connect =>
      match s.session with
      | .closed =>
          (Tasks.step d.env s.tasks (.newSession d.settings.metrics)).map fun tasks =>
            { s with session := .opened, tasks }
      | _ => none
  | .subscribe now =>
      match s.session, d.subscription.start d.server now with
      | .opened, (subscription, _, .ok ()) =>
          some { s with node := s.node.subscribe, session := .subscribed subscription }
      | _, _ => none
  | .sample =>
      some { s with node := s.node.sample d.subscription.config.queue_size.toNat }
  | .send => some { s with node := s.node.send }
  | .notify now =>
      match s.session, s.node.receive?, d.nodeText with
      | .subscribed subscription, some (value, node), .ok text =>
          let notified := subscription.datachangeNotification text value now
          let s := { s with node, session := .subscribed notified.1 }
          match notified.2 with
          | some (key, value, now) =>
              (Tasks.step d.env s.tasks (.onMetric key value now.toDatetime)).map fun tasks =>
                { s with tasks }
          | none => some s
      | _, _, _ => none
  | .disconnect =>
      match s.session with
      | .closed => none
      | _ => some { s with node := s.node.unsubscribe, session := .closed }
  | .task e =>
      if elsewhere d e then (Tasks.step d.env s.tasks e).map fun tasks => { s with tasks } else none

/-! ## What one step did -/

/-- The batch that a step writes to the node. -/
def published : Pipeline × Event → List Sample
  | (_, .publish (m :: ms)) => [⟨m, ms⟩]
  | _ => []

/-- What a step is to the tasks of the ingestor. -/
def taskEvent : Pipeline × Event → Option Tasks.Event
  | (_, .connect) => some (.newSession d.settings.metrics)
  | (s, .notify now) =>
      match s.session, s.node.receive?, d.nodeText with
      | .subscribed subscription, some (value, _), .ok text =>
          (subscription.datachangeNotification text value now).2.map fun call =>
            .onMetric call.1 call.2.1 call.2.2.toDatetime
      | _, _, _ => none
  | (_, .task e) => some e
  | _ => none

end Pipeline

end KepServerLogger.System
