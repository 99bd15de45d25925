import KepServerLogger.Base.MonitoredNode
import KepServerLogger.Ingestor.Subscriptions
import KepServerLogger.Ingestor.Tasks
import KepServerLogger.Proofs.Subscribing

/-!
# One channel of tags, from the plant to the table

The tags of a channel are nodes that the plant changes whenever it likes. For
as long as a session lasts the ingestor has one subscription to all of them,
or to those that the server accepts; the server samples each node, queues the
changes it sees, and sends for all nodes what is queued. What is sent goes
through `datachange_notification` and `on_tag` into the queue, from where
flushes take it to the table `tags`.

Everything else the ingestor does goes on around it, other channels included,
which may have tags of the same names.
-/

namespace KepServerLogger.System

open KepServerLogger.Py KepServerLogger.Lib KepServerLogger.Ingestor

/-- A channel in the configuration of a server. -/
structure ChannelDeployment where
  /-- The name of the server in servers.json. -/
  server_name : String
  channel : String
  /-- What `get_channel_tags` has for the channel. -/
  tags : Dict String String
  /-- `str.upper` -/
  upper : String → String
  /-- `get_node(node_id).nodeid.to_string()` -/
  node : String → String
  env : Externals

namespace ChannelDeployment

variable (d : ChannelDeployment)

def subscription : NodeSubscription := channelSubscription d.upper d.server_name d.channel d.tags

/-- The client in front of a server. -/
def client (server : SubscriptionServer) : SubscriptionServer :=
  { server with getNode := fun node_id => .ok (d.node node_id) }

/-- The node of a tag. -/
def nodeOf (tag : String) : String := d.node (d.tags.getD tag "")

end ChannelDeployment

/-- The server monitors the node, as it answered the requests. -/
def monitors (server : SubscriptionServer) (asked : Subscribing) (node : String) : Bool :=
  (server.answers [] asked.requests).any fun a => a.1 = node && !a.2.isStatus

structure Channel where
  nodes : String → MonitoredNode DataValue
  subscription : Option NodeSubscription
  tasks : Tasks

namespace Channel

inductive Event where
  /-- The plant changes a node. -/
  | write (node : String) (value : DataValue)
  /-- `subscription.start()`, as the server answers it this time. -/
  | subscribe (server : SubscriptionServer) (now : Utc)
  /-- The server samples a node. -/
  | sample (node : String)
  /-- The server sends what it has queued. -/
  | send
  /-- `datachange_notification`, of the oldest value that was sent for a node. -/
  | notify (node : String) (now : Utc)
  /-- The session ends. -/
  | disconnect
  /-- Whatever else the ingestor does. -/
  | task (e : Tasks.Event)

def start (values : String → DataValue) : Channel := ⟨fun node => .fresh (values node), none, .start⟩

/-- What becomes of one node. -/
def update (nodes : String → MonitoredNode DataValue) (node : String)
    (n : MonitoredNode DataValue) : String → MonitoredNode DataValue :=
  fun node' => if node' = node then n else nodes node'

variable (d : ChannelDeployment)

/-- What the ingestor does apart from this channel. What other channels deliver
is part of it, under whatever name. -/
def elsewhere : Tasks.Event → Bool
  | .addModel table _ => table = "heartbeat_rtt"
  | _ => true

def step (s : Channel) : Event → Option Channel
  | .write node value => some { s with nodes := update s.nodes node ((s.nodes node).write value) }
  | .subscribe server now =>
      match s.subscription, d.subscription.start (d.client server) now with
      | none, (subscription, asked, .ok ()) =>
          some { s with
            nodes := fun node =>
              if monitors (d.client server) asked node then (s.nodes node).subscribe
              else s.nodes node
            subscription := some subscription }
      | _, _ => none
  | .sample node =>
      some { s with
        nodes := update s.nodes node
          ((s.nodes node).sample d.subscription.config.queue_size.toNat) }
  | .send => some { s with nodes := fun node => (s.nodes node).send }
  | .notify node now =>
      match s.subscription, (s.nodes node).receive? with
      | some subscription, some (value, n) =>
          let notified := subscription.datachangeNotification node value now
          let s := { s with nodes := update s.nodes node n, subscription := some notified.1 }
          match notified.2 with
          | some (key, value, now) =>
              (Tasks.step d.env s.tasks (.onTag key value now.toDatetime)).map fun tasks =>
                { s with tasks }
          | none => some s
      | _, _ => none
  | .disconnect =>
      match s.subscription with
      | some _ => some { s with nodes := fun node => (s.nodes node).unsubscribe, subscription := none }
      | none => none
  | .task e =>
      if elsewhere e then (Tasks.step d.env s.tasks e).map fun tasks => { s with tasks } else none

/-! ## What one step did -/

/-- What a step is to the tasks of the ingestor. -/
def taskEvent : Channel × Event → Option Tasks.Event
  | (s, .notify node now) =>
      match s.subscription, (s.nodes node).receive? with
      | some subscription, some (value, _) =>
          (subscription.datachangeNotification node value now).2.map fun call =>
            .onTag call.1 call.2.1 call.2.2.toDatetime
      | _, _ => none
  | (_, .task e) => some e
  | _ => none

end Channel

end KepServerLogger.System
