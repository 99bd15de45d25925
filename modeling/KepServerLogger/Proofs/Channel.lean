import KepServerLogger.Proofs.TagValues
import KepServerLogger.System.Channel

/-!
# What the table knows of a tag

The server notices a value of a tag when a session begins and when it samples
a change. Whatever goes lost after that, in whatever sessions and however the
writes end, the rows of a tag are rows of values that were noticed of its own
node, none of them twice; unless flushes are cancelled they are in the order
of the values, and where nothing goes lost there is no gap between them and,
in the end, nothing missing.

A value passes three buffers on its way, the server's, the ingestor's queue
and the pending rows, and none of them does more than keep order and lose.
-/

namespace KepServerLogger.System

open KepServerLogger.Py KepServerLogger.Lib KepServerLogger.Ingestor

namespace ChannelDeployment

variable {d : ChannelDeployment}

/-- A subscription that has started knows the nodes of its tags. -/
theorem keys_of_start {server : SubscriptionServer} {now : Utc} {subscription : NodeSubscription}
    {asked : Subscribing}
    (h : d.subscription.start (d.client server) now = (subscription, asked, .ok ())) :
    subscription.keys = (∅ : Dict String String).setAll
      (d.tags.items.map fun p => (d.node p.2, p.1)) := by
  unfold NodeSubscription.start at h
  have hresolve : NodeSubscription.resolveNodes (d.client server).getNode d.subscription.nodes.items
      d.subscription.keys =
        (d.subscription.keys.setAll (d.subscription.nodes.items.map fun p => (d.node p.2, p.1)),
          .ok (d.subscription.nodes.items.map fun p => d.node p.2)) :=
    NodeSubscription.resolveNodes_ok (fun _ _ => rfl) _
  rw [hresolve] at h
  split at h
  · cases h
  · dsimp only at h
    split at h
    · cases h
    · split at h
      · cases h
      · cases h
        rfl

/-- A tag of the channel that has its node to itself. -/
structure Named (d : ChannelDeployment) (tag : String) : Prop where
  mem : tag ∈ d.tags.keys
  only : ∀ p ∈ d.tags.items, d.node p.2 = d.nodeOf tag → p.1 = tag

end ChannelDeployment

namespace Channel

variable {d : ChannelDeployment} {s s' : Channel} {e : Event} {tag : String}
  {tr : List (Channel × Event)}

/-! ## One step -/

theorem update_self (nodes : String → MonitoredNode DataValue) (node : String)
    (n : MonitoredNode DataValue) : update nodes node n node = n := if_pos rfl

theorem update_of_ne {nodes : String → MonitoredNode DataValue} {node node' : String}
    (h : node' ≠ node) (n : MonitoredNode DataValue) : update nodes node n node' = nodes node' :=
  if_neg h

/-- What each event asks of the state, and what it changes. -/
inductive Stepped (d : ChannelDeployment) (s : Channel) : Event → Channel → Prop where
  | write (node : String) (value : DataValue) :
      Stepped d s (.write node value)
        { s with nodes := update s.nodes node ((s.nodes node).write value) }
  | subscribe {server : SubscriptionServer} {now : Utc} {subscription : NodeSubscription}
      {asked : Subscribing} (hnone : s.subscription = none)
      (hstart : d.subscription.start (d.client server) now = (subscription, asked, .ok ())) :
      Stepped d s (.subscribe server now)
        { s with
          nodes := fun node =>
            if monitors (d.client server) asked node then (s.nodes node).subscribe
            else s.nodes node
          subscription := some subscription }
  | sample (node : String) :
      Stepped d s (.sample node)
        { s with
          nodes := update s.nodes node
            ((s.nodes node).sample d.subscription.config.queue_size.toNat) }
  | send : Stepped d s .send { s with nodes := fun node => (s.nodes node).send }
  | notify {node key : String} {now : Utc} {subscription subscription' : NodeSubscription}
      {value : DataValue} {n : MonitoredNode DataValue} (hsession : s.subscription = some subscription)
      (hreceive : (s.nodes node).receive? = some (value, n))
      (hkey : subscription.keys.get? node = some key)
      (hkeys : subscription'.keys = subscription.keys) :
      Stepped d s (.notify node now)
        { nodes := update s.nodes node n
          subscription := some subscription'
          tasks := { s.tasks with
            ingest := s.tasks.ingest.put ⟨.tag, key, value, now.toDatetime⟩ } }
  | unknown {node : String} {now : Utc} {subscription subscription' : NodeSubscription}
      {value : DataValue} {n : MonitoredNode DataValue} (hsession : s.subscription = some subscription)
      (hreceive : (s.nodes node).receive? = some (value, n))
      (hkey : subscription.keys.get? node = none)
      (hkeys : subscription'.keys = subscription.keys) :
      Stepped d s (.notify node now)
        { s with nodes := update s.nodes node n, subscription := some subscription' }
  | disconnect (hsession : s.subscription ≠ none) :
      Stepped d s .disconnect
        { s with nodes := fun node => (s.nodes node).unsubscribe, subscription := none }
  | task {e : Tasks.Event} {tasks : Tasks} (helse : elsewhere e = true)
      (hs : Tasks.step d.env s.tasks e = some tasks) : Stepped d s (.task e) { s with tasks }

theorem step_cases (hs : step d s e = some s') : Stepped d s e s' := by
  cases e with
  | write node value =>
      cases hs
      exact .write node value
  | subscribe server now =>
      simp only [step] at hs
      split at hs
      · next hnone hstart =>
          cases hs
          exact .subscribe hnone hstart
      · cases hs
  | sample node =>
      cases hs
      exact .sample node
  | send =>
      cases hs
      exact .send
  | notify node now =>
      simp only [step] at hs
      split at hs
      · next subscription value n hsession hreceive =>
          cases hkey : subscription.keys.get? node with
          | some key =>
              simp only [NodeSubscription.datachangeNotification, hkey, Option.map_some] at hs
              cases hs
              exact .notify hsession hreceive hkey rfl
          | none =>
              simp only [NodeSubscription.datachangeNotification, hkey, Option.map_none] at hs
              cases hs
              exact .unknown hsession hreceive hkey rfl
      · cases hs
  | disconnect =>
      simp only [step] at hs
      split at hs
      · next hsession =>
          cases hs
          exact .disconnect (by rw [hsession]; exact Option.some_ne_none _)
      · cases hs
  | task e =>
      simp only [step] at hs
      split at hs
      · next helse =>
          obtain ⟨tasks, htasks, rfl⟩ := Option.map_eq_some_iff.mp hs
          exact .task helse htasks
      · cases hs

/-- The readings of a tag that a step puts on the queue. -/
def received (tag : String) (p : Channel × Event) : List Reading :=
  (taskEvent p).elim [] fun e => Tasks.arriving tag (p.1.tasks, e)

/-- A session has the node of the tag under its name, and between two sessions
nothing is monitored. -/
def Linked (d : ChannelDeployment) (tag : String) (s : Channel) : Prop :=
  match s.subscription with
  | none => ∀ node, (s.nodes node).item = none
  | some subscription => ∀ node, subscription.keys.get? node = some tag ↔ node = d.nodeOf tag

theorem Linked.keep (h : Linked d tag s) (hsubscription : s'.subscription = s.subscription)
    (hitem : ∀ node, (s.nodes node).item = none → (s'.nodes node).item = none) :
    Linked d tag s' := by
  unfold Linked at h ⊢
  rw [hsubscription]
  cases hs : s.subscription with
  | none =>
      rw [hs] at h
      exact fun node => hitem node (h node)
  | some subscription =>
      rw [hs] at h
      exact h

/-- Nothing of a tag goes lost: the server's queue has room, and nothing waits
in it when a session ends; the ingestor's queue is not full, nothing is trimmed
from the table, and no cancelled write loses or overtakes a batch. -/
def keeps (d : ChannelDeployment) (tag : String) : Channel × Event → Bool
  | (s, .sample node) =>
      node ≠ d.nodeOf tag || (s.nodes node).queue.length < d.subscription.config.queue_size.toNat
  | (s, .notify _ _) => !s.tasks.ingest.queue.full
  | (s, .disconnect) => (s.nodes (d.nodeOf tag)).due = []
  | (s, .task e) =>
      Tasks.evicted (s.tasks, e) = [] && Tasks.trimmed "tags" (s.tasks, e) = [] &&
        Tasks.keepsOrder d.env (s.tasks, e)
  | _ => true

/-- No other channel delivers under the name of the tag. -/
def alone (tag : String) : Channel × Event → Bool
  | (_, .task (.onTag tag' _ _)) => tag' ≠ tag
  | _ => true

/-- What the server still has of a tag. -/
def due (d : ChannelDeployment) (tag : String) (s : Channel) : List DataValue :=
  (s.nodes (d.nodeOf tag)).due

/-- Nothing of a tag is on its way any more. -/
def Settled (d : ChannelDeployment) (tag : String) (s : Channel) : Prop :=
  due d tag s = [] ∧ s.tasks.Quiet

instance (tag : String) (s : Channel) : Decidable (Settled d tag s) :=
  inferInstanceAs (Decidable (_ ∧ _))

end Channel

end KepServerLogger.System
