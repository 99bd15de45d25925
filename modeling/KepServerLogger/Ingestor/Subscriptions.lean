import KepServerLogger.Lib.Settings
import KepServerLogger.Lib.Subscription

/-!
# The subscriptions of a session (ingestor/src/main.py)

One for each metric of the settings, adapted to how often the extractor
publishes, and one for each channel that has tags. What a metric subscription
delivers goes to `on_metric`, what a channel delivers to `on_tag`.
-/

namespace KepServerLogger.Ingestor

open KepServerLogger.Py KepServerLogger.Lib

/-- The callback a subscription is given. -/
inductive OnData where
  | onMetric
  | onTag
  deriving DecidableEq, Repr

section

variable (upper : String → String) -- `str.upper`

def subscriptionLabel (server name : String) : String :=
  "[" ++ server ++ "][" ++ upper name ++ "]"

def metricSubscription (settings : Settings) (server : String) (metric : Metric) :
    NodeSubscription :=
  .new (subscriptionLabel upper server metric.name)
    (Dict.ofList [(metric.name, metric.nodeId settings.node_prefix)])
    (SubscriptionConfig.forPublishInterval {} settings.polling_interval_seconds)

def channelSubscription (server channel : String) (tags : Dict String String) :
    NodeSubscription :=
  .new (subscriptionLabel upper server channel) tags {}

/-- `METRICS[name]` -/
def metricNamed (name : String) : Except Exc Metric :=
  match metrics.get? name with
  | some metric => .ok metric
  | none => .error ⟨.keyError, name⟩

/-- `_build_subscriptions` -/
def buildSubscriptions (settings : Settings) (server : String)
    (channel_tags : Dict String (Dict String String)) :
    Except Exc (List (NodeSubscription × OnData)) := do
  let ofMetrics ← settings.metrics.mapM fun name => do
    return (metricSubscription upper settings server (← metricNamed name), OnData.onMetric)
  let ofChannels := (channel_tags.items.filter fun p => p.2.items ≠ []).map fun p =>
    (channelSubscription upper server p.1 p.2, OnData.onTag)
  return ofMetrics ++ ofChannels

end

end KepServerLogger.Ingestor
