import KepServerLogger.Lib.Metrics

/-!
# Settings (lib/settings.py)

What settings.json says, once its list of metrics has been checked against
the ones there are.
-/

namespace KepServerLogger.Lib

open KepServerLogger.Py

structure Settings where
  polling_interval_seconds : Int := 1
  node_prefix : String := "ns=2;s=IDL.Metrics"
  metrics : List String := Lib.metrics.keys
  deriving DecidableEq

namespace Settings

def unknownMetrics (unknown : List String) : Exc :=
  ⟨.valueError, "unknown metrics: " ++ ", ".intercalate unknown ++ " (known: " ++
    ", ".intercalate Lib.metrics.keys ++ ")"⟩

/-- `sorted(set(names) - set(METRICS))` -/
def unknown (names : List String) : List String :=
  (names.dedup.filter fun name => name ∉ Lib.metrics.keys).mergeSort fun a b => decide (a ≤ b)

def knownMetrics (names : List String) : Except Exc (List String) :=
  if unknown names = [] then .ok names else .error (unknownMetrics (unknown names))

end Settings

end KepServerLogger.Lib
