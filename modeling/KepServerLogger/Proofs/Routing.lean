import KepServerLogger.Proofs.Monitoring
import Mathlib.Data.List.Dedup

/-!
# Where the values of a session go

The settings are checked when they are read, and what passes is all that
`_build_subscriptions` asks of them. What a subscription hands on from then on
is a value of one of its own nodes under the key of that node, and goes to
`on_metric` under the name of a metric there is, or to `on_tag` under a tag of
the channel, whatever node ids the server makes of those in the settings.
-/

namespace KepServerLogger

open KepServerLogger.Py KepServerLogger.Lib

namespace Lib.NodeSubscription

variable {server : SubscriptionServer} {s : NodeSubscription} {now : Utc}
  {getNode : String → Except Exc String} {l : List (String × String)}
  {keys : Dict String String} {key node_id node : String}

/-! ## The keys -/

theorem get?_resolveNodes (h : (resolveNodes getNode l keys).1.get? node = some key) :
    keys.get? node = some key ∨ ∃ node_id, (key, node_id) ∈ l ∧ getNode node_id = .ok node := by
  induction l generalizing keys with
  | nil => exact .inl h
  | cons p rest ih =>
      obtain ⟨key', node_id'⟩ := p
      rw [resolveNodes] at h
      split at h
      · exact .inl h
      · next node' hnode =>
          rcases ih h with hget | ⟨node_id, hmem, hget⟩
          · rw [Dict.get?_set] at hget
            split at hget
            · next heq =>
                cases hget
                subst heq
                exact .inr ⟨node_id', List.mem_cons_self, hnode⟩
            · exact .inl hget
          · exact .inr ⟨node_id, List.mem_cons_of_mem _ hmem, hget⟩

/-- A node keeps having a key. -/
theorem get?_resolveNodes_of_get? (h : keys.get? node ≠ none) :
    (resolveNodes getNode l keys).1.get? node ≠ none := by
  induction l generalizing keys with
  | nil => exact h
  | cons p rest ih =>
      rw [resolveNodes]
      split
      · exact h
      · refine ih ?_
        rw [Dict.get?_set]
        split
        · exact Option.some_ne_none _
        · exact h

theorem get?_resolveNodes_of_mem {items : List String}
    (hok : (resolveNodes getNode l keys).2 = .ok items) (hmem : (key, node_id) ∈ l)
    (hnode : getNode node_id = .ok node) : (resolveNodes getNode l keys).1.get? node ≠ none := by
  induction l generalizing keys items with
  | nil => exact absurd hmem List.not_mem_nil
  | cons p rest ih =>
      obtain ⟨key', node_id'⟩ := p
      rw [resolveNodes] at hok ⊢
      split at hok
      · cases hok
      · next node' hnode' =>
          dsimp only at hok ⊢
          obtain ⟨items, hitems⟩ : ∃ items,
              (resolveNodes getNode rest (keys.set node' key')).2 = .ok items := by
            cases hrest : (resolveNodes getNode rest (keys.set node' key')).2 with
            | ok items => exact ⟨items, rfl⟩
            | error e =>
                rw [hrest] at hok
                cases hok
          rcases List.mem_cons.mp hmem with heq | hmem
          · cases heq
            cases hnode.symm.trans hnode'
            refine get?_resolveNodes_of_get? ?_
            rw [Dict.get?_set, if_pos rfl]
            exact Option.some_ne_none _
          · exact ih hitems hmem

/-- However `start` ends, its keys are those of its nodes. -/
theorem get?_keys_start (hnone : s.keys = ∅)
    (h : (s.start server now).1.keys.get? node = some key) :
    ∃ node_id, (key, node_id) ∈ s.nodes.items ∧ server.getNode node_id = .ok node := by
  have hkeys : (s.start server now).1.keys = s.keys ∨ (s.start server now).1.keys =
      (resolveNodes server.getNode s.nodes.items s.keys).1 := by
    unfold start
    split
    · exact .inl rfl
    · dsimp only
      split
      · exact .inr rfl
      · split
        · exact .inr rfl
        · split <;> exact .inr rfl
  rcases hkeys with hkeys | hkeys
  · rw [hkeys, hnone] at h
    cases h
  · rw [hkeys] at h
    rcases get?_resolveNodes h with hget | hmem
    · rw [hnone] at hget
      cases hget
    · exact hmem

/-- If it returns, each node that it asked for has one. -/
theorem get?_keys_start_of_mem (hok : (s.start server now).2.2 = .ok ())
    (hmem : (key, node_id) ∈ s.nodes.items) (hnode : server.getNode node_id = .ok node) :
    (s.start server now).1.keys.get? node ≠ none := by
  unfold start at hok ⊢
  split at hok
  · cases hok
  · dsimp only at hok ⊢
    split at hok
    · cases hok
    · next items hitems =>
        have hget := get?_resolveNodes_of_mem hitems hmem hnode
        split at hok
        · cases hok
        · split at hok
          · cases hok
          · next hrejected =>
              rw [if_neg hrejected]
              exact hget

end Lib.NodeSubscription

namespace Ingestor

variable {upper : String → String} {settings : Settings} {server_name : String}
  {channel_tags : Dict String (Dict String String)} {built : List (NodeSubscription × OnData)}

/-! ## What is built -/

theorem knownMetrics_iff (names : List String) :
    (∃ names', Settings.knownMetrics names = .ok names') ↔ ∀ name ∈ names, name ∈ metrics.keys := by
  have hunknown : Settings.unknown names = [] ↔ ∀ name ∈ names, name ∈ metrics.keys := by
    rw [Settings.unknown, ← List.length_eq_zero_iff, List.length_mergeSort, List.length_eq_zero_iff,
      List.filter_eq_nil_iff]
    simp only [List.mem_dedup, decide_eq_true_eq, not_not]
  rw [← hunknown, Settings.knownMetrics]
  split
  · next h => exact ⟨fun _ => h, fun _ => ⟨names, rfl⟩⟩
  · next h => exact ⟨fun ⟨_, hok⟩ => (by cases hok), fun hnil => absurd hnil h⟩

theorem metricNamed_iff (name : String) :
    (∃ metric, metricNamed name = .ok metric) ↔ name ∈ metrics.keys := by
  unfold metricNamed
  split
  · next metric h =>
      refine ⟨fun _ => ?_, fun _ => ⟨metric, rfl⟩⟩
      by_contra hmem
      rw [Dict.get?_eq_none.mpr hmem] at h
      cases h
  · next h =>
      exact ⟨fun ⟨_, hok⟩ => (by cases hok), fun hmem => absurd hmem (Dict.get?_eq_none.mp h)⟩

/-- The settings are accepted exactly if the subscriptions can be built. -/
theorem knownMetrics_iff_build (upper : String → String) (settings : Settings) (server_name : String)
    (channel_tags : Dict String (Dict String String)) :
    (∃ names, Settings.knownMetrics settings.metrics = .ok names) ↔
      ∃ built, buildSubscriptions upper settings server_name channel_tags = .ok built := by
  rw [knownMetrics_iff]
  constructor
  · intro h
    obtain ⟨ofMetrics, hmetrics⟩ : ∃ r, (settings.metrics.mapM fun name => do
        return (metricSubscription upper settings server_name (← metricNamed name), OnData.onMetric)) =
          .ok r := by
      refine mapM_returns_iff.mpr fun name hname => ?_
      obtain ⟨metric, hmetric⟩ := (metricNamed_iff name).mpr (h name hname)
      rw [hmetric]
      exact ⟨_, rfl⟩
    rw [buildSubscriptions, hmetrics]
    exact ⟨_, rfl⟩
  · rintro ⟨built, h⟩ name hname
    obtain ⟨ofMetrics, hmetrics, -⟩ := ok_of_bind h
    obtain ⟨p, hp⟩ := ok_of_mapM_ok hmetrics name hname
    obtain ⟨metric, hmetric, -⟩ := ok_of_bind hp
    exact (metricNamed_iff name).mp ⟨metric, hmetric⟩

/-- A metric is found under its own name. -/
theorem name_of_get?_metrics {name : String} {metric : Metric}
    (h : metrics.get? name = some metric) : metric.name = name := by
  obtain ⟨m, -, heq⟩ := List.mem_map.mp (Dict.mem_of_get?_ofList h)
  cases heq
  rfl

/-- The node is one of this metric, or of this tag of a channel. -/
def Routed (settings : Settings) (channel_tags : Dict String (Dict String String))
    (server : SubscriptionServer) (node key : String) : OnData → Prop
  | .onMetric => key ∈ settings.metrics ∧ ∃ metric, metrics.get? key = some metric ∧
      server.getNode (metric.nodeId settings.node_prefix) = .ok node
  | .onTag => ∃ channel tags node_id, (channel, tags) ∈ channel_tags.items ∧
      (key, node_id) ∈ tags.items ∧ server.getNode node_id = .ok node

theorem routed_of_built (h : buildSubscriptions upper settings server_name channel_tags = .ok built)
    {p : NodeSubscription × OnData} (hp : p ∈ built) {server : SubscriptionServer} {now : Utc}
    {node key : String} (hkey : (p.1.start server now).1.keys.get? node = some key) :
    Routed settings channel_tags server node key p.2 := by
  rcases Subscriptions.mem_built h hp with
    ⟨name, hname, metric, hmetric, rfl⟩ | ⟨⟨channel, tags⟩, hchannel, rfl⟩
  · obtain ⟨node_id, hmem, hnode⟩ := NodeSubscription.get?_keys_start rfl hkey
    cases List.mem_singleton.mp hmem
    cases name_of_get?_metrics hmetric
    exact ⟨hname, metric, hmetric, hnode⟩
  · obtain ⟨node_id, hmem, hnode⟩ := NodeSubscription.get?_keys_start rfl hkey
    exact ⟨channel, tags, node_id, hchannel, hmem, hnode⟩

/-! ## A session -/

namespace Subscriptions

open KepServerLogger.Lib.NodeSubscription (atMinute inSeconds serverWithout)

variable {secondsText : Int → String} {tr : List (Subscriptions × Event)} {s : Subscriptions}

/-- What is handed on is what was notified, under the key that `start` has left. -/
theorem handed_eq {past : List (Subscriptions × Event)} {t : Subscriptions} {i : Nat}
    {node : String} {value : DataValue} {now : Utc}
    (h : Run (step secondsText) (ofBuilt built) past t) {t' : Subscriptions}
    (hs : step secondsText t (.notified i node value now) = some t') :
    ∃ p server began, built[i]? = some p ∧
      (past.filterMap startedBy)[i]? = some (server, began) ∧
      handed (t, .notified i node value now) =
        ((p.1.start server began).1.keys.get? node).map fun key => (p.2, key, value, now) := by
  have hkept := Run.kept h
  cases step_cases hs with
  | @notified _ _ _ _ q hbegun =>
      have hi : i < t.begun.length := (List.getElem?_eq_some_iff.mp hbegun).1
      obtain ⟨p, hp⟩ : ∃ p, built[i]? = some p :=
        ⟨_, List.getElem?_eq_getElem (hi.trans_le hkept.le)⟩
      obtain ⟨⟨server, began⟩, hstarted⟩ : ∃ x, (past.filterMap startedBy)[i]? = some x :=
        ⟨_, List.getElem?_eq_getElem (hkept.length.symm ▸ hi)⟩
      refine ⟨p, server, began, hp, hstarted, ?_⟩
      rw [handed, hkept.begun i p server began hp hstarted, Option.bind_some,
        NodeSubscription.datachangeNotification, NodeSubscription.keys_after, Option.map_map]
      rfl

/-- The settings are accepted exactly if the subscriptions of a session can be
built. Then, whatever the servers that start them make of the node ids and
whatever they send: a value goes to `on_metric` under the name of one of the
metrics, which there is, or to `on_tag` under a tag, and is one of that
metric's or tag's node; and no value is dropped of a node that a successful
`start` has asked for. -/
theorem values_routed (upper : String → String) (settings : Settings) (server_name : String)
    (channel_tags : Dict String (Dict String String)) (secondsText : Int → String) :
    ((∃ names, Settings.knownMetrics settings.metrics = .ok names) ↔
      ∃ built, buildSubscriptions upper settings server_name channel_tags = .ok built) ∧
    ∀ built tr s, buildSubscriptions upper settings server_name channel_tags = .ok built →
      Run (step secondsText) (ofBuilt built) tr s →
      EachWithPast (fun past p => ∀ i node value now, p.2 = .notified i node value now →
        ∃ q server began, built[i]? = some q ∧
          (past.filterMap startedBy)[i]? = some (server, began) ∧
          (∀ call, handed p = some call → ∃ key, call = (q.2, key, value, now) ∧
            Routed settings channel_tags server node key q.2) ∧
          ((q.1.start server began).2.2 = .ok () →
            (∃ key node_id, (key, node_id) ∈ q.1.nodes.items ∧
              server.getNode node_id = .ok node) → (handed p).isSome)) tr := by
  refine ⟨knownMetrics_iff_build upper settings server_name channel_tags, ?_⟩
  rintro built tr s hbuilt h past ⟨t, e⟩ rest rfl i node value now rfl
  obtain ⟨t', hpast, hs, -⟩ := h.split
  obtain ⟨q, server, began, hq, hstarted, hhanded⟩ := handed_eq hpast hs
  refine ⟨q, server, began, hq, hstarted, fun call hcall => ?_, fun hok hasked => ?_⟩
  · rw [hhanded] at hcall
    obtain ⟨key, hkey, rfl⟩ := Option.map_eq_some_iff.mp hcall
    exact ⟨key, rfl, routed_of_built hbuilt (List.mem_of_getElem? hq) hkey⟩
  · obtain ⟨key, node_id, hmem, hnode⟩ := hasked
    have hget := NodeSubscription.get?_keys_start_of_mem hok hmem hnode
    obtain ⟨key', hkey'⟩ := Option.ne_none_iff_exists'.mp hget
    rw [hhanded, hkey']
    rfl

/-- The value of the tank goes to `on_tag`, from the second of the
subscriptions. -/
theorem values_routed_endedByServer :
    ∃ past t rest, (executed (step inSeconds) (ofBuilt cpuAndTags) endedByServer
        execute_endedByServer).1 =
          past ++ (t, .notified 1 "ns=2;s=tank" (.good (.int 3)) (atMinute 1)) :: rest ∧
      ∃ key, handed (t, .notified 1 "ns=2;s=tank" (.good (.int 3)) (atMinute 1)) =
          some (.onTag, key, .good (.int 3), atMinute 1) ∧
        Routed onlyCpu twoTags (serverWithout ["ns=2;s=pump"]) "ns=2;s=tank" key .onTag := by
  let run := executed (step inSeconds) (ofBuilt cpuAndTags) endedByServer execute_endedByServer
  have hsplit : run.1 = run.1.take 3 ++ ((run.1.get ⟨3, by decide⟩).1,
      .notified 1 "ns=2;s=tank" (.good (.int 3)) (atMinute 1)) :: run.1.drop 4 := rfl
  refine ⟨_, _, _, hsplit, ?_⟩
  obtain ⟨q, server, began, hq, hstarted, hcall, hkept⟩ :=
    (values_routed String.toUpper onlyCpu "plant" twoTags inSeconds).2 cpuAndTags run.1 run.2
      build_cpuAndTags (Run.executed execute_endedByServer) _ _ _ hsplit _ _ _ _ rfl
  cases hq
  have hstart : (run.1.take 3).filterMap startedBy =
      [(serverWithout [], atMinute 0), (serverWithout ["ns=2;s=pump"], atMinute 0)] := rfl
  rw [hstart] at hstarted
  cases hstarted
  obtain ⟨call, hhanded⟩ := Option.isSome_iff_exists.mp
    (hkept (by decide) ⟨"tank", "ns=2;s=tank", by decide, rfl⟩)
  obtain ⟨key, rfl, hrouted⟩ := hcall call hhanded
  exact ⟨key, hhanded, hrouted⟩

end Subscriptions

end Ingestor

end KepServerLogger
