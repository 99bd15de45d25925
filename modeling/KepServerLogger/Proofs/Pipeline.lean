import KepServerLogger.Proofs.NodeValues
import KepServerLogger.Proofs.Subscribing
import KepServerLogger.System.Pipeline

/-!
# The table is what was published

A metric that is published in samples of increasing timestamps ends up in its
table in that order and once each, however many sessions the ingestor needs
for it and however often a write fails, as long as nothing is lost on the
way. At any moment the table holds the first of what was published, and when
nothing is on its way any more it holds all of it.

What is on its way is one list, from the queue of the ingestor through the
server's to the value that the node has. What a session may send again is in
front of everything else in it, because a session begins with empty queues.
-/

namespace KepServerLogger.System

open KepServerLogger.Py KepServerLogger.Lib KepServerLogger.Ingestor

/-! ## One step -/

/-- What `publish_metric` writes, if it writes, carries the sample. -/
theorem Deployment.publishMetric_cons {d : Deployment} {m : OPCUAModel} {ms : List OPCUAModel}
    {written : Option PyValue} (h : d.publishMetric (m :: ms) = .ok written) :
    written = some (.str (payload (m :: ms)).dumps) := by
  unfold publishMetric at h
  rw [if_neg (List.cons_ne_nil _ _), encode_eq] at h
  obtain ⟨text, htext, h⟩ := ok_of_bind h
  cases htext
  obtain ⟨value, hvalue, hwritten⟩ := ok_of_bind h
  cases hwritten
  unfold OPCUAClient.writeValue at hvalue
  split at hvalue
  · cases hvalue
    rfl
  · cases hvalue

/-- A subscription to the metric that has started knows its node. -/
theorem Deployment.keys_of_start {d : Deployment} {subscription : NodeSubscription}
    {done : Subscribing} {now : Utc} {text : String}
    (h : d.subscription.start d.server now = (subscription, done, .ok ()))
    (htext : d.nodeText = .ok text) : subscription.keys.get? text = some d.metric.name := by
  unfold NodeSubscription.start at h
  have hnodes : d.subscription.nodes.items =
      [(d.metric.name, d.metric.nodeId d.settings.node_prefix)] := rfl
  have hresolve : NodeSubscription.resolveNodes d.server.getNode d.subscription.nodes.items
      d.subscription.keys = (Dict.set ∅ text d.metric.name, .ok [text]) := by
    rw [hnodes, NodeSubscription.resolveNodes, show d.server.getNode _ = .ok text from htext]
    rfl
  rw [hresolve] at h
  split at h
  · cases h
  · dsimp only at h
    split at h
    · cases h
    · split at h
      · cases h
      · cases h
        exact (Dict.get?_set _ _ _ _).trans (if_pos rfl)

namespace Pipeline

variable {d : Deployment} {s s' : Pipeline} {e : Event}

/-- What each event asks of the state, and what it changes. -/
inductive Stepped (d : Deployment) (s : Pipeline) : Event → Pipeline → Prop where
  | publishNothing : Stepped d s (.publish []) s
  | publish (m : OPCUAModel) (ms : List OPCUAModel) :
      Stepped d s (.publish (m :: ms)) { s with node := s.node.write (Sample.value ⟨m, ms⟩) }
  | connect (hclosed : s.session = .closed) :
      Stepped d s .connect
        { s with
          session := .opened
          tasks := { s.tasks with ingest := s.tasks.ingest.newSession d.settings.metrics } }
  | subscribe {now : Utc} {subscription : NodeSubscription} {done : Subscribing}
      (hopened : s.session = .opened)
      (hstart : d.subscription.start d.server now = (subscription, done, .ok ())) :
      Stepped d s (.subscribe now)
        { s with node := s.node.subscribe, session := .subscribed subscription }
  | sample :
      Stepped d s .sample
        { s with node := s.node.sample d.subscription.config.queue_size.toNat }
  | send : Stepped d s .send { s with node := s.node.send }
  | notify {now : Utc} {subscription subscription' : NodeSubscription} {value : DataValue}
      {node : MonitoredNode DataValue} {text key : String}
      (hsession : s.session = .subscribed subscription) (hreceive : s.node.receive? = some (value, node))
      (htext : d.nodeText = .ok text) (hkey : subscription.keys.get? text = some key)
      (hkeys : subscription'.keys = subscription.keys) :
      Stepped d s (.notify now)
        { node
          session := .subscribed subscription'
          tasks := { s.tasks with
            ingest := s.tasks.ingest.put ⟨.metric, key, value, now.toDatetime⟩ } }
  | unknown {now : Utc} {subscription subscription' : NodeSubscription} {value : DataValue}
      {node : MonitoredNode DataValue} {text : String}
      (hsession : s.session = .subscribed subscription) (hreceive : s.node.receive? = some (value, node))
      (htext : d.nodeText = .ok text) (hkey : subscription.keys.get? text = none)
      (hkeys : subscription'.keys = subscription.keys) :
      Stepped d s (.notify now) { s with node, session := .subscribed subscription' }
  | disconnect (hsession : s.session ≠ .closed) :
      Stepped d s .disconnect { s with node := s.node.unsubscribe, session := .closed }
  | task {e : Tasks.Event} {tasks : Tasks} (helse : elsewhere d e = true)
      (hs : Tasks.step d.env s.tasks e = some tasks) : Stepped d s (.task e) { s with tasks }

theorem step_cases (hs : step d s e = some s') : Stepped d s e s' := by
  cases e with
  | publish models =>
      simp only [step] at hs
      cases models with
      | nil =>
          cases hs
          exact .publishNothing
      | cons m ms =>
          split at hs
          · next value hwritten =>
              cases Deployment.publishMetric_cons hwritten
              cases hs
              exact .publish m ms
          · next hwritten => cases Deployment.publishMetric_cons hwritten
          · cases hs
  | connect =>
      simp only [step] at hs
      split at hs
      · next hclosed =>
          cases hs
          exact .connect hclosed
      · cases hs
  | subscribe now =>
      simp only [step] at hs
      split at hs
      · next hopened hstart =>
          cases hs
          exact .subscribe hopened hstart
      · cases hs
  | sample =>
      cases hs
      exact .sample
  | send =>
      cases hs
      exact .send
  | notify now =>
      simp only [step] at hs
      split at hs
      · next subscription value node text hsession hreceive htext =>
          cases hkey : subscription.keys.get? text with
          | some key =>
              simp only [NodeSubscription.datachangeNotification, hkey, Option.map_some] at hs
              cases hs
              exact .notify hsession hreceive htext hkey rfl
          | none =>
              simp only [NodeSubscription.datachangeNotification, hkey, Option.map_none] at hs
              cases hs
              exact .unknown hsession hreceive htext hkey rfl
      · cases hs
  | disconnect =>
      simp only [step] at hs
      split at hs
      · cases hs
      · next hsession =>
          cases hs
          exact .disconnect hsession
  | task e =>
      simp only [step] at hs
      split at hs
      · next helse =>
          obtain ⟨tasks, htasks, rfl⟩ := Option.map_eq_some_iff.mp hs
          exact .task helse htasks
      · cases hs

/-- Nothing goes lost between the extractor and the table: no value is
written over before anybody was told of it, no queue is full, none still has
a value in it when a session ends or begins, and no cancelled write loses or
overtakes a batch. -/
def keeps (d : Deployment) : Pipeline × Event → Bool
  | (s, .publish models) => models = [] || s.node.told
  | (s, .connect) => queued d.metric.name s.tasks.ingest.queue.items = []
  | (s, .sample) => s.node.queue.length < d.subscription.config.queue_size.toNat
  | (s, .notify _) => !s.tasks.ingest.queue.full
  | (s, .disconnect) => s.node.due = []
  | (s, .task e) =>
      Tasks.evicted (s.tasks, e) = [] && Tasks.trimmed d.metric.table_name (s.tasks, e) = [] &&
        Tasks.keepsOrder d.env (s.tasks, e)
  | _ => true

/-- A metric that the dedup is for, and a node that has held nothing of it. -/
structure Fits (d : Deployment) (left : DataValue) : Prop where
  metric : metrics.get? d.metric.name = some d.metric
  idempotent : d.metric.idempotent = false
  copies : d.env.Copies
  left : d.metric.decode d.env left = .ok []

/-- The values of the metric that are queued in the ingestor. -/
def arrived (d : Deployment) (s : Pipeline) : List DataValue :=
  queued d.metric.name s.tasks.ingest.queue.items

/-- What the ingestor has been sent or will be sent, and has not decoded. -/
def coming (d : Deployment) (s : Pipeline) : List DataValue := arrived d s ++ s.node.ahead

/-- The part of it that the node does not hold back any more. -/
def sent (d : Deployment) (s : Pipeline) : List DataValue := arrived d s ++ s.node.due

/-- The rows that a step produces. -/
def stored (d : Deployment) (p : Pipeline × Event) : List Row :=
  (taskEvent d p).elim [] fun e => Tasks.produced d.env d.metric.table_name (p.1.tasks, e)

/-- What a session has set up. -/
def SessionReady (d : Deployment) (s : Pipeline) : Prop :=
  match s.session with
  | .closed => s.node.item = none
  | .opened => s.node.item = none ∧ arrived d s = [] ∧
      d.metric.name ∈ s.tasks.ingest.awaitingFirst
  | .subscribed subscription =>
      ∀ text, d.nodeText = .ok text → subscription.keys.get? text = some d.metric.name

theorem SessionReady.keep (h : SessionReady d s) (hsession : s'.session = s.session)
    (hitem : s.node.item = none → s'.node.item = none)
    (hopened : arrived d s = [] → d.metric.name ∈ s.tasks.ingest.awaitingFirst →
      arrived d s' = [] ∧ d.metric.name ∈ s'.tasks.ingest.awaitingFirst) : SessionReady d s' := by
  unfold SessionReady at h ⊢
  rw [hsession]
  cases hs : s.session with
  | closed =>
      rw [hs] at h
      exact hitem h
  | opened =>
      rw [hs] at h
      exact ⟨hitem h.1, hopened h.2.1 h.2.2⟩
  | subscribed subscription =>
      rw [hs] at h
      exact h

/-- The published samples are those that have been decoded and those that are
on their way, with at most one value in front that is sent again. -/
structure Carried (d : Deployment) (left : DataValue) (tr : List (Pipeline × Event))
    (s : Pipeline) (done new : List Sample) (again : Option DataValue) : Prop where
  published : tr.flatMap published = done ++ new
  coming : coming d s = again.toList ++ new.map Sample.value
  repeats : ∀ value ∈ again,
    Ingest.Repeats left d.metric.name done s.tasks.ingest value ∧ sent d s ≠ []
  latest : IsLatest (done.map (·.onWire.newest)) (s.tasks.ingest.lastTimestamp.get? d.metric.name)
  stored : tr.flatMap (stored d) = done.flatMap (Sample.rows d.metric)
  value : s.node.value = (done ++ new).getLast?.elim left Sample.value
  synced : s.node.Synced
  session : SessionReady d s

section

variable {left : DataValue} {tr : List (Pipeline × Event)} {done new : List Sample}
  {again : Option DataValue}

theorem Carried.start (d : Deployment) (left : DataValue) :
    Carried d left [] (start left) [] [] none where
  published := rfl
  coming := rfl
  repeats := fun value h => absurd h (Option.not_mem_none value)
  latest := rfl
  stored := rfl
  value := rfl
  synced := by rintro item ⟨⟩
  session := rfl

/-- A step that publishes and stores nothing and leaves what the ingestor
remembers of the metric. -/
theorem Carried.quiet (h : Carried d left tr s done new again)
    (hpublished : Pipeline.published (s, e) = []) (hstored : Pipeline.stored d (s, e) = [])
    (hcoming : Pipeline.coming d s' = Pipeline.coming d s)
    (hsent : sent d s ≠ [] → sent d s' ≠ [])
    (hlatest : IsLatest (done.map (·.onWire.newest))
      (s'.tasks.ingest.lastTimestamp.get? d.metric.name))
    (hflag : d.metric.name ∈ s.tasks.ingest.awaitingFirst →
      d.metric.name ∈ s'.tasks.ingest.awaitingFirst)
    (hvalue : s'.node.value = s.node.value) (hsynced : s'.node.Synced)
    (hsession : SessionReady d s') : Carried d left (tr ++ [(s, e)]) s' done new again where
  published := by
    rw [List.flatMap_append, List.flatMap_singleton, hpublished, List.append_nil, h.published]
  coming := hcoming.trans h.coming
  repeats value hvalue := by
    obtain ⟨hrepeats, hne⟩ := h.repeats value hvalue
    exact ⟨hrepeats.imp_right fun ⟨x, hx, heq, hup⟩ => ⟨x, hx, heq, hflag hup⟩, hsent hne⟩
  latest := hlatest
  stored := by
    rw [List.flatMap_append, List.flatMap_singleton, hstored, List.append_nil, h.stored]
  value := hvalue.trans h.value
  synced := hsynced
  session := hsession

/-- Nothing is sent again where nothing has been sent. -/
theorem Carried.again_eq_none (h : Carried d left tr s done new again) (hsent : sent d s = []) :
    again = none := by
  cases again with
  | none => rfl
  | some value => exact absurd hsent (h.repeats value rfl).2

theorem arrived_nil_of_item_none (hitem : s.node.item = none) (harrived : arrived d s = []) :
    sent d s = [] := by
  rw [sent, harrived, MonitoredNode.due, hitem]
  rfl

/-- A sample is written to a node whose value was told. -/
theorem Carried.publish (hfits : Fits d left) {m : OPCUAModel} {ms : List OPCUAModel}
    (h : Carried d left tr s done new again) (htold : s.node.told = true)
    (htravels : ∀ x ∈ done ++ new ++ [⟨m, ms⟩], x.Travels d.env d.metric)
    (hlater : Ingest.Later (done ++ new ++ [⟨m, ms⟩])) :
    Carried d left (tr ++ [(s, .publish (m :: ms))])
      { s with node := s.node.write (Sample.value ⟨m, ms⟩) } done (new ++ [⟨m, ms⟩]) again := by
  have hx := htravels ⟨m, ms⟩ (by simp)
  have hne : Sample.value ⟨m, ms⟩ ≠ s.node.value := by
    intro heq
    rw [h.value] at heq
    cases hlast : (done ++ new).getLast? with
    | none =>
        rw [hlast] at heq
        have hdecode := hx.decode hfits.copies
        rw [show Sample.value ⟨m, ms⟩ = left from heq, hfits.left] at hdecode
        cases hdecode
    | some y =>
        rw [hlast] at heq
        have hy : y ∈ done ++ new := List.mem_of_getLast? hlast
        have hlt := (List.pairwise_append.mp hlater).2.2 y hy ⟨m, ms⟩ (by simp)
        rw [Sample.onWire_eq_of_value hx (htravels y (List.mem_append_left _ hy)) hfits.copies heq]
          at hlt
        exact lt_irrefl _ hlt
  refine ⟨?_, ?_, h.repeats, h.latest, ?_, ?_, h.synced.write htold _, ?_⟩
  · rw [List.flatMap_append, List.flatMap_singleton, h.published, List.append_assoc]
    rfl
  · have hahead := MonitoredNode.ahead_write htold (Sample.value ⟨m, ms⟩)
    rw [if_neg hne] at hahead
    show arrived d s ++ (s.node.write (Sample.value ⟨m, ms⟩)).ahead = _
    rw [hahead, ← List.append_assoc, show arrived d s ++ s.node.ahead = _ from h.coming,
      List.map_append, List.append_assoc]
    rfl
  · rw [List.flatMap_append, List.flatMap_singleton, h.stored]
    exact List.append_nil _
  · rw [← List.append_assoc, List.getLast?_concat]
    rfl
  · have hsession := h.session
    unfold SessionReady at hsession ⊢
    exact hsession

/-- The node is subscribed to. -/
theorem Carried.subscribe {now : Utc} {subscription : NodeSubscription} {log : Subscribing}
    (h : Carried d left tr s done new again) (hopened : s.session = .opened)
    (hstart : d.subscription.start d.server now = (subscription, log, .ok ())) :
    ∃ again', Carried d left (tr ++ [(s, .subscribe now)])
      { s with node := s.node.subscribe, session := .subscribed subscription } done new again' := by
  have hsession := h.session
  unfold SessionReady at hsession
  rw [hopened] at hsession
  obtain ⟨hitem, harrived, hflag⟩ := hsession
  have hnone := h.again_eq_none (arrived_nil_of_item_none hitem harrived)
  subst hnone
  have hcoming := h.coming
  rw [Pipeline.coming, harrived, Option.toList_none, List.nil_append, List.nil_append] at hcoming
  have hahead := MonitoredNode.ahead_subscribe hitem
  refine ⟨if s.node.told then some s.node.value else none, ?_, ?_, ?_, h.latest, ?_, h.value,
    .subscribe _, fun text htext => Deployment.keys_of_start hstart htext⟩
  · rw [List.flatMap_append, List.flatMap_singleton, h.published]
    exact List.append_nil _
  · show arrived d s ++ s.node.subscribe.ahead = _
    rw [harrived, hahead, hcoming, List.nil_append]
    split <;> rfl
  · intro value hvalue
    split at hvalue
    · next htold =>
        cases hvalue
        refine ⟨?_, ?_⟩
        · -- A node that was told of has nothing new.
          have hnew : new = [] := by
            rw [MonitoredNode.ahead, MonitoredNode.due, hitem, MonitoredNode.untold,
              if_pos htold] at hcoming
            exact List.map_eq_nil_iff.mp hcoming.symm
          have hlast := h.value
          rw [hnew, List.append_nil] at hlast
          cases hdone : done.getLast? with
          | none =>
              rw [hdone] at hlast
              exact .inl ⟨List.getLast?_eq_none_iff.mp hdone, hlast⟩
          | some x =>
              rw [hdone] at hlast
              exact .inr ⟨x, hdone, hlast, hflag⟩
        · show arrived d s ++ [s.node.value] ≠ []
          simp
    · cases hvalue
  · rw [List.flatMap_append, List.flatMap_singleton, h.stored]
    exact List.append_nil _

/-- A metric that is not idempotent has a table that `add_model` does not use. -/
theorem Fits.table_ne (hfits : Fits d left) : d.metric.table_name ≠ "heartbeat_rtt" := by
  have hall : ∀ m ∈ metricList, m.idempotent = false → m.table_name ≠ "heartbeat_rtt" := by decide
  exact hall _ (mem_metricList hfits.metric) hfits.idempotent

/-- What goes on elsewhere in the ingestor, but for a flush. -/
theorem task_frame (hfits : Fits d left) {t t' : Tasks} {e : Tasks.Event}
    (hs : Tasks.step d.env t e = some t') (helse : elsewhere d e = true)
    (hevicted : Tasks.evicted (t, e) = []) (hflush : e ≠ .flush) :
    queued d.metric.name t'.ingest.queue.items = queued d.metric.name t.ingest.queue.items ∧
      t'.ingest.lastTimestamp = t.ingest.lastTimestamp ∧
      t'.ingest.awaitingFirst = t.ingest.awaitingFirst ∧
      Tasks.produced d.env d.metric.table_name (t, e) = [] := by
  -- An item of something else, put where there is room.
  have hput : ∀ item : Item, ¬ (item.kind = .metric ∧ item.key = d.metric.name) →
      Tasks.arrivals (t, e) = [item] →
      queued d.metric.name (t.ingest.put item).queue.items =
        queued d.metric.name t.ingest.queue.items := by
    intro item hitem harrivals
    have hroom : ¬ t.ingest.queue.full := by
      intro hfull
      rw [Tasks.evicted, if_pos ⟨by rw [harrivals]; exact List.cons_ne_nil _ _, hfull⟩,
        List.take_eq_nil_iff] at hevicted
      exact Ingest.items_ne_nil_of_full hfull (hevicted.resolve_left Nat.one_ne_zero)
    rw [(Ingest.put_of_not_full item hroom).1, queued_append, queued_singleton, if_neg hitem,
      List.append_nil]
  cases Tasks.step_cases hs with
  | onMetric name dataValue receivedAt =>
      obtain ⟨-, hlast, hflag⟩ := Ingest.put_frame t.ingest ⟨.metric, name, dataValue, receivedAt⟩
      have hname : name ≠ d.metric.name := by simpa [elsewhere] using helse
      exact ⟨hput _ (fun h => hname h.2) rfl, hlast, hflag, rfl⟩
  | onTag tag dataValue receivedAt =>
      obtain ⟨-, hlast, hflag⟩ := Ingest.put_frame t.ingest ⟨.tag, tag, dataValue, receivedAt⟩
      exact ⟨hput _ (fun h => by cases h.1) rfl, hlast, hflag, rfl⟩
  | addModel table model =>
      have htable : table = "heartbeat_rtt" := by simpa [elsewhere] using helse
      refine ⟨rfl, rfl, rfl, ?_⟩
      rw [Tasks.produced, htable, if_neg hfits.table_ne.symm]
  | newSession => cases helse
  | flush => exact absurd rfl hflush
  | writeReturns | writeRaises | wrote | failed | cancelRunning | cancelReturned | cancelRaised
  | orphanReturns | orphanRaises => exact ⟨rfl, rfl, rfl, rfl⟩

/-- Where something has arrived, a flush splits what is coming. -/
theorem split_coming {arrived ahead : List DataValue}
    (h : arrived ++ ahead = again.toList ++ new.map Sample.value) (hne : arrived ≠ []) :
    ∃ new₁ new₂, new = new₁ ++ new₂ ∧ arrived = again.toList ++ new₁.map Sample.value ∧
      ahead = new₂.map Sample.value := by
  obtain ⟨value, rest, rfl⟩ := List.exists_cons_of_ne_nil hne
  cases again with
  | some a =>
      obtain ⟨rfl, hrest⟩ := List.cons.inj h
      obtain ⟨new₁, new₂, rfl, h₁, h₂⟩ := List.map_eq_append_iff.mp hrest.symm
      exact ⟨new₁, new₂, rfl, by rw [h₁]; rfl, h₂.symm⟩
  | none =>
      obtain ⟨new₁, new₂, rfl, h₁, h₂⟩ := List.map_eq_append_iff.mp h.symm
      exact ⟨new₁, new₂, rfl, h₁.symm, h₂.symm⟩

/-- A flush decodes what has arrived. -/
theorem Carried.flush (hfits : Fits d left) (h : Carried d left tr s done new again)
    (htravels : ∀ x ∈ done ++ new, x.Travels d.env d.metric) (hlater : Ingest.Later (done ++ new))
    {tasks : Tasks} (hs : Tasks.step d.env s.tasks .flush = some tasks) :
    ∃ done' new' again',
      Carried d left (tr ++ [(s, .task .flush)]) { s with tasks } done' new' again' := by
  cases Tasks.step_cases hs with
  | flush hidle =>
    -- What has arrived is what is decoded: with what is to come behind it, all of `new₁`.
    have hdecode : ∀ (again₁ : Option DataValue) (new₁ new₂ : List Sample),
        new = new₁ ++ new₂ → arrived d s = again₁.toList ++ new₁.map Sample.value →
        (∀ value ∈ again₁,
          Ingest.Repeats left d.metric.name done s.tasks.ingest value) →
        Pipeline.stored d (s, .task .flush) = new₁.flatMap (Sample.rows d.metric) ∧
        IsLatest ((done ++ new₁).map (·.onWire.newest))
          ((s.tasks.ingest.flushStart d.env).1.lastTimestamp.get? d.metric.name) ∧
        (arrived d s = [] → d.metric.name ∈ s.tasks.ingest.awaitingFirst →
          d.metric.name ∈ (s.tasks.ingest.flushStart d.env).1.awaitingFirst) := by
      intro again₁ new₁ new₂ hnew harrived hrepeats
      rw [hnew, ← List.append_assoc] at htravels hlater
      have htravels₁ := fun x hx => htravels x (List.mem_append_left _ hx)
      have hlater₁ := (List.pairwise_append.mp hlater).1
      obtain ⟨hlast, hflag⟩ := Tasks.flushStart_memory d.env s.tasks.ingest
      rw [hlast, hflag]
      have hrows := Ingest.decodeItems_queued
        (s := { s.tasks.ingest with pending := ∅, queue := ∅ }) hfits.metric hfits.idempotent
        hfits.copies hfits.left htravels₁ hlater₁ h.latest hrepeats harrived
      have hmemory := Ingest.decodeItems_queued (s := { s.tasks.ingest with queue := ∅ })
        hfits.metric hfits.idempotent hfits.copies hfits.left htravels₁ hlater₁ h.latest hrepeats
        harrived
      exact ⟨hrows.1, hmemory.2.1, fun hnil => (hmemory.2.2 hnil).mpr⟩
    have hempty : queued d.metric.name (s.tasks.ingest.flushStart d.env).1.queue.items = [] := by
      rw [(Ingest.flushStart_queue d.env s.tasks.ingest).1]
      rfl
    by_cases harrived : arrived d s = []
    · obtain ⟨hstored, hlatest, hflag⟩ := hdecode none [] new rfl harrived
        (fun value hvalue => absurd hvalue (Option.not_mem_none value))
      rw [List.append_nil] at hlatest
      refine ⟨done, new, again, h.quiet rfl hstored ?_ ?_ hlatest (hflag harrived) rfl h.synced
        (h.session.keep rfl id fun hnil hup => ⟨hempty, hflag hnil hup⟩)⟩
      · show queued _ (s.tasks.ingest.flushStart d.env).1.queue.items ++ s.node.ahead = _
        rw [hempty, Pipeline.coming, harrived]
      · show _ → queued _ (s.tasks.ingest.flushStart d.env).1.queue.items ++ s.node.due ≠ []
        rw [hempty, sent, harrived]
        exact id
    · obtain ⟨new₁, new₂, hnew, harr, hahead⟩ := split_coming h.coming harrived
      obtain ⟨hstored, hlatest, hflag⟩ := hdecode _ _ _ hnew harr fun value hvalue =>
        (h.repeats value hvalue).1
      refine ⟨done ++ new₁, new₂, none, ?_, ?_,
        fun value hvalue => absurd hvalue (Option.not_mem_none value), hlatest, ?_, ?_, h.synced,
        h.session.keep rfl id fun hnil hup => ⟨hempty, hflag hnil hup⟩⟩
      · rw [List.flatMap_append, List.flatMap_singleton, h.published, hnew, ← List.append_assoc]
        exact List.append_nil _
      · show queued _ (s.tasks.ingest.flushStart d.env).1.queue.items ++ s.node.ahead = _
        rw [hempty, hahead]
        rfl
      · rw [List.flatMap_append, List.flatMap_singleton, hstored, h.stored, List.flatMap_append]
      · rw [List.append_assoc, ← hnew]
        exact h.value

/-- One step that loses nothing. -/
theorem Carried.step (hfits : Fits d left) (h : Carried d left tr s done new again)
    (hs : Pipeline.step d s e = some s') (hkeeps : keeps d (s, e) = true)
    (htravels : ∀ x ∈ (tr ++ [(s, e)]).flatMap Pipeline.published, x.Travels d.env d.metric)
    (hlater : Ingest.Later ((tr ++ [(s, e)]).flatMap Pipeline.published)) :
    ∃ done' new' again', Carried d left (tr ++ [(s, e)]) s' done' new' again' := by
  rw [List.flatMap_append, List.flatMap_singleton, h.published] at htravels hlater
  cases step_cases hs with
  | publishNothing =>
      exact ⟨done, new, again, h.quiet rfl rfl rfl id h.latest id rfl h.synced h.session⟩
  | publish m ms =>
      have htold : s.node.told = true := by simpa [keeps] using hkeeps
      exact ⟨done, new ++ [⟨m, ms⟩], again, h.publish hfits htold htravels hlater⟩
  | connect hclosed =>
      have harrived : arrived d s = [] := by simpa [keeps, arrived] using hkeeps
      have hitem := h.session
      unfold SessionReady at hitem
      rw [hclosed] at hitem
      have hflag : d.metric.name ∈ (s.tasks.ingest.newSession d.settings.metrics).awaitingFirst :=
        List.mem_toFinset.mpr d.mem_metrics
      exact ⟨done, new, again, h.quiet rfl rfl rfl id h.latest (fun _ => hflag) rfl h.synced
        ⟨hitem, harrived, hflag⟩⟩
  | subscribe hopened hstart =>
      obtain ⟨again', h'⟩ := h.subscribe hopened hstart
      exact ⟨done, new, again', h'⟩
  | sample =>
      have hroom : s.node.queue.length < d.subscription.config.queue_size.toNat := by
        simpa [keeps] using hkeeps
      refine ⟨done, new, again, h.quiet rfl rfl ?_ (fun hsent => ?_) h.latest id
        (MonitoredNode.value_sample _ _) (h.synced.sample _) ?_⟩
      · show arrived d s ++ _ = _
        rw [MonitoredNode.ahead_sample h.synced hroom]
        rfl
      · obtain ⟨rest, hrest⟩ := MonitoredNode.due_prefix_sample hroom
        show arrived d s ++ _ ≠ []
        rw [← hrest, ← List.append_assoc]
        exact List.append_ne_nil_of_left_ne_nil hsent rest
      · refine h.session.keep rfl (fun hitem => ?_) fun hnil hup => ⟨hnil, hup⟩
        rw [MonitoredNode.sample_of_item_none hitem]
        exact hitem
  | send =>
      refine ⟨done, new, again, h.quiet rfl rfl ?_ (fun hsent => ?_) h.latest id rfl
        h.synced.send (h.session.keep rfl (fun hitem => ?_) fun hnil hup => ⟨hnil, hup⟩)⟩
      · show arrived d s ++ (s.node.send.due ++ s.node.untold) = _
        rw [MonitoredNode.due_send]
        rfl
      · show arrived d s ++ s.node.send.due ≠ []
        rw [MonitoredNode.due_send]
        exact hsent
      · show s.node.item.map _ = none
        rw [hitem]
        rfl
  | @notify now _ _ value node _ key hsession hreceive htext hkey hkeys =>
      have hready := h.session
      unfold SessionReady at hready
      rw [hsession] at hready
      obtain rfl : d.metric.name = key := Option.some.inj ((hready _ htext).symm.trans hkey)
      have hroom : ¬ s.tasks.ingest.queue.full := by simpa [keeps] using hkeeps
      obtain ⟨hahead, hvalue, hsynced⟩ := MonitoredNode.receive?_spec hreceive
      obtain ⟨-, hlast, hflag⟩ :=
        Ingest.put_frame s.tasks.ingest ⟨.metric, d.metric.name, value, now.toDatetime⟩
      have harrived : queued d.metric.name (s.tasks.ingest.put
          ⟨.metric, d.metric.name, value, now.toDatetime⟩).queue.items = arrived d s ++ [value] := by
        rw [(Ingest.put_of_not_full _ hroom).1, queued_append, queued_singleton,
          if_pos ⟨rfl, rfl⟩]
        rfl
      refine ⟨done, new, again, h.quiet rfl ?_ ?_ (fun _ => ?_) ?_ (fun hup => hflag ▸ hup) hvalue
        (hsynced h.synced) fun text htext => ?_⟩
      · simp only [Pipeline.stored, taskEvent, hsession, hreceive, htext,
          NodeSubscription.datachangeNotification, hkey, Option.map_some, Option.elim]
        rfl
      · show queued _ _ ++ node.ahead = arrived d s ++ s.node.ahead
        rw [harrived, hahead, List.append_assoc]
        rfl
      · show queued _ _ ++ node.due ≠ []
        rw [harrived]
        simp
      · show IsLatest _ ((s.tasks.ingest.put _).lastTimestamp.get? _)
        rw [hlast]
        exact h.latest
      · rw [hkeys]
        exact hready text htext
  | unknown hsession hreceive htext hkey =>
      have hready := h.session
      unfold SessionReady at hready
      rw [hsession] at hready
      rw [hready _ htext] at hkey
      cases hkey
  | disconnect hopen =>
      have hdue : s.node.due = [] := by simpa [keeps] using hkeeps
      refine ⟨done, new, again, h.quiet rfl rfl ?_ (fun hsent => ?_) h.latest id rfl
        (.unsubscribe _) rfl⟩
      · show arrived d s ++ s.node.unsubscribe.ahead = _
        rw [MonitoredNode.ahead_unsubscribe hdue]
        rfl
      · rw [sent, hdue] at hsent
        exact hsent
  | @task e tasks helse htasks =>
      by_cases hflush : e = .flush
      · subst hflush
        have hnothing : Pipeline.published (s, .task .flush) = [] := rfl
        rw [hnothing, List.append_nil] at htravels hlater
        exact h.flush hfits htravels hlater htasks
      · have hevicted : Tasks.evicted (s.tasks, e) = [] := by
          simp only [keeps, Bool.and_eq_true, decide_eq_true_eq] at hkeeps
          exact hkeeps.1.1
        obtain ⟨harrived, hlast, hflag, hproduced⟩ :=
          task_frame hfits htasks helse hevicted hflush
        refine ⟨done, new, again, h.quiet rfl hproduced ?_ (fun hsent => ?_) ?_
          (fun hup => hflag ▸ hup) rfl h.synced
          (h.session.keep rfl id fun hnil hup => ⟨harrived.trans hnil, hflag ▸ hup⟩)⟩
        · show queued _ tasks.ingest.queue.items ++ s.node.ahead = _
          rw [harrived]
          rfl
        · show queued _ tasks.ingest.queue.items ++ s.node.due ≠ []
          rw [harrived]
          exact hsent
        · show IsLatest _ (tasks.ingest.lastTimestamp.get? _)
          rw [hlast]
          exact h.latest

/-- A run that loses nothing carries the published samples. -/
theorem Run.carried {tr : List (Pipeline × Event)} (hfits : Fits d left)
    (h : Run (Pipeline.step d) (start left) tr s) (hkeeps : ∀ p ∈ tr, keeps d p = true)
    (htravels : ∀ x ∈ tr.flatMap Pipeline.published, x.Travels d.env d.metric)
    (hlater : Ingest.Later (tr.flatMap Pipeline.published)) :
    ∃ done new again, Carried d left tr s done new again := by
  induction h with
  | nil => exact ⟨[], [], none, .start d left⟩
  | @snoc tr s s' e _ hs ih =>
      rw [List.forall_mem_append, List.forall_mem_singleton] at hkeeps
      have hbefore : tr.flatMap Pipeline.published <+:
          (tr ++ [(s, e)]).flatMap Pipeline.published := by
        rw [List.flatMap_append]
        exact List.prefix_append _ _
      obtain ⟨done, new, again, h⟩ := ih hkeeps.1 (fun x hx => htravels x (hbefore.subset hx))
        (hlater.sublist hbefore.sublist)
      exact h.step hfits hs hkeeps.2 htravels hlater

/-- Nothing is on its way any more. -/
def Settled (s : Pipeline) : Prop := s.node.ahead = [] ∧ s.tasks.Quiet

instance (s : Pipeline) : Decidable s.Settled := inferInstanceAs (Decidable (_ ∧ _))

end

/-! ## Two sessions -/

def cpuDeployment : Deployment where
  metric := metricList.head (List.cons_ne_nil _ _)
  settings := {}
  once := by decide
  upper := String.toUpper
  server_name := "plant"
  client := ⟨"user", "secret", true⟩
  server := NodeSubscription.serverWithout []
  floatOf _ := none
  env := Tasks.cpuTexts

/-- A sample whose write fails while the session ends, and one that is
published after the next session has begun with the first again. -/
def twoSessions : List Event :=
  let now : Utc := ⟨Tasks.early⟩
  [.connect, .subscribe now, .send, .notify now, .publish [Tasks.cpuAt Tasks.early], .sample,
    .send, .notify now, .task .flush, .disconnect, .task .writeRaises, .task .flushResumes,
    .connect, .subscribe now, .publish [Tasks.cpuAt Tasks.late], .sample, .send, .notify now,
    .notify now, .task .flush, .task .writeReturns, .task .flushResumes]

theorem execute_twoSessions :
    (execute (step cpuDeployment) (start (.good (.str ""))) twoSessions).isSome = true := by
  decide

end Pipeline

end KepServerLogger.System
