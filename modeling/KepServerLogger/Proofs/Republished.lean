import KepServerLogger.Proofs.Pipeline

/-!
# The table of a metric that may be sent twice

A metric whose table has a primary key stores what it is sent, as often as it
is sent. Its samples may come in any order and one may be like another: a
value that the node has already is no change and is not sent, a value that a
session begins with is sent again, and neither makes a difference to a table
that keeps the first row of each key.

What is followed through a run is therefore not the list of what was sent but
the first row that it has for each key. The rows that the ingestor measures
itself and puts into the same table do not matter to the published ones where
the two have no key in common.
-/

namespace KepServerLogger

open KepServerLogger.Py KepServerLogger.Lib KepServerLogger.Ingestor

namespace Ingestor.Tasks

end Ingestor.Tasks

namespace System.Pipeline

variable {d : Deployment} {left : DataValue} {s s' : Pipeline} {e : Event}
  {tr : List (Pipeline × Event)} {columns : List String}

/-! ## What is offered -/

/-- The rows of the values, as the table is offered them. -/
def offered (d : Deployment) (values : List DataValue) : List Row :=
  values.flatMap (valueRows d.env d.metric)

theorem offered_append (d : Deployment) (values values' : List DataValue) :
    offered d (values ++ values') = offered d values ++ offered d values' := List.flatMap_append

/-- The first row of each key that some rows have. -/
def firstRow (columns : List String) (rows : List Row) (k : List (Option PyValue)) : Option Row :=
  rows.find? (rowKey columns · = k)

theorem firstRow_append (rows rows' : List Row) (k : List (Option PyValue)) :
    firstRow columns (rows ++ rows') k = (firstRow columns rows k).or (firstRow columns rows' k) :=
  List.find?_append

/-- A row that is there already is not the first of its key. -/
theorem firstRow_append_of_subset {rows rows' : List Row} (h : rows' ⊆ rows)
    (k : List (Option PyValue)) : firstRow columns (rows ++ rows') k = firstRow columns rows k := by
  rw [firstRow_append]
  cases hfirst : firstRow columns rows k with
  | some row => rfl
  | none =>
      rw [Option.none_or]
      refine List.find?_eq_none.mpr fun row hrow => ?_
      exact List.find?_eq_none.mp hfirst row (h hrow)

/-- The values that a step hands to `on_metric`. -/
def received (d : Deployment) (p : Pipeline × Event) : List DataValue :=
  (taskEvent d p).elim [] fun e => Tasks.delivered d.metric.name (p.1.tasks, e)

/-- What the ingestor has been sent, and behind it what it will be sent. -/
def reaching (d : Deployment) (tr : List (Pipeline × Event)) (s : Pipeline) : List DataValue :=
  tr.flatMap (received d) ++ s.node.ahead

/-- The values that the extractor has written. -/
def writtenValues (tr : List (Pipeline × Event)) : List DataValue :=
  (tr.flatMap published).map Sample.value

/-- What a session has to do with the node. -/
def Linked (d : Deployment) (s : Pipeline) : Prop :=
  match s.session with
  | .subscribed subscription =>
      ∀ text, d.nodeText = .ok text → subscription.keys.get? text = some d.metric.name
  | _ => s.node.item = none

theorem Linked.keep (h : Linked d s) (hsession : s'.session = s.session)
    (hitem : s.node.item = none → s'.node.item = none) : Linked d s' := by
  unfold Linked at h ⊢
  rw [hsession]
  cases hs : s.session with
  | subscribed subscription =>
      rw [hs] at h
      exact h
  | closed | opened =>
      rw [hs] at h
      exact hitem h

/-- Where the rows of the values that reach the ingestor stand to those of the
values that were written. -/
structure Offers (d : Deployment) (left : DataValue) (columns : List String)
    (tr : List (Pipeline × Event)) (s : Pipeline) : Prop where
  first : ∀ k, firstRow columns (offered d (reaching d tr s)) k =
    firstRow columns (offered d (writtenValues tr)) k
  known : ∀ value ∈ reaching d tr s, value = left ∨ value ∈ writtenValues tr
  /-- What the node has is nothing new. -/
  value : s.node.value = left ∨ s.node.value ∈ reaching d tr s
  synced : s.node.Synced
  linked : Linked d s

/-- Nothing goes lost, as in a run that keeps what is published; a session may
begin while values of the last one are queued. -/
def offers (d : Deployment) : Pipeline × Event → Bool
  | (_, .connect) => true
  | p => keeps d p

theorem offered_subset {values : List DataValue} {value : DataValue}
    (hleft : valueRows d.env d.metric left = []) (h : value = left ∨ value ∈ values) :
    offered d [value] ⊆ offered d values := by
  unfold offered
  rw [List.flatMap_singleton]
  intro row hrow
  rcases h with rfl | h
  · rw [hleft] at hrow
    cases hrow
  · exact List.mem_flatMap.mpr ⟨value, h, hrow⟩

/-- Offering a value that is known changes nothing. -/
theorem firstRow_offered_again {values : List DataValue} {value : DataValue}
    (hleft : valueRows d.env d.metric left = []) (h : value = left ∨ value ∈ values)
    (k : List (Option PyValue)) :
    firstRow columns (offered d (values ++ [value])) k = firstRow columns (offered d values) k := by
  rw [offered_append]
  exact firstRow_append_of_subset (offered_subset hleft h) k

theorem Offers.start (d : Deployment) (left : DataValue) (columns : List String) :
    Offers d left columns [] (start left) where
  first _ := rfl
  known value hvalue := absurd hvalue List.not_mem_nil
  value := .inl rfl
  synced := by rintro item ⟨⟩
  linked := rfl

/-- A step that writes nothing and adds nothing to what reaches the ingestor. -/
theorem Offers.quiet (h : Offers d left columns tr s) (hwritten : published (s, e) = [])
    (hreaching : reaching d (tr ++ [(s, e)]) s' = reaching d tr s)
    (hvalue : s'.node.value = s.node.value) (hsynced : s'.node.Synced) (hlinked : Linked d s') :
    Offers d left columns (tr ++ [(s, e)]) s' := by
  have hsame : writtenValues (tr ++ [(s, e)]) = writtenValues tr := by
    rw [writtenValues, List.flatMap_append, List.flatMap_singleton, hwritten, List.append_nil]
    rfl
  exact ⟨by rw [hreaching, hsame]; exact h.first, by rw [hreaching, hsame]; exact h.known,
    by rw [hreaching, hvalue]; exact h.value, hsynced, hlinked⟩

theorem reaching_snoc (hreceived : received d (s, e) = []) (hahead : s'.node.ahead = s.node.ahead) :
    reaching d (tr ++ [(s, e)]) s' = reaching d tr s := by
  rw [reaching, List.flatMap_append, List.flatMap_singleton, hreceived, List.append_nil, hahead]
  rfl

/-- A sample is written to a node whose value was told. -/
theorem Offers.publish (hleft : valueRows d.env d.metric left = []) {m : OPCUAModel}
    {ms : List OPCUAModel} (h : Offers d left columns tr s) (htold : s.node.told = true) :
    Offers d left columns (tr ++ [(s, .publish (m :: ms))])
      { s with node := s.node.write (Sample.value ⟨m, ms⟩) } := by
  set value := Sample.value ⟨m, ms⟩ with hvalue
  have hwritten : writtenValues (tr ++ [(s, .publish (m :: ms))]) = writtenValues tr ++ [value] := by
    rw [writtenValues, List.flatMap_append, List.map_append]
    rfl
  have hreaching : reaching d (tr ++ [(s, .publish (m :: ms))])
      { s with node := s.node.write value } =
        reaching d tr s ++ (if value = s.node.value then [] else [value]) := by
    rw [reaching, List.flatMap_append, List.flatMap_singleton,
      show received d (s, .publish (m :: ms)) = [] from rfl, List.append_nil,
      MonitoredNode.ahead_write htold, ← List.append_assoc]
    rfl
  have hlinked : Linked d { s with node := s.node.write value } := h.linked.keep rfl id
  by_cases hsame : value = s.node.value
  · -- No change of the node, and nothing new to the table.
    rw [if_pos hsame, List.append_nil] at hreaching
    have hknown : value = left ∨ value ∈ writtenValues tr := by
      rcases h.value with hnode | hnode
      · exact .inl (hsame.trans hnode)
      · exact h.known value (hsame ▸ hnode)
    refine ⟨fun k => ?_, fun v hv => ?_, ?_, h.synced.write htold _, hlinked⟩
    · rw [hreaching, hwritten, h.first, firstRow_offered_again hleft hknown]
    · rw [hreaching] at hv
      rw [hwritten]
      exact (h.known v hv).imp_right (List.mem_append_left _)
    · rw [hreaching]
      show value = left ∨ value ∈ reaching d tr s
      rw [hsame]
      exact h.value
  · rw [if_neg hsame] at hreaching
    refine ⟨fun k => ?_, fun v hv => ?_, .inr ?_, h.synced.write htold _, hlinked⟩
    · rw [hreaching, hwritten, offered_append, offered_append, firstRow_append, firstRow_append,
        h.first]
    · rw [hreaching] at hv
      rw [hwritten]
      rcases List.mem_append.mp hv with hv | hv
      · exact (h.known v hv).imp_right (List.mem_append_left _)
      · exact .inr (List.mem_append_right _ hv)
    · rw [hreaching]
      exact List.mem_append_right _ List.mem_cons_self

/-- The node is subscribed to, and may send again what it has. -/
theorem Offers.subscribe (hleft : valueRows d.env d.metric left = []) {now : Utc}
    {subscription : NodeSubscription} {log : Subscribing} (h : Offers d left columns tr s)
    (hopened : s.session = .opened)
    (hstart : d.subscription.start d.server now = (subscription, log, .ok ())) :
    Offers d left columns (tr ++ [(s, .subscribe now)])
      { s with node := s.node.subscribe, session := .subscribed subscription } := by
  have hitem : s.node.item = none := by
    have hlinked := h.linked
    unfold Linked at hlinked
    rw [hopened] at hlinked
    exact hlinked
  have hlinked : Linked d { s with node := s.node.subscribe, session := .subscribed subscription } :=
    fun text htext => Deployment.keys_of_start hstart htext
  have hahead := MonitoredNode.ahead_subscribe hitem
  by_cases htold : s.node.told = true
  · have hnone : s.node.ahead = [] := by
      rw [MonitoredNode.ahead, MonitoredNode.due, hitem, MonitoredNode.untold, if_pos htold]
      rfl
    rw [if_pos htold, hnone, List.append_nil] at hahead
    have hbefore : reaching d tr s = tr.flatMap (received d) := by
      rw [reaching, hnone, List.append_nil]
    have hreaching : reaching d (tr ++ [(s, .subscribe now)])
        { s with node := s.node.subscribe, session := .subscribed subscription } =
          reaching d tr s ++ [s.node.value] := by
      rw [hbefore, reaching, List.flatMap_append, List.flatMap_singleton,
        show received d (s, .subscribe now) = [] from rfl, List.append_nil]
      exact congrArg _ hahead
    have hwritten : writtenValues (tr ++ [(s, .subscribe now)]) = writtenValues tr := by
      rw [writtenValues, List.flatMap_append]
      exact congrArg _ (List.append_nil _)
    refine ⟨fun k => ?_, fun v hv => ?_, .inr ?_, .subscribe _, hlinked⟩
    · rw [hreaching, hwritten, firstRow_offered_again hleft h.value, h.first]
    · rw [hreaching] at hv
      rw [hwritten]
      rcases List.mem_append.mp hv with hv | hv
      · exact h.known v hv
      · rw [List.mem_singleton.mp hv]
        exact h.value.elim .inl (h.known _)
    · rw [hreaching]
      exact List.mem_append_right _ List.mem_cons_self
  · rw [if_neg htold, List.nil_append] at hahead
    exact h.quiet rfl (reaching_snoc rfl hahead) rfl (.subscribe _) hlinked

/-- What goes on elsewhere in the ingestor delivers nothing of the metric. -/
theorem received_elsewhere {e : Tasks.Event} (h : elsewhere d e = true) :
    received d (s, .task e) = [] := by
  cases e with
  | onMetric name dataValue receivedAt =>
      have hname : name ≠ d.metric.name := by simpa [elsewhere] using h
      exact if_neg hname
  | onTag | addModel | newSession | flush | writeReturns | writeRaises | flushResumes
  | cancelFlush | orphanReturns | orphanRaises => rfl

/-- One step in which nothing goes lost. -/
theorem Offers.step (hleft : valueRows d.env d.metric left = []) (h : Offers d left columns tr s)
    (hs : Pipeline.step d s e = some s') (hoffers : offers d (s, e) = true) :
    Offers d left columns (tr ++ [(s, e)]) s' := by
  have hlinked := h.linked
  cases step_cases hs with
  | publishNothing => exact h.quiet rfl (reaching_snoc rfl rfl) rfl h.synced hlinked
  | publish m ms =>
      have htold : s.node.told = true := by simpa [offers, keeps] using hoffers
      exact h.publish hleft htold
  | connect hclosed =>
      unfold Linked at hlinked
      rw [hclosed] at hlinked
      exact h.quiet rfl (reaching_snoc rfl rfl) rfl h.synced hlinked
  | subscribe hopened hstart => exact h.subscribe hleft hopened hstart
  | sample =>
      have hroom : s.node.queue.length < d.subscription.config.queue_size.toNat := by
        simpa [offers, keeps] using hoffers
      refine h.quiet rfl (reaching_snoc rfl (MonitoredNode.ahead_sample h.synced hroom))
        (MonitoredNode.value_sample _ _) (h.synced.sample _) (hlinked.keep rfl fun hitem => ?_)
      rw [MonitoredNode.sample_of_item_none hitem]
      exact hitem
  | send =>
      refine h.quiet rfl (reaching_snoc rfl ?_) rfl h.synced.send
        (hlinked.keep rfl fun hitem => ?_)
      · show s.node.send.due ++ s.node.untold = _
        rw [MonitoredNode.due_send]
        rfl
      · show s.node.item.map _ = none
        rw [hitem]
        rfl
  | @notify now _ _ value node _ key hsession hreceive htext hkey hkeys =>
      unfold Linked at hlinked
      rw [hsession] at hlinked
      obtain rfl : d.metric.name = key := Option.some.inj ((hlinked _ htext).symm.trans hkey)
      obtain ⟨hahead, hvalue, hsynced⟩ := MonitoredNode.receive?_spec hreceive
      have hreceived : received d (s, .notify now) = [value] := by
        simp only [received, taskEvent, hsession, hreceive, htext,
          NodeSubscription.datachangeNotification, hkey, Option.map_some, Option.elim,
          Tasks.delivered, if_true]
      refine h.quiet rfl ?_ hvalue (hsynced h.synced) fun text htext => ?_
      · rw [reaching, List.flatMap_append, List.flatMap_singleton, hreceived, List.append_assoc,
          reaching, hahead]
        rfl
      · rw [hkeys]
        exact hlinked text htext
  | unknown hsession hreceive htext hkey =>
      unfold Linked at hlinked
      rw [hsession] at hlinked
      rw [hlinked _ htext] at hkey
      cases hkey
  | disconnect hopen =>
      have hdue : s.node.due = [] := by simpa [offers, keeps] using hoffers
      exact h.quiet rfl (reaching_snoc rfl (MonitoredNode.ahead_unsubscribe hdue)) rfl
        (.unsubscribe _) rfl
  | task helse htasks =>
      exact h.quiet rfl (reaching_snoc (received_elsewhere helse) rfl) rfl h.synced hlinked

theorem Run.offers (hleft : valueRows d.env d.metric left = [])
    (h : Run (Pipeline.step d) (start left) tr s) (hoffers : ∀ p ∈ tr, offers d p = true) :
    Offers d left columns tr s := by
  induction h with
  | nil => exact .start d left columns
  | snoc _ hs ih =>
      rw [List.forall_mem_append, List.forall_mem_singleton] at hoffers
      exact (ih hoffers.1).step hleft hs hoffers.2

/-! ## What the table holds -/

/-- The rows that the ingestor measures for the table itself. -/
def measured (d : Deployment) (p : Pipeline × Event) : List Row :=
  (taskEvent d p).elim [] fun e => Tasks.added d.metric.table_name (p.1.tasks, e)

end System.Pipeline

end KepServerLogger
