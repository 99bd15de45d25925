import KepServerLogger.Proofs.Dedup

/-!
# Reconnecting and storing twice

A new session delivers the node's current sample first, which may be the last
one of the session before. The flag that `new_session` raises for the metric
is meant for that delivery, but it is spent on the first value of the metric
that is decoded, and the queue is decoded in the order of arrival: a value of
the old session that is still queued is decoded first. If it is the very
sample that the new session resends, both copies are stored.

That is the only way. Samples arrive in the order they are published, a
repeated one only as the first of a session, so two copies are never apart:
either they are queued together, which is the case above, or the first has
left the queue before the session begins. Then the flag is still up when the
second is decoded, and what the metric remembers is no earlier than its
timestamp.
-/

namespace KepServerLogger.Ingestor.Tasks

open KepServerLogger.Py KepServerLogger.Lib

/-! ## What a node delivers -/

/-- The events that the delivery of one metric is about. -/
def Event.concerns (name : String) : Event → Bool
  | .newSession _ => true
  | .onMetric name' _ _ => name' = name
  | _ => false

/-- The last sample that was delivered, and whether the session still owes
its first. -/
structure Delivery where
  last : Option Nat
  owed : Bool

/-- A session delivers the sample that is current when it begins, which is
none older than the last one delivered, and then each later one in turn. -/
inductive Delivers (env : Externals) (name : String) (metric : Metric)
    (published : List Sample) : Delivery → Event → Delivery → Prop
  | session (last : Option Nat) (owed : Bool) {metrics : List String} (h : name ∈ metrics) :
      Delivers env name metric published ⟨last, owed⟩ (.newSession metrics) ⟨last, true⟩
  | first {last : Option Nat} {i : Nat} {dataValue : DataValue} {receivedAt : Datetime}
      {x : Sample} (hx : published[i]? = some x)
      (h : Item.sample? env ⟨.metric, name, dataValue, receivedAt⟩ = some (metric, x))
      (hlast : ∀ j, last = some j → j ≤ i) :
      Delivers env name metric published ⟨last, true⟩ (.onMetric name dataValue receivedAt)
        ⟨some i, false⟩
  | next {i : Nat} {dataValue : DataValue} {receivedAt : Datetime} {x : Sample}
      (hx : published[i + 1]? = some x)
      (h : Item.sample? env ⟨.metric, name, dataValue, receivedAt⟩ = some (metric, x)) :
      Delivers env name metric published ⟨some i, false⟩
        (.onMetric name dataValue receivedAt) ⟨some (i + 1), false⟩
  | other (d : Delivery) {e : Event} (h : e.concerns name = false) :
      Delivers env name metric published d e d

inductive Delivered (env : Externals) (name : String) (metric : Metric)
    (published : List Sample) : List Event → Delivery → Prop
  | nil : Delivered env name metric published [] ⟨none, false⟩
  | snoc {es : List Event} {e : Event} {d d' : Delivery} :
      Delivered env name metric published es d → Delivers env name metric published d e d' →
      Delivered env name metric published (es ++ [e]) d'

/-- What a new session delivers first is not still queued when it begins. -/
def FirstNotQueued (env : Externals) (name : String) (tr : List (Tasks × Event)) : Prop :=
  ∀ pre s₁ metrics mid s₂ dataValue receivedAt post,
    tr = pre ++ (s₁, .newSession metrics) ::
      (mid ++ (s₂, .onMetric name dataValue receivedAt) :: post) →
    (∀ p ∈ mid, p.2.concerns name = false) →
    ∀ item ∈ s₁.ingest.queue.items, item.key = name →
      item.sample? env ≠ none →
      item.sample? env ≠ Item.sample? env ⟨.metric, name, dataValue, receivedAt⟩

section

variable {env : Externals} {name : String} {metric : Metric} {published : List Sample}

/-- The item carries the `i`-th published sample. -/
def IsSample (env : Externals) (name : String) (metric : Metric) (published : List Sample)
    (i : Nat) (item : Item) : Prop :=
  item.key = name ∧ ∃ x, published[i]? = some x ∧ item.sample? env = some (metric, x)

theorem IsSample.unique (hnewer : published.Pairwise fun x y => x.newest < y.newest) {i j : Nat}
    {item : Item} (hi : IsSample env name metric published i item)
    (hj : IsSample env name metric published j item) : i = j := by
  obtain ⟨_, x, hx, hsx⟩ := hi
  obtain ⟨_, y, hy, hsy⟩ := hj
  rw [hsx] at hsy
  cases hsy
  obtain ⟨hilt, hxi⟩ := List.getElem?_eq_some_iff.mp hx
  obtain ⟨hjlt, hxj⟩ := List.getElem?_eq_some_iff.mp hy
  have hlt := List.pairwise_iff_getElem.mp hnewer
  rcases Nat.lt_trichotomy i j with h | h | h
  · exact absurd (hlt i j hilt hjlt h) (by rw [hxi, hxj]; exact lt_irrefl _)
  · exact h
  · exact absurd (hlt j i hjlt hilt h) (by rw [hxi, hxj]; exact lt_irrefl _)

/-! ## Decoding the queue -/

/-- The queued samples are in order, none is older than a stored one, and one
that is stored already meets the flag. -/
structure Orderly (env : Externals) (name : String) (metric : Metric)
    (published : List Sample) (calls : List (Ingest × Item)) (items : List Item)
    (flagged : Prop) : Prop where
  known : ∀ item ∈ items, item.kind = .metric → item.key = name →
    ∃ i, IsSample env name metric published i item
  sorted : items.Pairwise fun a b => ∀ i j, IsSample env name metric published i a →
    IsSample env name metric published j b → i < j
  ahead : ∀ c ∈ calls, ∀ i, IsSample env name metric published i c.2 →
    Ingest.storedRows env c ≠ [] → ∀ item ∈ items, ∀ k,
      IsSample env name metric published k item → i ≤ k ∧ (i = k → flagged)
  once : calls.Pairwise fun c c' => ∀ i, IsSample env name metric published i c.2 →
    IsSample env name metric published i c'.2 → Ingest.storedRows env c ≠ [] →
      Ingest.storedRows env c' = []

variable {calls : List (Ingest × Item)} {items rest : List Item} {item : Item} {s : Ingest}
  {flagged flagged' : Prop}

theorem Orderly.tail (h : Orderly env name metric published calls items flagged) :
    Orderly env name metric published calls items.tail flagged where
  known item hi := h.known item (List.mem_of_mem_tail hi)
  sorted := h.sorted.tail
  ahead c hc i hi hst item hmem := h.ahead c hc i hi hst item (List.mem_of_mem_tail hmem)
  once := h.once

theorem Orderly.raise (h : Orderly env name metric published calls items flagged)
    (hflag : flagged') : Orderly env name metric published calls items flagged' where
  known := h.known
  sorted := h.sorted
  ahead c hc i hi hst item hmem k hk := ⟨(h.ahead c hc i hi hst item hmem k hk).1, fun _ => hflag⟩
  once := h.once

/-- A new item at the back of the queue. -/
theorem Orderly.push (h : Orderly env name metric published calls items flagged)
    (hknown : item.kind = .metric → item.key = name →
      ∃ i, IsSample env name metric published i item)
    (hback : ∀ a ∈ items, ∀ i j, IsSample env name metric published i a →
      IsSample env name metric published j item → i < j)
    (hahead : ∀ c ∈ calls, ∀ i, IsSample env name metric published i c.2 →
      Ingest.storedRows env c ≠ [] → ∀ k, IsSample env name metric published k item →
        i ≤ k ∧ (i = k → flagged)) :
    Orderly env name metric published calls (items ++ [item]) flagged := by
  refine ⟨?_, ?_, ?_, h.once⟩
  · intro a ha
    rcases List.mem_append.mp ha with ha | ha
    · exact h.known a ha
    · rw [List.mem_singleton.mp ha]
      exact hknown
  · rw [List.pairwise_append]
    refine ⟨h.sorted, List.pairwise_singleton _ _, fun a ha b hb => ?_⟩
    rw [List.mem_singleton.mp hb]
    exact hback a ha
  · intro c hc i hi hst a ha
    rcases List.mem_append.mp ha with ha | ha
    · exact h.ahead c hc i hi hst a ha
    · rw [List.mem_singleton.mp ha]
      exact hahead c hc i hi hst

/-- Decoding anything but a sample of the metric leaves its flag alone. -/
theorem mem_awaitingFirst_decodeNext
    (h : item.key = name → item.sample? env = none) :
    name ∈ (s.decodeNext env item).awaitingFirst ↔ name ∈ s.awaitingFirst := by
  cases hx : item.sample? env with
  | none => rw [(Ingest.decodeNext_of_no_sample hx).1]
  | some y =>
      have hne : name ≠ item.key := by
        rintro rfl
        rw [h rfl] at hx
        cases hx
      rw [Ingest.decodeNext_of_sample hx]
      split <;> exact ⟨fun hm => (Finset.mem_erase.mp hm).2, fun hm => Finset.mem_erase.mpr ⟨hne, hm⟩⟩

/-- One turn of the loop. -/
theorem Orderly.decodeNext (hidem : metric.idempotent = false)
    (hrem : Ingest.Remembers env calls s)
    (h : Orderly env name metric published calls (item :: rest) (name ∈ s.awaitingFirst)) :
    Orderly env name metric published (calls ++ [(s, item)]) rest
      (name ∈ (s.decodeNext env item).awaitingFirst) := by
  have hsorted := List.pairwise_cons.mp h.sorted
  refine ⟨fun a ha => h.known a (List.mem_cons_of_mem _ ha), hsorted.2, ?_, ?_⟩
  · intro c hc i hi hst a ha k hk
    rcases List.mem_append.mp hc with hc | hc
    · obtain ⟨hle, hflag⟩ := h.ahead c hc i hi hst a (List.mem_cons_of_mem _ ha) k hk
      refine ⟨hle, fun heq => (mem_awaitingFirst_decodeNext fun hkey => ?_).mpr (hflag heq)⟩
      -- A sample that is decoded in between would be strictly in between.
      by_contra hsome
      obtain ⟨y, hy⟩ := Option.ne_none_iff_exists'.mp hsome
      obtain ⟨j, hj⟩ := h.known item List.mem_cons_self (Ingest.get?_of_sample? hy).1 hkey
      have hij := (h.ahead c hc i hi hst item List.mem_cons_self j hj).1
      have hjk := hsorted.1 a ha j k hj hk
      omega
    · rw [List.mem_singleton.mp hc] at hi
      have hlt := hsorted.1 a ha i k hi hk
      exact ⟨hlt.le, fun heq => absurd heq hlt.ne⟩
  · rw [List.pairwise_append]
    refine ⟨h.once, List.pairwise_singleton _ _, fun c hc c' hc' => ?_⟩
    rw [List.mem_singleton.mp hc']
    intro i hi hi' hst
    have hflag := (h.ahead c hc i hi hst item List.mem_cons_self i hi').2 rfl
    obtain ⟨hkey, x, hx, hsx⟩ := hi'
    obtain ⟨hkey', y, hy, hsy⟩ := hi
    rw [hx] at hy
    cases hy
    rw [Ingest.storedRows_of_sample hsx, if_pos]
    rw [alreadyStored_iff hrem, hkey]
    exact ⟨hflag, hidem, c, hc, hkey', _, hsy, le_refl _⟩

theorem Orderly.decodeItems (hidem : metric.idempotent = false)
    (hrem : Ingest.Remembers env calls s)
    (h : Orderly env name metric published calls items (name ∈ s.awaitingFirst)) :
    Orderly env name metric published (calls ++ s.decodeCalls env items) []
      (name ∈ (Ingest.decodeItems env s items).1.awaitingFirst) := by
  induction items generalizing calls s with
  | nil => simpa [Ingest.decodeCalls, Ingest.decodeItems] using h
  | cons item rest ih =>
      have hrest := ih (hrem.decodeNext item) (h.decodeNext hidem hrem)
      rw [Ingest.decodeItems_cons]
      simpa [Ingest.decodeCalls] using hrest

theorem mem_awaitingFirst_decodeItems (items : List Item)
    (h : ∀ item ∈ items, item.key = name → item.sample? env = none) (s : Ingest) :
    name ∈ (Ingest.decodeItems env s items).1.awaitingFirst ↔ name ∈ s.awaitingFirst := by
  induction items generalizing s with
  | nil => exact Iff.rfl
  | cons item rest ih =>
      rw [Ingest.decodeItems_cons, ih (fun a ha => h a (List.mem_cons_of_mem _ ha)),
        mem_awaitingFirst_decodeNext (h item List.mem_cons_self)]

theorem mem_decodeCalls {c : Ingest × Item} (h : c ∈ s.decodeCalls env items) : c.2 ∈ items := by
  induction items generalizing s with
  | nil => exact absurd h List.not_mem_nil
  | cons item rest ih =>
      rcases List.mem_cons.mp h with rfl | h
      · exact List.mem_cons_self
      · exact List.mem_cons_of_mem _ (ih h)

/-! ## The queue between two flushes -/

/-- The queued samples reach up to the last one delivered, which is the last
to leave. -/
structure UpToLast (env : Externals) (name : String) (metric : Metric)
    (published : List Sample) (items : List Item) (last : Option Nat) : Prop where
  bounded : ∀ item ∈ items, ∀ k, IsSample env name metric published k item →
    ∃ j, last = some j ∧ k ≤ j
  present : ∀ item ∈ items, ∀ k, IsSample env name metric published k item →
    ∃ a ∈ items, ∃ j, last = some j ∧ IsSample env name metric published j a

variable {last : Option Nat}

theorem UpToLast.tail (h : UpToLast env name metric published items last)
    (hsorted : items.Pairwise fun a b => ∀ i j, IsSample env name metric published i a →
      IsSample env name metric published j b → i < j) :
    UpToLast env name metric published items.tail last := by
  refine ⟨fun item hi => h.bounded item (List.mem_of_mem_tail hi), fun item hi k hk => ?_⟩
  obtain ⟨a, ha, j, hj, haj⟩ := h.present item (List.mem_of_mem_tail hi) k hk
  cases items with
  | nil => exact absurd hi List.not_mem_nil
  | cons x rest =>
      rcases List.mem_cons.mp ha with rfl | ha
      · obtain ⟨j', hj', hle⟩ := h.bounded item (List.mem_cons_of_mem _ hi) k hk
        have hlt := (List.pairwise_cons.mp hsorted).1 item hi j k haj hk
        rw [hj] at hj'
        cases hj'
        omega
      · exact ⟨a, ha, j, hj, haj⟩

/-- An item of something else at the back of the queue. -/
theorem UpToLast.push_other (h : UpToLast env name metric published items last)
    (hother : ∀ i, ¬ IsSample env name metric published i item) :
    UpToLast env name metric published (items ++ [item]) last := by
  refine ⟨fun a ha k hk => ?_, fun a ha k hk => ?_⟩
  · rcases List.mem_append.mp ha with ha | ha
    · exact h.bounded a ha k hk
    · rw [List.mem_singleton.mp ha] at hk
      exact absurd hk (hother k)
  · rcases List.mem_append.mp ha with ha | ha
    · obtain ⟨b, hb, hj⟩ := h.present a ha k hk
      exact ⟨b, List.mem_append_left _ hb, hj⟩
    · rw [List.mem_singleton.mp ha] at hk
      exact absurd hk (hother k)

/-- A put finds the queue as it was or without its oldest item. -/
theorem put_items (s : Ingest) (item : Item) :
    ∃ items, (items = s.queue.items ∨ items = s.queue.items.tail) ∧
      (s.put item).queue.items = items ++ [item] := by
  by_cases hfull : s.queue.full
  · exact ⟨_, Or.inr rfl, (Ingest.put_of_full item hfull).1⟩
  · exact ⟨_, Or.inl rfl, (Ingest.put_of_not_full item hfull).1⟩

/-! ## A run -/

structure Reconnected (env : Externals) (name : String) (metric : Metric)
    (published : List Sample) (tr : List (Tasks × Event)) (s : Tasks) (d : Delivery) :
    Prop where
  orderly : Orderly env name metric published (tr.flatMap (Tasks.calls env))
    s.ingest.queue.items (name ∈ s.ingest.awaitingFirst)
  upToLast : UpToLast env name metric published s.ingest.queue.items d.last
  stored : ∀ c ∈ tr.flatMap (Tasks.calls env), ∀ k,
    IsSample env name metric published k c.2 → ∃ j, d.last = some j ∧ k ≤ j
  /-- A session that owes its first value found the last sample queued, or it
  meets no sample before its own and the flag is up. -/
  owed : d.owed = true → ∃ pre s₁ metrics mid,
    tr = pre ++ (s₁, .newSession metrics) :: mid ∧
      (∀ p ∈ mid, p.2.concerns name = false) ∧
      ((∃ a ∈ s₁.ingest.queue.items, ∃ j, d.last = some j ∧
          IsSample env name metric published j a) ∨
        ((∀ a ∈ s.ingest.queue.items, ∀ k, ¬ IsSample env name metric published k a) ∧
          name ∈ s.ingest.awaitingFirst))

namespace Reconnected

variable {tr : List (Tasks × Event)} {t t' : Tasks} {d : Delivery} {e : Event}

/-- What a put changes: the queue, by one item at its back. -/
theorem put_view (h : Reconnected env name metric published tr t d) (item : Item) :
    ∃ items, (t.ingest.put item).queue.items = items ++ [item] ∧
      Orderly env name metric published (tr.flatMap (Tasks.calls env)) items
        (name ∈ t.ingest.awaitingFirst) ∧
      UpToLast env name metric published items d.last ∧
      ∀ a ∈ items, a ∈ t.ingest.queue.items := by
  obtain ⟨items, hitems, hput⟩ := put_items t.ingest item
  refine ⟨items, hput, ?_⟩
  rcases hitems with rfl | rfl
  · exact ⟨h.orderly, h.upToLast, fun _ ha => ha⟩
  · exact ⟨h.orderly.tail, h.upToLast.tail h.orderly.sorted, fun _ => List.mem_of_mem_tail⟩

/-- A new session raises the flag, with whatever is queued. -/
theorem session (h : Reconnected env name metric published tr t d) {metrics : List String}
    (hname : name ∈ metrics) :
    Reconnected env name metric published (tr ++ [(t, .newSession metrics)])
      { t with ingest := t.ingest.newSession metrics } ⟨d.last, true⟩ := by
  have hcalls : (tr ++ [(t, Event.newSession metrics)]).flatMap (Tasks.calls env) =
      tr.flatMap (Tasks.calls env) := by
    rw [List.flatMap_append, List.flatMap_singleton]
    exact List.append_nil _
  have hflag : name ∈ (t.ingest.newSession metrics).awaitingFirst := List.mem_toFinset.mpr hname
  refine ⟨?_, h.upToLast, ?_, fun _ => ⟨tr, t, metrics, [], rfl, ?_, ?_⟩⟩
  · rw [hcalls]
    exact h.orderly.raise hflag
  · rw [hcalls]
    exact h.stored
  · exact fun p hp => absurd hp List.not_mem_nil
  · by_cases hsome : ∃ a ∈ t.ingest.queue.items, ∃ k, IsSample env name metric published k a
    · obtain ⟨a, ha, k, hk⟩ := hsome
      exact Or.inl (h.upToLast.present a ha k hk)
    · exact Or.inr ⟨fun a ha k hk => hsome ⟨a, ha, k, hk⟩, hflag⟩

/-- A delivery that is newer than what is queued, and not older than what is
stored. -/
theorem deliver (h : Reconnected env name metric published tr t d)
    (hnewer : published.Pairwise fun x y => x.newest < y.newest) {i : Nat} {dataValue : DataValue}
    {receivedAt : Datetime}
    (hi : IsSample env name metric published i ⟨.metric, name, dataValue, receivedAt⟩)
    (hback : ∀ a ∈ t.ingest.queue.items, ∀ k, IsSample env name metric published k a → k < i)
    (hahead : ∀ c ∈ tr.flatMap (Tasks.calls env), ∀ k,
      IsSample env name metric published k c.2 →
        k ≤ i ∧ (k = i → name ∈ t.ingest.awaitingFirst)) :
    Reconnected env name metric published (tr ++ [(t, .onMetric name dataValue receivedAt)])
      { t with ingest := t.ingest.onMetric name dataValue receivedAt } ⟨some i, false⟩ := by
  have hcalls : (tr ++ [(t, Event.onMetric name dataValue receivedAt)]).flatMap
      (Tasks.calls env) = tr.flatMap (Tasks.calls env) := by
    rw [List.flatMap_append, List.flatMap_singleton]
    exact List.append_nil _
  obtain ⟨items, hput, horderly, _, hsub⟩ :=
    h.put_view ⟨.metric, name, dataValue, receivedAt⟩
  have hqueue : (t.ingest.onMetric name dataValue receivedAt).queue.items =
      items ++ [⟨.metric, name, dataValue, receivedAt⟩] := hput
  have hawait : (t.ingest.onMetric name dataValue receivedAt).awaitingFirst =
      t.ingest.awaitingFirst := (Ingest.put_frame _ _).2.2
  have hunique : ∀ k, IsSample env name metric published k
      ⟨.metric, name, dataValue, receivedAt⟩ → k = i := fun k hk => hk.unique hnewer hi
  refine ⟨?_, ?_, ?_, nofun⟩
  · rw [hcalls]
    show Orderly env name metric published _
      (t.ingest.onMetric name dataValue receivedAt).queue.items
      (name ∈ (t.ingest.onMetric name dataValue receivedAt).awaitingFirst)
    rw [hqueue, hawait]
    refine horderly.push (fun _ _ => ⟨i, hi⟩) ?_ ?_
    · intro a ha k j hk hj
      rw [hunique j hj]
      exact hback a (hsub a ha) k hk
    · intro c hc k hk _ j hj
      rw [hunique j hj]
      exact hahead c hc k hk
  · show UpToLast env name metric published
      (t.ingest.onMetric name dataValue receivedAt).queue.items (some i)
    rw [hqueue]
    refine ⟨fun a ha k hk => ⟨i, rfl, ?_⟩, fun _ _ _ _ => ⟨_, ?_, i, rfl, hi⟩⟩
    · rcases List.mem_append.mp ha with ha | ha
      · exact (hback a (hsub a ha) k hk).le
      · rw [List.mem_singleton.mp ha] at hk
        exact (hunique k hk).le
    · exact List.mem_append_right _ (List.mem_singleton_self _)
  · rw [hcalls]
    exact fun c hc k hk => ⟨i, rfl, (hahead c hc k hk).1⟩

/-- An event that does not concern the metric keeps the session's debt. -/
theorem keep_owed (h : Reconnected env name metric published tr t d)
    (he : e.concerns name = false)
    (hkeep : (∀ a ∈ t.ingest.queue.items, ∀ k, ¬ IsSample env name metric published k a) →
      name ∈ t.ingest.awaitingFirst →
      (∀ a ∈ t'.ingest.queue.items, ∀ k, ¬ IsSample env name metric published k a) ∧
        name ∈ t'.ingest.awaitingFirst) (howed : d.owed = true) :
    ∃ pre s₁ metrics mid, tr ++ [(t, e)] = pre ++ (s₁, .newSession metrics) :: mid ∧
      (∀ p ∈ mid, p.2.concerns name = false) ∧
      ((∃ a ∈ s₁.ingest.queue.items, ∃ j, d.last = some j ∧
          IsSample env name metric published j a) ∨
        ((∀ a ∈ t'.ingest.queue.items, ∀ k, ¬ IsSample env name metric published k a) ∧
          name ∈ t'.ingest.awaitingFirst)) := by
  obtain ⟨pre, s₁, metrics, mid, htr, hmid, hcase⟩ := h.owed howed
  refine ⟨pre, s₁, metrics, mid ++ [(t, e)], ?_, fun p hp => ?_, ?_⟩
  · rw [htr, List.append_assoc, List.cons_append]
  · rcases List.mem_append.mp hp with hp | hp
    · exact hmid p hp
    · rw [List.mem_singleton.mp hp]
      exact he
  · rcases hcase with hfound | ⟨hempty, hflag⟩
    · exact Or.inl hfound
    · exact Or.inr (hkeep hempty hflag)

/-- A callback of another metric, or of a tag. -/
theorem put_other (h : Reconnected env name metric published tr t d) {item : Item}
    (he : e.concerns name = false) (hcalls : Tasks.calls env (t, e) = [])
    (hkind : item.kind = .metric → item.key ≠ name)
    (hother : ∀ i, ¬ IsSample env name metric published i item) :
    Reconnected env name metric published (tr ++ [(t, e)])
      { t with ingest := t.ingest.put item } d := by
  have hflat : (tr ++ [(t, e)]).flatMap (Tasks.calls env) = tr.flatMap (Tasks.calls env) := by
    rw [List.flatMap_append, List.flatMap_singleton, hcalls, List.append_nil]
  obtain ⟨items, hput, horderly, hlast, hsub⟩ := h.put_view item
  have hawait : (t.ingest.put item).awaitingFirst = t.ingest.awaitingFirst :=
    (Ingest.put_frame _ _).2.2
  refine ⟨?_, ?_, ?_, h.keep_owed he fun hempty hflag => ⟨fun a ha k hk => ?_, ?_⟩⟩
  · rw [hflat]
    show Orderly env name metric published _ (t.ingest.put item).queue.items
      (name ∈ (t.ingest.put item).awaitingFirst)
    rw [hput, hawait]
    exact horderly.push (fun hk hkey => absurd hkey (hkind hk))
      (fun _ _ _ j _ hj => absurd hj (hother j)) (fun _ _ _ _ _ k hk => absurd hk (hother k))
  · show UpToLast env name metric published (t.ingest.put item).queue.items d.last
    rw [hput]
    exact hlast.push_other hother
  · rw [hflat]
    exact h.stored
  · have ha' : a ∈ items ++ [item] := hput ▸ ha
    rcases List.mem_append.mp ha' with ha' | ha'
    · exact hempty a (hsub a ha') k hk
    · rw [List.mem_singleton.mp ha'] at hk
      exact hother k hk
  · exact hawait ▸ hflag

/-- A step that leaves the queue and the flags alone and decodes nothing. -/
theorem quiet (h : Reconnected env name metric published tr t d)
    (he : e.concerns name = false) (hcalls : Tasks.calls env (t, e) = [])
    (hqueue : t'.ingest.queue = t.ingest.queue)
    (hawait : t'.ingest.awaitingFirst = t.ingest.awaitingFirst) :
    Reconnected env name metric published (tr ++ [(t, e)]) t' d := by
  have hflat : (tr ++ [(t, e)]).flatMap (Tasks.calls env) = tr.flatMap (Tasks.calls env) := by
    rw [List.flatMap_append, List.flatMap_singleton, hcalls, List.append_nil]
  refine ⟨?_, ?_, ?_, h.keep_owed he fun hempty hflag => ⟨?_, ?_⟩⟩
  · rw [hflat, hqueue, hawait]
    exact h.orderly
  · rw [hqueue]
    exact h.upToLast
  · rw [hflat]
    exact h.stored
  · rw [hqueue]
    exact hempty
  · rw [hawait]
    exact hflag

/-- A flush takes the queue empty. -/
theorem flush (h : Reconnected env name metric published tr t d)
    (hidem : metric.idempotent = false)
    (hrem : Ingest.Remembers env (tr.flatMap (Tasks.calls env)) t.ingest)
    (hqueue : t'.ingest.queue.items = [])
    (hawait : t'.ingest.awaitingFirst = (Ingest.decodeItems env
      { t.ingest with queue := ∅ } t.ingest.queue.items).1.awaitingFirst) :
    Reconnected env name metric published (tr ++ [(t, .flush)]) t' d := by
  have hflat : (tr ++ [(t, Event.flush)]).flatMap (Tasks.calls env) =
      tr.flatMap (Tasks.calls env) ++
        { t.ingest with queue := ∅ }.decodeCalls env t.ingest.queue.items := by
    rw [List.flatMap_append, List.flatMap_singleton]
    rfl
  refine ⟨?_, ?_, ?_, h.keep_owed rfl fun hempty hflag => ⟨?_, ?_⟩⟩
  · rw [hflat, hqueue, hawait]
    exact Orderly.decodeItems (s := { t.ingest with queue := ∅ }) hidem hrem h.orderly
  · rw [hqueue]
    exact ⟨fun _ ha => absurd ha List.not_mem_nil, fun _ ha => absurd ha List.not_mem_nil⟩
  · rw [hflat]
    intro c hc k hk
    rcases List.mem_append.mp hc with hc | hc
    · exact h.stored c hc k hk
    · exact h.upToLast.bounded c.2 (mem_decodeCalls hc) k hk
  · rw [hqueue]
    exact fun _ ha => absurd ha List.not_mem_nil
  · rw [hawait, mem_awaitingFirst_decodeItems]
    · exact hflag
    · intro item hi hkey
      by_contra hsome
      obtain ⟨y, hy⟩ := Option.ne_none_iff_exists'.mp hsome
      obtain ⟨k, hk⟩ := h.orderly.known item hi (Ingest.get?_of_sample? hy).1 hkey
      exact hempty item hi k hk

/-- One step, with what it delivers. -/
theorem step (h : Reconnected env name metric published tr t d)
    (hidem : metric.idempotent = false)
    (hnewer : published.Pairwise fun x y => x.newest < y.newest)
    (hrem : Ingest.Remembers env (tr.flatMap (Tasks.calls env)) t.ingest)
    (hclean : FirstNotQueued env name (tr ++ [(t, e)])) {d' : Delivery}
    (hdel : Delivers env name metric published d e d') (hs : Tasks.step env t e = some t') :
    Reconnected env name metric published (tr ++ [(t, e)]) t' d' := by
  cases hdel with
  | session last owed hname =>
      cases hs
      exact h.session hname
  | @first last i dataValue receivedAt x hx hsample hlast =>
      cases hs
      have hi : IsSample env name metric published i ⟨.metric, name, dataValue, receivedAt⟩ :=
        ⟨rfl, x, hx, hsample⟩
      obtain ⟨pre, s₁, metrics, mid, htr, hmid, hcase⟩ := h.owed rfl
      rcases hcase with ⟨a, ha, j, hj, hkey, y, hy, hsy⟩ | ⟨hempty, hflag⟩
      · -- The last sample was queued, so the session begins with a later one.
        have hne : j ≠ i := by
          rintro rfl
          refine hclean pre s₁ metrics mid t dataValue receivedAt [] ?_ hmid a ha hkey ?_ ?_
          · rw [htr, List.append_assoc, List.cons_append]
          · rw [hsy]
            exact nofun
          · rw [hx] at hy
            cases hy
            rw [hsy, hsample]
        have hji := hlast j hj
        refine h.deliver hnewer hi (fun b hb k hk => ?_) fun c hc k hk => ?_
        · obtain ⟨j', hj', hle⟩ := h.upToLast.bounded b hb k hk
          rw [hj] at hj'
          cases hj'
          omega
        · obtain ⟨j', hj', hle⟩ := h.stored c hc k hk
          rw [hj] at hj'
          cases hj'
          exact ⟨by omega, fun heq => absurd heq (by omega)⟩
      · refine h.deliver hnewer hi (fun b hb k hk => absurd hk (hempty b hb k))
          fun c hc k hk => ⟨?_, fun _ => hflag⟩
        obtain ⟨j, hj, hle⟩ := h.stored c hc k hk
        exact hle.trans (hlast j hj)
  | @next i dataValue receivedAt x hx hsample =>
      cases hs
      refine h.deliver hnewer ⟨rfl, x, hx, hsample⟩ (fun b hb k hk => ?_) fun c hc k hk => ?_
      · obtain ⟨j, hj, hle⟩ := h.upToLast.bounded b hb k hk
        cases hj
        omega
      · obtain ⟨j, hj, hle⟩ := h.stored c hc k hk
        cases hj
        exact ⟨by omega, fun heq => absurd heq (by omega)⟩
  | other d he =>
      cases step_cases hs with
      | onMetric name' dataValue receivedAt =>
          have hne : name' ≠ name := by simpa [Event.concerns] using he
          exact h.put_other he rfl (fun _ => hne) fun i hi => hne hi.1
      | onTag tag dataValue receivedAt =>
          refine h.put_other he rfl nofun fun i hi => ?_
          obtain ⟨_, x, _, hx⟩ := hi
          cases hx
      | newSession => cases he
      | flush hidle =>
          refine h.flush hidem hrem ?_ (flushStart_memory env t.ingest).2
          show (t.ingest.flushStart env).1.queue.items = []
          rw [(Ingest.flushStart_queue env t.ingest).1]
          rfl
      | addModel | writeReturns | writeRaises | wrote | failed | cancelRunning | cancelReturned
      | cancelRaised | orphanReturns | orphanRaises => exact h.quiet he rfl rfl rfl

end Reconnected

theorem Delivered.snoc_inv {es : List Event} {e : Event} {d' : Delivery}
    (h : Delivered env name metric published (es ++ [e]) d') :
    ∃ d, Delivered env name metric published es d ∧
      Delivers env name metric published d e d' := by
  generalize heq : es ++ [e] = l at h
  cases h with
  | nil => simp at heq
  | snoc hes he =>
      obtain ⟨rfl, hlast⟩ := List.append_inj' heq rfl
      cases hlast
      exact ⟨_, hes, he⟩

theorem FirstNotQueued.init {tr : List (Tasks × Event)} {p : Tasks × Event}
    (h : FirstNotQueued env name (tr ++ [p])) : FirstNotQueued env name tr := by
  intro pre s₁ metrics mid s₂ dataValue receivedAt post htr
  refine h pre s₁ metrics mid s₂ dataValue receivedAt (post ++ [p]) ?_
  rw [htr, List.append_assoc, List.cons_append, List.append_assoc, List.cons_append]

theorem Run.reconnected {tr : List (Tasks × Event)} {t : Tasks} {d : Delivery}
    (h : Run (step env) start tr t) (hidem : metric.idempotent = false)
    (hnewer : published.Pairwise fun x y => x.newest < y.newest)
    (hdel : Delivered env name metric published (tr.map Prod.snd) d)
    (hclean : FirstNotQueued env name tr) :
    Reconnected env name metric published tr t d := by
  induction h generalizing d with
  | nil =>
      generalize hes : ([] : List (Tasks × Event)).map Prod.snd = es at hdel
      cases hdel with
      | nil =>
          refine ⟨⟨fun _ ha => absurd ha List.not_mem_nil, .nil,
            fun _ ha => absurd ha List.not_mem_nil, .nil⟩,
            ⟨fun _ ha => absurd ha List.not_mem_nil, fun _ ha => absurd ha List.not_mem_nil⟩,
            fun _ ha => absurd ha List.not_mem_nil, nofun⟩
      | snoc => simp at hes
  | @snoc tr t t' e hrun hs ih =>
      rw [List.map_append, List.map_singleton] at hdel
      obtain ⟨d₀, hbefore, hstep⟩ := hdel.snoc_inv
      exact (ih hbefore hclean.init).step hidem hnewer (Run.remembers hrun).2 hclean hstep hs

/-- In every run in which no session begins with a sample that is still
queued, no sample of a metric that is not idempotent is stored twice. -/
theorem stored_at_most_once {tr : List (Tasks × Event)} {t : Tasks} {d : Delivery}
    (h : Run (step env) start tr t) (hidem : metric.idempotent = false)
    (hnewer : published.Pairwise fun x y => x.newest < y.newest)
    (hdel : Delivered env name metric published (tr.map Prod.snd) d)
    (hclean : FirstNotQueued env name tr) :
    (tr.flatMap (Tasks.calls env)).Pairwise fun c c' => ∀ i,
      IsSample env name metric published i c.2 →
      IsSample env name metric published i c'.2 →
      Ingest.storedRows env c ≠ [] → Ingest.storedRows env c' = [] :=
  (Run.reconnected h hidem hnewer hdel hclean).orderly.once

theorem Delivered.session {es : List Event} {d : Delivery} {metrics : List String}
    (h : Delivered env name metric published es d) (hmem : name ∈ metrics) :
    Delivered env name metric published (es ++ [.newSession metrics]) ⟨d.last, true⟩ :=
  h.snoc (.session d.last d.owed hmem)

theorem Delivered.other {es : List Event} {d : Delivery} {e : Event}
    (h : Delivered env name metric published es d) (he : e.concerns name = false) :
    Delivered env name metric published (es ++ [e]) d :=
  h.snoc (.other d he)

theorem FirstNotQueued.of_empty {tr : List (Tasks × Event)}
    (h : ∀ p ∈ tr, p.2.concerns name = true → p.1.ingest.queue.items = []) :
    FirstNotQueued env name tr := by
  intro pre s₁ metrics mid s₂ dataValue receivedAt post htr _ item hitem
  have hempty := h (s₁, .newSession metrics) (by rw [htr]; simp) rfl
  rw [hempty] at hitem
  exact absurd hitem List.not_mem_nil

end

/-! ## A value that arrives after the final flush -/

def cpuMetric : Metric := metricList[0]

def cpuPublished : List Sample := [⟨cpuAt early, []⟩, ⟨cpuAt late, []⟩]

theorem cpuDelivered_early :
    Delivered cpuTexts "cpu" cpuMetric cpuPublished
      [.newSession ["cpu"], cpuArrives early, .flush, .writeReturns, .flushResumes]
      ⟨some 0, false⟩ := by
  have hopen : Delivered cpuTexts "cpu" cpuMetric cpuPublished [.newSession ["cpu"]] ⟨none, true⟩ :=
    Delivered.nil.session (List.mem_singleton_self "cpu")
  have hfirst : Delivers cpuTexts "cpu" cpuMetric cpuPublished ⟨none, true⟩ (cpuArrives early)
      ⟨some 0, false⟩ := .first rfl (by decide) nofun
  exact (((hopen.snoc hfirst).other rfl).other rfl).other rfl

/-- The old session ends with its last value on the queue, and the new one
begins with the same value. -/
def resentWhileQueued : List Event :=
  [.newSession ["cpu"], cpuArrives early, .flush, .writeReturns, .flushResumes,
    cpuArrives late, .newSession ["cpu"], cpuArrives late, .flush]

theorem execute_resentWhileQueued :
    (execute (step cpuTexts) start resentWhileQueued).isSome = true := by
  decide

theorem delivered_resentWhileQueued :
    Delivered cpuTexts "cpu" cpuMetric cpuPublished resentWhileQueued ⟨some 1, false⟩ := by
  have hnext : Delivers cpuTexts "cpu" cpuMetric cpuPublished ⟨some 0, false⟩
      (cpuArrives late) ⟨some 1, false⟩ := .next rfl (by decide)
  have hresent : Delivers cpuTexts "cpu" cpuMetric cpuPublished ⟨some 1, true⟩
      (cpuArrives late) ⟨some 1, false⟩ := .first rfl (by decide) (by simp)
  have hopen := (cpuDelivered_early.snoc hnext).session (List.mem_singleton_self "cpu")
  exact (hopen.snoc hresent).other rfl

theorem resentWhileQueued_stores_twice :
    let run := executed (step cpuTexts) start resentWhileQueued execute_resentWhileQueued
    Run (step cpuTexts) start run.1 run.2 ∧ cpuMetric.idempotent = false ∧
      (cpuPublished.Pairwise fun x y => x.newest < y.newest) ∧
      Delivered cpuTexts "cpu" cpuMetric cpuPublished (run.1.map Prod.snd) ⟨some 1, false⟩ ∧
      ¬ (run.1.flatMap (calls cpuTexts)).Pairwise fun c c' => ∀ i,
        IsSample cpuTexts "cpu" cpuMetric cpuPublished i c.2 →
        IsSample cpuTexts "cpu" cpuMetric cpuPublished i c'.2 →
        Ingest.storedRows cpuTexts c ≠ [] → Ingest.storedRows cpuTexts c' = [] := by
  intro run
  refine ⟨Run.executed execute_resentWhileQueued, rfl, by decide, ?_, fun h => ?_⟩
  · rw [map_snd_executed]
    exact delivered_resentWhileQueued
  · have htwice := List.pairwise_iff_getElem.mp h 1 2 (by decide) (by decide) (by decide) 1
      ⟨by decide, _, rfl, by decide⟩ ⟨by decide, _, rfl, by decide⟩ (by decide)
    exact absurd htwice (by decide)

/-- The same value, taken from the queue before the new session begins. -/
def resentAfterFlush : List Event :=
  [.newSession ["cpu"], cpuArrives early, .flush, .writeReturns, .flushResumes,
    .newSession ["cpu"], cpuArrives early, .flush]

theorem execute_resentAfterFlush :
    (execute (step cpuTexts) start resentAfterFlush).isSome = true := by
  decide

theorem delivered_resentAfterFlush :
    Delivered cpuTexts "cpu" cpuMetric cpuPublished resentAfterFlush ⟨some 0, false⟩ := by
  have hresent : Delivers cpuTexts "cpu" cpuMetric cpuPublished ⟨some 0, true⟩
      (cpuArrives early) ⟨some 0, false⟩ := .first rfl (by decide) (by simp)
  have hopen := cpuDelivered_early.session (List.mem_singleton_self "cpu")
  exact (hopen.snoc hresent).other rfl

theorem stored_at_most_once_resentAfterFlush :
    let run := executed (step cpuTexts) start resentAfterFlush execute_resentAfterFlush
    (run.1.flatMap (calls cpuTexts)).Pairwise fun c c' => ∀ i,
      IsSample cpuTexts "cpu" cpuMetric cpuPublished i c.2 →
      IsSample cpuTexts "cpu" cpuMetric cpuPublished i c'.2 →
      Ingest.storedRows cpuTexts c ≠ [] → Ingest.storedRows cpuTexts c' = [] := by
  intro run
  have hdel : Delivered cpuTexts "cpu" cpuMetric cpuPublished (run.1.map Prod.snd)
      ⟨some 0, false⟩ := by
    rw [map_snd_executed]
    exact delivered_resentAfterFlush
  exact stored_at_most_once (Run.executed execute_resentAfterFlush) rfl (by decide) hdel
    (FirstNotQueued.of_empty (by decide))

end KepServerLogger.Ingestor.Tasks
