import KepServerLogger.Proofs.Redelivery

/-!
# Decoding what a node delivers

The values of a metric that are queued are samples in the order they were
published, but for one that a session may have put in front of them: the value
that the node had when the session began, sent again. A flush makes rows of
each of the samples and none of the value in front, since it meets the flag of
the session and a timestamp that is remembered, or else is what the node held
before anything was published.
-/

namespace KepServerLogger.Ingestor

open KepServerLogger.Py KepServerLogger.Lib

namespace Sample

/-- What comes out at the other end of the wire. -/
def onWire (x : Sample) : Sample := ⟨x.first.onWire, x.rest.map OPCUAModel.onWire⟩

/-- The value of a node that carries it. -/
def value (x : Sample) : DataValue := .good (.str (payload x.models).dumps)

/-- The rows that it becomes. -/
def rows (metric : Metric) (x : Sample) : List Row :=
  x.onWire.models.map (Ingest.metricRow metric)

/-- The samples that `encode` and `decode` are for. -/
structure Travels (env : Externals) (metric : Metric) (x : Sample) : Prop where
  cls : ∀ m ∈ x.models, m.cls = metric.model
  json : env.jsonLoads (.str (payload x.models).dumps) = .ok (payload x.models)

variable {env : Externals} {metric : Metric} {x y : Sample}

theorem Travels.decode (h : x.Travels env metric) (henv : env.Copies) :
    metric.decode env x.value = .ok x.onWire.models := by
  rw [decode_payload h.json (by rintro status ⟨⟩; rfl) rfl,
    constructItem_wireItem henv h.cls]
  rfl

theorem Travels.sample? (h : x.Travels env metric) (henv : env.Copies) {item : Item}
    (hkind : item.kind = .metric) (hmetric : metrics.get? item.key = some metric)
    (hvalue : item.dataValue = x.value) : item.sample? env = some (metric, x.onWire) := by
  unfold Item.sample?
  rw [hkind, hmetric, hvalue]
  simp only [h.decode henv]
  rfl

/-- Two samples with one value are the same at the other end. -/
theorem onWire_eq_of_value (hx : x.Travels env metric) (hy : y.Travels env metric)
    (henv : env.Copies) (h : x.value = y.value) : x.onWire = y.onWire := by
  have hmodels : x.onWire.models = y.onWire.models := by
    have hdecode := hx.decode henv
    rw [h, hy.decode henv] at hdecode
    exact (Except.ok.inj hdecode).symm
  obtain ⟨hfirst, hrest⟩ := List.cons.inj hmodels
  simp only [onWire, Sample.mk.injEq]
  exact ⟨hfirst, hrest⟩

end Sample

/-- The values of a metric among the queued items. -/
def queued (name : String) (items : List Item) : List DataValue :=
  items.filterMap fun item =>
    if item.kind = .metric ∧ item.key = name then some item.dataValue else none

theorem queued_singleton (name : String) (item : Item) :
    queued name [item] =
      if item.kind = .metric ∧ item.key = name then [item.dataValue] else [] := by
  unfold queued
  split
  · next h => simp [h]
  · next h => simp [h]

theorem queued_append (name : String) (items items' : List Item) :
    queued name (items ++ items') = queued name items ++ queued name items' :=
  List.filterMap_append

theorem queued_cons (name : String) (item : Item) (rest : List Item) :
    queued name (item :: rest) =
      (if item.kind = .metric ∧ item.key = name then [item.dataValue] else []) ++
        queued name rest := by
  rw [← queued_singleton, ← queued_append]
  rfl

namespace Ingest

variable {env : Externals} {s : Ingest} {item : Item} {items : List Item} {name table : String}
  {metric : Metric}

/-! ## Decoding what is on its way -/

/-- An item without models has rows for the tags at most, and only as a tag. -/
theorem rows_decodeNext_of_no_sample (h : item.sample? env = none)
    (hother : table ≠ "tags" ∨ item.kind = .metric) :
    (s.decodeNext env item).pending.rows table = s.pending.rows table := by
  unfold Item.sample? at h
  cases hkind : item.kind with
  | tag =>
      simp only [decodeNext, decodeItem, addTag, hkind]
      cases item.dataValue.value with
      | none => rfl
      | some value =>
          have htable : table ≠ "tags" := by
            rcases hother with htable | hmetric
            · exact htable
            · rw [hkind] at hmetric
              cases hmetric
          exact (Dict.rows_extend _ _ _ _).trans
            (by rw [if_neg (Ne.symm htable), List.append_nil])
  | metric =>
      rw [hkind] at h
      simp only [decodeNext, decodeItem, addMetric, hkind]
      cases hmetric : metrics.get? item.key with
      | none => rfl
      | some metric =>
          rw [hmetric] at h
          simp only at h ⊢
          cases hdecode : metric.decode env item.dataValue with
          | error e => rfl
          | ok models =>
              cases models with
              | nil => rfl
              | cons m ms =>
                  rw [hdecode] at h
                  cases h

/-- No metric is stored with the tags. -/
theorem table_ne_tags (hmetric : metric ∈ metricList) : metric.table_name ≠ "tags" := by
  have hall : ∀ m ∈ metricList, m.table_name ≠ "tags" := by decide
  exact hall metric hmetric

/-- What one turn leaves of a metric as it was. -/
structure SameFor (name table : String) (s s' : Ingest) : Prop where
  rows : s'.pending.rows table = s.pending.rows table
  last : s'.lastTimestamp.get? name = s.lastTimestamp.get? name
  flag : name ∈ s'.awaitingFirst ↔ name ∈ s.awaitingFirst

theorem sameFor_of_no_sample (hmetric : metric ∈ metricList) (h : item.sample? env = none) :
    SameFor name metric.table_name s (s.decodeNext env item) := by
  obtain ⟨hflag, hlast⟩ := decodeNext_of_no_sample (s := s) h
  exact ⟨rows_decodeNext_of_no_sample h (.inl (table_ne_tags hmetric)), by rw [hlast], by rw [hflag]⟩

/-- A value of something else. -/
theorem sameFor_of_other (hmetric : metrics.get? name = some metric)
    (h : ¬ (item.kind = .metric ∧ item.key = name)) :
    SameFor name metric.table_name s (s.decodeNext env item) := by
  have hlist := mem_metricList hmetric
  cases hx : item.sample? env with
  | none => exact sameFor_of_no_sample hlist hx
  | some p =>
      obtain ⟨metric', x⟩ := p
      obtain ⟨hkind, hget, _⟩ := get?_of_sample? hx
      have hkey : item.key ≠ name := fun hkey => h ⟨hkind, hkey⟩
      have htable : metric'.table_name ≠ metric.table_name := by
        intro heq
        have hsame := eq_of_table_name (mem_metricList hget) hlist heq
        rw [← name_of_get? hget, ← name_of_get? hmetric, hsame] at hkey
        exact hkey rfl
      have hflag : name ∈ s.awaitingFirst.erase item.key ↔ name ∈ s.awaitingFirst := by
        simp [Ne.symm hkey]
      rw [decodeNext_of_sample hx]
      split
      · exact ⟨rfl, rfl, hflag⟩
      · refine ⟨?_, ?_, hflag⟩
        · exact (Dict.rows_extend _ _ _ _).trans (by rw [if_neg htable, List.append_nil])
        · exact (Dict.get?_set _ _ _ _).trans (if_neg hkey)

/-- A value that a session sends again: the one before everything that was
decoded, or the last of it, which the flag is up for. -/
def Repeats (left : DataValue) (name : String) (done : List Sample) (s : Ingest)
    (value : DataValue) : Prop :=
  (done = [] ∧ value = left) ∨
    ∃ x, done.getLast? = some x ∧ value = x.value ∧ name ∈ s.awaitingFirst

/-- The samples get later and later, each as it comes over the wire. -/
def Later (samples : List Sample) : Prop :=
  samples.Pairwise fun x y => x.onWire.newest < y.onWire.newest

instance (samples : List Sample) : Decidable (Later samples) :=
  inferInstanceAs (Decidable (List.Pairwise _ _))

variable {left : DataValue} {again : Option DataValue} {done new : List Sample}

/-- The value that is sent again is dropped. -/
theorem sameFor_of_repeats (hmetric : metrics.get? name = some metric)
    (hidem : metric.idempotent = false) (henv : env.Copies)
    (hleft : metric.decode env left = .ok []) (htravels : ∀ x ∈ done, x.Travels env metric)
    (hlatest : IsLatest (done.map (·.onWire.newest)) (s.lastTimestamp.get? name))
    (hkind : item.kind = .metric) (hkey : item.key = name)
    (h : Repeats left name done s item.dataValue) :
    (s.decodeNext env item).pending.rows metric.table_name = s.pending.rows metric.table_name ∧
      (s.decodeNext env item).lastTimestamp.get? name = s.lastTimestamp.get? name := by
  subst hkey
  rcases h with ⟨-, hvalue⟩ | ⟨x, hlast, hvalue, hflag⟩
  · have hnone : item.sample? env = none := by
      unfold Item.sample?
      rw [hkind, hmetric, hvalue]
      simp only [hleft]
    have hsame : SameFor item.key metric.table_name s (s.decodeNext env item) :=
      sameFor_of_no_sample (mem_metricList hmetric) hnone
    exact ⟨hsame.rows, hsame.last⟩
  · have hx : x ∈ done := List.mem_of_getLast? hlast
    have hsample := (htravels x hx).sample? henv hkind hmetric hvalue
    have hmem : x.onWire.newest ∈ done.map (·.onWire.newest) := List.mem_map_of_mem hx
    rw [decodeNext_of_sample hsample, if_pos]
    · exact ⟨rfl, rfl⟩
    · cases hremembered : s.lastTimestamp.get? item.key with
      | none =>
          rw [hremembered] at hlatest
          rw [show done.map (·.onWire.newest) = [] from hlatest] at hmem
          cases hmem
      | some last =>
          rw [hremembered] at hlatest
          simp only [alreadyStored, hflag, hidem, decide_true, Bool.not_false, Bool.and_true,
            Bool.true_and, decide_eq_true_eq]
          exact hlatest.2 _ hmem

/-- A sample that is later than everything decoded is stored. -/
theorem decodeNext_of_later (hmetric : metrics.get? name = some metric) (henv : env.Copies)
    {x : Sample} (htravels : x.Travels env metric)
    (hlatest : IsLatest (done.map (·.onWire.newest)) (s.lastTimestamp.get? name))
    (hlater : ∀ y ∈ done, y.onWire.newest < x.onWire.newest)
    (hkind : item.kind = .metric) (hkey : item.key = name) (hvalue : item.dataValue = x.value) :
    (s.decodeNext env item).pending.rows metric.table_name =
        s.pending.rows metric.table_name ++ x.rows metric ∧
      IsLatest ((done ++ [x]).map (·.onWire.newest))
        ((s.decodeNext env item).lastTimestamp.get? name) := by
  subst hkey
  have hnew : alreadyStored (decide (item.key ∈ s.awaitingFirst)) metric x.onWire.newest
      (s.lastTimestamp.get? item.key) = false := by
    cases hremembered : s.lastTimestamp.get? item.key with
    | none => rfl
    | some last =>
        rw [hremembered] at hlatest
        obtain ⟨y, hy, hlast⟩ := List.mem_map.mp hlatest.1
        have hlt : last < x.onWire.newest := hlast ▸ hlater y hy
        simp only [alreadyStored, not_le_of_gt hlt, decide_false, Bool.and_false]
  rw [decodeNext_of_sample (htravels.sample? henv hkind hmetric hvalue),
    if_neg (by rw [hnew]; exact Bool.false_ne_true)]
  refine ⟨(Dict.rows_extend _ _ _ _).trans (by rw [if_pos rfl]; rfl), ?_⟩
  rw [List.map_append]
  show IsLatest _ ((s.lastTimestamp.set item.key _).get? item.key)
  rw [Dict.get?_set, if_pos rfl]
  exact hlatest.snoc _

/-- A flush decodes what is queued of a metric: nothing of a value that is
sent again, and every sample behind it. -/
theorem decodeItems_queued (hmetric : metrics.get? name = some metric)
    (hidem : metric.idempotent = false) (henv : env.Copies)
    (hleft : metric.decode env left = .ok [])
    (htravels : ∀ x ∈ done ++ new, x.Travels env metric) (hlater : Later (done ++ new))
    (hlatest : IsLatest (done.map (·.onWire.newest)) (s.lastTimestamp.get? name))
    (hagain : ∀ value ∈ again, Repeats left name done s value)
    (hqueued : queued name items = again.toList ++ new.map Sample.value) :
    (decodeItems env s items).1.pending.rows metric.table_name =
        s.pending.rows metric.table_name ++ new.flatMap (Sample.rows metric) ∧
      IsLatest ((done ++ new).map (·.onWire.newest))
        ((decodeItems env s items).1.lastTimestamp.get? name) ∧
      (queued name items = [] →
        (name ∈ (decodeItems env s items).1.awaitingFirst ↔ name ∈ s.awaitingFirst)) := by
  induction items generalizing s done new again with
  | nil =>
      obtain ⟨hnone, hnil⟩ := List.append_eq_nil_iff.mp hqueued.symm
      obtain rfl : new = [] := List.map_eq_nil_iff.mp hnil
      rw [List.append_nil]
      exact ⟨(List.append_nil _).symm, hlatest, fun _ => Iff.rfl⟩
  | cons item rest ih =>
      rw [decodeItems_cons]
      by_cases hitem : item.kind = .metric ∧ item.key = name
      · rw [queued_cons, if_pos hitem, List.singleton_append] at hqueued ⊢
        cases again with
        | some value =>
            obtain ⟨hvalue, hrest⟩ := List.cons.inj hqueued
            have hrepeats := hagain value rfl
            rw [← hvalue] at hrepeats
            obtain ⟨hrows, hlast⟩ := sameFor_of_repeats hmetric hidem henv hleft
              (fun x hx => htravels x (List.mem_append_left _ hx)) hlatest hitem.1 hitem.2 hrepeats
            have hrest' := @ih (s.decodeNext env item) none _ _ htravels hlater
              (hlast ▸ hlatest) (fun value h => absurd h (Option.not_mem_none value)) hrest
            rw [hrows] at hrest'
            exact ⟨hrest'.1, hrest'.2.1, fun hnil => absurd hnil (List.cons_ne_nil _ _)⟩
        | none =>
            cases new with
            | nil => cases hqueued
            | cons x new =>
                obtain ⟨hvalue, hrest⟩ := List.cons.inj hqueued
                have hx : x ∈ done ++ x :: new := by simp
                have hbefore : ∀ y ∈ done, y.onWire.newest < x.onWire.newest := fun y hy =>
                  (List.pairwise_append.mp hlater).2.2 y hy x List.mem_cons_self
                obtain ⟨hrows, hlast⟩ := decodeNext_of_later hmetric henv (htravels x hx) hlatest
                  hbefore hitem.1 hitem.2 hvalue
                have hassoc : done ++ x :: new = done ++ [x] ++ new := by simp
                rw [hassoc] at htravels hlater ⊢
                have hrest' := @ih (s.decodeNext env item) none _ _ htravels hlater
                  hlast (fun value h => absurd h (Option.not_mem_none value)) hrest
                rw [hrows, List.append_assoc] at hrest'
                exact ⟨hrest'.1, hrest'.2.1, fun hnil => absurd hnil (List.cons_ne_nil _ _)⟩
      · have hsame : SameFor name metric.table_name s (s.decodeNext env item) :=
          sameFor_of_other hmetric hitem
        rw [queued_cons, if_neg hitem, List.nil_append] at hqueued ⊢
        have hrest := ih (s := s.decodeNext env item) htravels hlater (hsame.last ▸ hlatest)
          (fun value hvalue => (hagain value hvalue).imp_right
            fun ⟨x, hlast, heq, hflag⟩ => ⟨x, hlast, heq, hsame.flag.mpr hflag⟩) hqueued
        rw [hsame.rows] at hrest
        exact ⟨hrest.1, hrest.2.1, fun hnil => (hrest.2.2 hnil).trans hsame.flag⟩

end Ingest

end KepServerLogger.Ingestor
