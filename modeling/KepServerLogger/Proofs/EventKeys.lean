import KepServerLogger.Base.Raising
import KepServerLogger.Extractor.Events
import KepServerLogger.Ingestor.Ingest
import KepServerLogger.Ingestor.Tables
import KepServerLogger.Proofs.WireRoundTrip

/-!
# One row for each event

The log is published whole with every cycle, so nearly every row the table of
events is offered is one it has. It tells them by the hash and by the second
of the timestamp. The hash is that of the texts of the item with bars between
them, so two events are one to the table exactly if the joined texts agree,
which needs a bar inside one of the texts, and the seconds agree.
-/

namespace KepServerLogger.Ingestor

open KepServerLogger.Py KepServerLogger.Lib KepServerLogger.Extractor

/-- `METRICS["events"]` -/
def eventsMetric : Metric where
  name := "events"
  node_name := "Events"
  model := .kepEvent
  table_name := "events"
  columns := ⟨[("name", "event_name")], List.nodup_singleton _⟩
  idempotent := true

theorem get?_events : metrics.get? "events" = some eventsMetric := by decide

/-- The row of an event, once it has been on the wire. -/
def eventRow (p : EventTexts × KepEvent) : Row :=
  Ingest.metricRow eventsMetric (OPCUAModel.kepEvent p.2).onWire

def eventKey (p : EventTexts × KepEvent) : List (Option PyValue) :=
  rowKey ["hash", "timestamp"] (eventRow p)

/-- The events tell themselves apart by their hash or by their second. -/
def Apart (p q : EventTexts × KepEvent) : Prop :=
  p.1.prehash ≠ q.1.prehash ∨ p.2.timestamp.truncated ≠ q.2.timestamp.truncated

section

variable (repr sha256 : String → String)

def acceptItem (item : Json) : Except Exc (EventTexts × KepEvent) :=
  eventTexts repr item >>= fun t => (t.kepEvent sha256).map fun event => (t, event)

/-- The events of a payload that `get_kepserver_events` accepts. -/
def acceptedEvents : Json → List (EventTexts × KepEvent)
  | .arr items =>
      match items.mapM (acceptItem repr sha256) with
      | .ok events => events
      | .error _ => []
  | _ => []

/-- The rows that a cycle offers to the table. -/
def cycleRows (env : Externals) (payload : Json) : List Row :=
  match getKepserverEvents repr sha256 payload with
  | .error _ => []
  | .ok events =>
      match Metric.encode (events.map .kepEvent) with
      | .error _ => []
      | .ok text =>
          match Ingest.new.addMetric env "events" (.good (.str text)) with
          | .error _ => []
          | .ok s => s.pending.rows "events"

end

variable {env : Externals} {repr sha256 : String → String}

/-! ## One cycle -/

theorem getKepserverEvents_arr (items : List Json) :
    getKepserverEvents repr sha256 (.arr items) =
      (items.mapM (acceptItem repr sha256)).map (List.map Prod.snd) := by
  rw [← mapM_map]
  refine congrArg (fun f => items.mapM f) (funext fun item => ?_)
  unfold acceptItem
  cases eventTexts repr item with
  | error e => rfl
  | ok t =>
      show t.kepEvent sha256 = ((t.kepEvent sha256).map fun event => (t, event)).map Prod.snd
      cases t.kepEvent sha256 <;> rfl

/-- What is accepted, and what is published. -/
theorem events_cases (payload : Json) :
    getKepserverEvents repr sha256 payload =
        .ok ((acceptedEvents repr sha256 payload).map Prod.snd) ∨
      (∃ e, getKepserverEvents repr sha256 payload = .error e) ∧
        acceptedEvents repr sha256 payload = [] := by
  cases payload with
  | arr items =>
      rw [getKepserverEvents_arr, acceptedEvents]
      cases items.mapM (acceptItem repr sha256) with
      | error e => exact .inr ⟨⟨e, rfl⟩, rfl⟩
      | ok events => exact .inl rfl
  | null | bool | int | float | str | obj => exact .inl rfl

theorem kepEvent_of_accepted {payload : Json} {p : EventTexts × KepEvent}
    (h : p ∈ acceptedEvents repr sha256 payload) : p.1.kepEvent sha256 = .ok p.2 := by
  cases payload with
  | arr items =>
      rw [acceptedEvents] at h
      split at h
      · next events hevents =>
          obtain ⟨item, _, hitem⟩ := mem_of_mapM_ok hevents p h
          obtain ⟨t, _, hitem⟩ := ok_of_bind hitem
          cases ht : t.kepEvent sha256 with
          | error e =>
              rw [ht] at hitem
              cases hitem
          | ok event =>
              rw [ht] at hitem
              cases hitem
              exact ht
      · cases h
  | null | bool | int | float | str | obj => cases h

theorem addMetric_events_ok {dataValue : DataValue} {models : List OPCUAModel}
    (h : eventsMetric.decode env dataValue = .ok models) :
    ∃ s, Ingest.new.addMetric env "events" dataValue = .ok s ∧
      s.pending.rows "events" = models.map (Ingest.metricRow eventsMetric) := by
  unfold Ingest.addMetric
  rw [get?_events]
  simp only [h]
  cases models with
  | nil => exact ⟨_, rfl, rfl⟩
  | cons m ms => exact ⟨_, rfl, rfl⟩

/-- A cycle offers a row for each event. -/
theorem cycleRows_eq (henv : env.Copies) {json : Json}
    (hjson : ∀ events, getKepserverEvents repr sha256 json = .ok events →
      env.jsonLoads (.str (payload (events.map .kepEvent)).dumps) =
        .ok (payload (events.map .kepEvent))) :
    cycleRows repr sha256 env json = (acceptedEvents repr sha256 json).map eventRow := by
  unfold cycleRows
  rcases events_cases json with hok | ⟨⟨e, herror⟩, hnone⟩
  · have hdecode : eventsMetric.decode env (.good (.str (payload
        (((acceptedEvents repr sha256 json).map Prod.snd).map .kepEvent)).dumps)) =
        ((((acceptedEvents repr sha256 json).map Prod.snd).map OPCUAModel.kepEvent).map
          fun m => Json.obj m.wireItem).mapM (constructItem env .kepEvent) :=
      decode_payload (hjson _ hok) (fun status hs => by cases hs; rfl) rfl
    rw [hok]
    simp only [encode_eq]
    generalize acceptedEvents repr sha256 json = accepted at hdecode ⊢
    have hcls : ∀ m ∈ (accepted.map Prod.snd).map OPCUAModel.kepEvent, m.cls = .kepEvent := by
      intro m hm
      obtain ⟨event, _, rfl⟩ := List.mem_map.mp hm
      rfl
    rw [constructItem_wireItem henv hcls] at hdecode
    obtain ⟨s, hs, hrows⟩ := addMetric_events_ok hdecode
    rw [hs]
    simp only [hrows, List.map_map]
    rfl
  · rw [herror, hnone]
    rfl

/-! ## Joined texts -/

theorem append_bar_inj {x x' z z' : List Char} (h : '|' ∉ x) (h' : '|' ∉ x')
    (heq : x ++ '|' :: z = x' ++ '|' :: z') : x = x' ∧ z = z' := by
  induction x generalizing x' with
  | nil =>
      cases x' with
      | nil => exact ⟨rfl, (List.cons.inj heq).2⟩
      | cons c cs =>
          refine absurd ?_ h'
          rw [(List.cons.inj heq).1]
          exact List.mem_cons_self
  | cons c cs ih =>
      cases x' with
      | nil =>
          refine absurd ?_ h
          rw [← (List.cons.inj heq).1]
          exact List.mem_cons_self
      | cons d ds =>
          obtain ⟨rfl, htail⟩ := List.cons.inj heq
          obtain ⟨rfl, hz⟩ := ih (fun hc => h (List.mem_cons_of_mem _ hc))
            (fun hc => h' (List.mem_cons_of_mem _ hc)) htail
          exact ⟨rfl, hz⟩

/-- No bar but those that join. -/
def NoBar (t : EventTexts) : Prop :=
  '|' ∉ t.name.toList ∧ '|' ∉ t.source.toList ∧ '|' ∉ t.message.toList

theorem prehash_injective {t t' : EventTexts} (h : NoBar t) (h' : NoBar t')
    (heq : t.prehash = t'.prehash) : t = t' := by
  have htexts : ∀ t : EventTexts, t.prehash.toList = t.name.toList ++ '|' ::
      (t.source.toList ++ '|' :: (t.message.toList ++ '|' :: t.timestamp.toList)) := by
    intro t
    simp [EventTexts.prehash]
  have hlist := congrArg String.toList heq
  rw [htexts, htexts] at hlist
  obtain ⟨hname, hlist⟩ := append_bar_inj h.1 h'.1 hlist
  obtain ⟨hsource, hlist⟩ := append_bar_inj h.2.1 h'.2.1 hlist
  obtain ⟨hmessage, htimestamp⟩ := append_bar_inj h.2.2 h'.2.2 hlist
  cases t
  cases t'
  simp only [EventTexts.mk.injEq]
  exact ⟨String.toList_inj.mp htimestamp, String.toList_inj.mp hname, String.toList_inj.mp hsource,
    String.toList_inj.mp hmessage⟩

theorem apart_of_noBar {p q : EventTexts × KepEvent} (hp : NoBar p.1) (hq : NoBar q.1)
    (hne : p.1 ≠ q.1) : Apart p q :=
  .inl fun heq => hne (prehash_injective hp hq heq)

/-! ## The table -/

theorem eventKey_eq (p : EventTexts × KepEvent) :
    eventKey p =
      [some (.str p.2.hash), some (.datetime p.2.timestamp.truncated.toDatetime)] := rfl

theorem toDatetime_inj {u u' : Utc} (h : u.toDatetime = u'.toDatetime) : u = u' := by
  cases u
  cases u'
  cases h
  rfl

theorem hash_of_kepEvent {p : EventTexts × KepEvent} (h : p.1.kepEvent sha256 = .ok p.2) :
    p.2.hash = sha256 p.1.prehash := by
  unfold EventTexts.kepEvent at h
  cases hparse : parseTimestamp (.str p.1.timestamp) with
  | error e =>
      rw [hparse] at h
      cases h
  | ok timestamp =>
      rw [hparse] at h
      have hevent := Except.ok.inj h
      rw [← hevent]

/-- Without a collision of hashes, a key tells two events apart exactly if
they tell themselves apart. -/
theorem eventKey_ne_iff {p q : EventTexts × KepEvent} (hp : p.1.kepEvent sha256 = .ok p.2)
    (hq : q.1.kepEvent sha256 = .ok q.2)
    (hsha : sha256 p.1.prehash = sha256 q.1.prehash → p.1.prehash = q.1.prehash) :
    eventKey p ≠ eventKey q ↔ Apart p q := by
  rw [eventKey_eq, eventKey_eq, hash_of_kepEvent hp, hash_of_kepEvent hq, Apart,
    ← not_and_or, not_iff_not]
  simp only [List.cons.injEq, Option.some.injEq, PyValue.str.injEq, PyValue.datetime.injEq,
    and_true]
  constructor
  · intro h
    exact ⟨hsha h.1, toDatetime_inj h.2⟩
  · intro h
    rw [h.1, h.2]
    exact ⟨rfl, rfl⟩

/-- The texts of an item determine its event. -/
theorem eq_of_texts {p q : EventTexts × KepEvent} (hp : p.1.kepEvent sha256 = .ok p.2)
    (hq : q.1.kepEvent sha256 = .ok q.2) (h : p.1 = q.1) : p = q := by
  rw [h, hq] at hp
  exact Prod.ext h (Except.ok.inj hp).symm

/-- However often the log is published: two accepted events have different
keys exactly if their joined texts or their seconds differ; and the table has
one row for each distinct event, in the order they first came, exactly if that
is so of any two different events. -/
theorem events_kept_iff (henv : env.Copies) {jsons : List Json}
    (hjson : ∀ json ∈ jsons, ∀ events, getKepserverEvents repr sha256 json = .ok events →
      env.jsonLoads (.str (payload (events.map .kepEvent)).dumps) =
        .ok (payload (events.map .kepEvent)))
    (hsha : ∀ p ∈ jsons.flatMap (acceptedEvents repr sha256),
      ∀ q ∈ jsons.flatMap (acceptedEvents repr sha256),
        sha256 p.1.prehash = sha256 q.1.prehash → p.1.prehash = q.1.prehash) :
    (∀ p ∈ jsons.flatMap (acceptedEvents repr sha256),
      ∀ q ∈ jsons.flatMap (acceptedEvents repr sha256),
        (eventKey p ≠ eventKey q ↔ Apart p q)) ∧
    (contents "events" (jsons.flatMap (cycleRows repr sha256 env)) =
        (KeyedTable.insertAll id [] (jsons.flatMap (acceptedEvents repr sha256))).map eventRow ↔
      ∀ p ∈ jsons.flatMap (acceptedEvents repr sha256),
        ∀ q ∈ jsons.flatMap (acceptedEvents repr sha256), p.1 ≠ q.1 → Apart p q) := by
  have hrows : jsons.flatMap (cycleRows repr sha256 env) =
      (jsons.flatMap (acceptedEvents repr sha256)).map eventRow := by
    rw [List.map_flatMap]
    exact List.flatMap_congr fun json hmem => cycleRows_eq henv (hjson json hmem)
  have hevent : ∀ p ∈ jsons.flatMap (acceptedEvents repr sha256),
      p.1.kepEvent sha256 = .ok p.2 := by
    intro p hp
    obtain ⟨json, _, hmem⟩ := List.mem_flatMap.mp hp
    exact kepEvent_of_accepted hmem
  have hkeys : ∀ p ∈ jsons.flatMap (acceptedEvents repr sha256),
      ∀ q ∈ jsons.flatMap (acceptedEvents repr sha256),
        (eventKey p ≠ eventKey q ↔ Apart p q) :=
    fun p hp q hq => eventKey_ne_iff (hevent p hp) (hevent q hq) (hsha p hp q hq)
  refine ⟨hkeys, ?_⟩
  have hcontents : ∀ rows, contents "events" rows =
      KeyedTable.insertAll (rowKey ["hash", "timestamp"]) [] rows := fun _ => rfl
  rw [hcontents, hrows, KeyedTable.insertAll_map_eq_iff]
  refine forall₂_congr fun p hp => forall₂_congr fun q hq => ?_
  constructor
  · intro h hne
    exact (hkeys p hp q hq).mp fun hkey => hne (congrArg Prod.fst (h hkey))
  · intro h hkey
    by_contra hne
    exact (hkeys p hp q hq).mpr
      (h fun htexts => hne (eq_of_texts (hevent p hp) (hevent q hq) htexts)) hkey

/-- The digest of the one joined text below. -/
def stoppedSha256 (text : String) : String :=
  if text = "A|B|C|stopped|2026-01-01T12:00:00Z" then
    "E1474756239DE0D82CD5BDB4D12826C89FD497CAD18C3F4834CD40421C76DA59"
  else text

def logItem (event source : String) : Json :=
  .obj [("timestamp", .str "2026-01-01T12:00:00Z"), ("event", .str event),
    ("source", .str source), ("message", .str "stopped")]

/-- The events `A|B` of `C` and `A` of `B|C`. -/
def barLog : Json := .arr [logItem "A|B" "C", logItem "A" "B|C"]

def barRepr (s : String) : String := "'" ++ s ++ "'"

def barEvents : List (EventTexts × KepEvent) := acceptedEvents barRepr stoppedSha256 barLog

def barPayload : Json := payload ((barEvents.map Prod.snd).map .kepEvent)

/-- A JSON reader that knows the text that is published. -/
def barEnv : Externals := .ofTexts [(barPayload.dumps, barPayload)]

theorem jsonLoads_barLog {events : List KepEvent}
    (h : getKepserverEvents barRepr stoppedSha256 barLog = .ok events) :
    barEnv.jsonLoads (.str (payload (events.map .kepEvent)).dumps) =
      .ok (payload (events.map .kepEvent)) := by
  rcases @events_cases barRepr stoppedSha256 barLog with hok | ⟨⟨e, herror⟩, _⟩
  · rw [hok] at h
    cases h
    have hpayload : payload (((acceptedEvents barRepr stoppedSha256 barLog).map Prod.snd).map
        .kepEvent) = barPayload := rfl
    rw [hpayload, barEnv, Externals.jsonLoads_ofTexts]
  · rw [herror] at h
    cases h

theorem cycleRows_barLog :
    cycleRows barRepr stoppedSha256 barEnv barLog = barEvents.map eventRow := by
  have henv : barEnv.Copies := Externals.copies_ofTexts _
  exact cycleRows_eq henv fun _ => jsonLoads_barLog

/-- The two have one key, and the table has one row. -/
theorem barEvents_collide :
    (∀ p ∈ barEvents, ∀ q ∈ barEvents,
      stoppedSha256 p.1.prehash = stoppedSha256 q.1.prehash → p.1.prehash = q.1.prehash) ∧
    (barEvents.map Prod.fst).Nodup ∧ barEvents.length = 2 ∧
    ¬ (∀ p ∈ barEvents, ∀ q ∈ barEvents, p.1 ≠ q.1 → eventKey p ≠ eventKey q) ∧
    (contents "events" ([barLog].flatMap (cycleRows barRepr stoppedSha256 barEnv))).length =
      1 := by
  refine ⟨by decide, by decide, by decide, by decide, ?_⟩
  rw [List.flatMap_singleton, cycleRows_barLog]
  decide

theorem events_kept_barLog :
    (∀ p ∈ [barLog].flatMap (acceptedEvents barRepr stoppedSha256),
      ∀ q ∈ [barLog].flatMap (acceptedEvents barRepr stoppedSha256),
        (eventKey p ≠ eventKey q ↔ Apart p q)) ∧
    (contents "events" ([barLog].flatMap (cycleRows barRepr stoppedSha256 barEnv)) =
        (KeyedTable.insertAll id []
          ([barLog].flatMap (acceptedEvents barRepr stoppedSha256))).map eventRow ↔
      ∀ p ∈ [barLog].flatMap (acceptedEvents barRepr stoppedSha256),
        ∀ q ∈ [barLog].flatMap (acceptedEvents barRepr stoppedSha256),
          p.1 ≠ q.1 → Apart p q) := by
  have henv : barEnv.Copies := Externals.copies_ofTexts _
  refine events_kept_iff henv ?_ (by decide)
  intro json hjson events
  rw [List.mem_singleton] at hjson
  subst hjson
  exact jsonLoads_barLog

end KepServerLogger.Ingestor
