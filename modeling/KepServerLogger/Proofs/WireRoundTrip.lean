import KepServerLogger.Py.DatetimeRoundTrip
import KepServerLogger.Lib.Metrics

/-!
# What the extractor encodes, the ingestor decodes

The two sides share the model classes and nothing else, so the round trip has
to hold through the text. Each field comes back as itself except the
timestamp, for which there are two wire formats. Most models write whole
seconds, which the first stage of `parse_timestamp` reads; the heartbeat and
error models write ISO 8601 with microseconds, which the first stage has to
reject before the second stage can read it exactly.

A list of process ids is joined with commas. Joining nothing gives the empty
string, which splits into one empty part; the validator drops empty parts,
and that is the only reason the empty list survives.
-/

namespace KepServerLogger.Lib

open KepServerLogger.Py

/-! ## Timestamps -/

theorem strptime_strftime (n : Naive) :
    strptime timestampFormat (strftime n timestampFormat) = some n.truncated := by
  have hsep : Separated timestampFormat := by
    refine ⟨?_, ?_, ?_, ?_, ?_, ?_, trivial⟩ <;> decide
  rw [strptime, matchFormat_strftime n _ _ hsep]
  exact Naive.of?_fields n.truncated

/-- The ISO text up to the seconds is the fields of the default format, and
what follows is not the `Z` that format ends in. -/
theorem isoformat_eq (u : Utc) :
    ∃ x rest, (x = '.' ∨ x = '+') ∧ u.toDatetime.isoformat 'T' =
      Field.format u.clock .Y ++ '-' :: (Field.format u.clock .m ++ '-' ::
        (Field.format u.clock .d ++ 'T' :: (Field.format u.clock .H ++ ':' ::
          (Field.format u.clock .M ++ ':' :: (Field.format u.clock .S ++ x :: rest))))) := by
  have hzone : isoOffsetText .utc = '+' :: "00:00".toList := by decide
  simp only [Datetime.isoformat, isoDateText, isoClockText, Utc.toDatetime, hzone,
    Field.format]
  by_cases hus : u.clock.microsecond = 0
  · exact ⟨'+', "00:00".toList, Or.inr rfl, by simp [hus]⟩
  · exact ⟨'.', padded 6 u.clock.microsecond ++ '+' :: "00:00".toList, Or.inl rfl, by
      simp [hus]⟩

theorem strptime_isoformat (u : Utc) :
    strptime timestampFormat (u.toDatetime.isoformat 'T') = none := by
  obtain ⟨x, rest, hx, htext⟩ := isoformat_eq u
  have hlit : ∀ (c : Char) (ds : List Directive) (p : Parsed) (t : List Char),
      matchFormat (.lit c :: ds) p (c :: t) = matchFormat ds p t := by
    intro c ds p t
    rw [matchFormat, if_pos (Or.inl rfl)]
  have hend : ¬ (x = 'Z' ∨ x = 'Z'.toLower ∨ x = 'Z'.toUpper) := by
    rcases hx with rfl | rfl <;> decide
  rw [htext, strptime, timestampFormat]
  rw [matchFormat_field u.clock .Y (by decide), hlit, matchFormat_field u.clock .m (by decide),
    hlit, matchFormat_field u.clock .d (by decide), hlit,
    matchFormat_field u.clock .H (by decide), hlit, matchFormat_field u.clock .M (by decide),
    hlit, matchFormat_field u.clock .S (by decide), matchFormat, if_neg hend]

theorem replaceZ_eq_self {s : List Char} (h : 'Z' ∉ s) : replaceZ s = s := by
  induction s with
  | nil => rfl
  | cons c cs ih =>
      simp only [List.mem_cons, not_or] at h
      rw [replaceZ, List.flatMap_cons, if_neg (Ne.symm h.1), ← replaceZ, ih h.2]
      rfl

theorem not_mem_isoformat {u : Utc} : 'Z' ∉ u.toDatetime.isoformat 'T' := by
  have hpad : ∀ w n : Nat, 'Z' ∉ padded w n := fun w n h =>
    ne_of_isDigit (isDigit_padded _ h) (by decide) rfl
  have hclock : 'Z' ∉ isoClockText u.clock.hour u.clock.minute u.clock.second
      u.clock.microsecond := fun h =>
    (isDigit_or_mark_of_mem_isoClockText _ h).elim
      (fun hd => ne_of_isDigit hd (by decide) rfl) (by decide)
  have hzone : isoOffsetText .utc = '+' :: "00:00".toList := by decide
  simp only [Datetime.isoformat, isoDateText, Utc.toDatetime, hzone, List.mem_append,
    List.mem_cons, not_or]
  refine ⟨⟨hpad _ _, by decide, hpad _ _, by decide, hpad _ _⟩, by decide, hclock, ?_⟩
  decide

theorem parseTimestamp_strftime (u : Utc) :
    parseTimestamp (.str (String.ofList (strftime u.clock timestampFormat))) =
      .ok u.truncated := by
  rw [parseTimestamp, String.toList_ofList, strptime_strftime u.clock]
  rfl

theorem parseTimestamp_isoformat (u : Utc) :
    parseTimestamp (.str (String.ofList (u.toDatetime.isoformat 'T'))) = .ok u := by
  rw [parseTimestamp, String.toList_ofList, strptime_isoformat u,
    replaceZ_eq_self not_mem_isoformat, fromisoformat_isoformat, Option.bind_some,
    Utc.toUtc_toDatetime]

/-! ## Process ids -/

theorem not_mem_intStr (n : Int) : ',' ∉ intStr n := by
  have hdig : ',' ∉ Nat.toDigits 10 n.natAbs := fun h =>
    ne_of_isDigit (isDigit_toDigits _ h) (by decide) rfl
  unfold intStr
  split
  · rw [List.mem_cons, not_or]
    exact ⟨by decide, hdig⟩
  · exact hdig

theorem intStr_ne_nil (n : Int) : intStr n ≠ [] := by
  unfold intStr
  split
  · simp
  · exact Nat.toDigits_ne_nil

theorem mapM_int?_intStr (pids : List Int) : (pids.map intStr).mapM int? = some pids := by
  induction pids with
  | nil => rfl
  | cons n ns ih => simp [int?_intStr, ih]

theorem parseProcessIds_text (pids : List Int) :
    parseProcessIds (.str (OPCUAModel.processIdsText pids)) =
      some (.arr (pids.map .int)) := by
  rw [parseProcessIds, OPCUAModel.processIdsText, String.toList_ofList]
  by_cases hne : pids = []
  · subst hne
    rfl
  · have hparts : ∀ p ∈ pids.map intStr, ',' ∉ p := by
      intro p hp
      obtain ⟨n, _, rfl⟩ := List.mem_map.mp hp
      exact not_mem_intStr n
    have hkeep : ∀ p ∈ pids.map intStr, decide (p ≠ []) = true := by
      intro p hp
      obtain ⟨n, _, rfl⟩ := List.mem_map.mp hp
      simpa using intStr_ne_nil n
    rw [split_join hparts (by simpa using hne), List.filter_eq_self.mpr hkeep,
      mapM_int?_intStr, Option.map_some]

/-! ## One model -/

namespace OPCUAModel

/-- The timestamp as it travels: in whole seconds, or exactly for the two
models that say so. -/
def wireTimestamp : OPCUAModel → List Char
  | .heartbeatRTT m => m.timestamp.toDatetime.isoformat 'T'
  | .agentError m => m.timestamp.toDatetime.isoformat 'T'
  | m => strftime m.timestamp.clock timestampFormat

def wireFields : OPCUAModel → List (String × Json)
  | .cpuUsage m => [("usage", .float m.usage)]
  | .ramUsage m => [("total_kb", .int m.total_kb), ("free_kb", .int m.free_kb)]
  | .storageUsage m =>
      [("free_gb", .float m.free_gb), ("used_gb", .float m.used_gb),
        ("total_gb", .float m.total_gb)]
  | .networkUsage m =>
      [("interface", .str m.interface), ("operational_status", .str m.operational_status),
        ("network_interface_type", .str m.network_interface_type),
        ("kb_bytes_sent", .float m.kb_bytes_sent),
        ("kb_bytes_received", .float m.kb_bytes_received)]
  | .serviceInfo m =>
      [("name", .str m.name), ("status", .str m.status),
        ("service_type", .str m.service_type), ("machine_name", .str m.machine_name),
        ("process_ids", .str (processIdsText m.process_ids))]
  | .heartbeatRTT m =>
      [("pair", .str m.pair), ("value", .int m.value), ("rtt_ms", .float m.rtt_ms)]
  | .agentError m =>
      [("level", .str m.level), ("component", .str m.component),
        ("message", .str m.message), ("traceback", m.traceback.elim .null .str)]
  | .kepEvent m =>
      [("name", .str m.name), ("source", .str m.source), ("message", .str m.message),
        ("hash", .str m.hash)]

/-- The object a model travels as. -/
def wireItem (m : OPCUAModel) : List (String × Json) :=
  ("timestamp", .str (String.ofList m.wireTimestamp)) :: m.wireFields

/-- What is left of a model after the wire: everything, but for the fraction
of the second where the timestamp travels in whole seconds. -/
def onWire : OPCUAModel → OPCUAModel
  | .cpuUsage m => .cpuUsage { m with timestamp := m.timestamp.truncated }
  | .ramUsage m => .ramUsage { m with timestamp := m.timestamp.truncated }
  | .storageUsage m => .storageUsage { m with timestamp := m.timestamp.truncated }
  | .networkUsage m => .networkUsage { m with timestamp := m.timestamp.truncated }
  | .serviceInfo m => .serviceInfo { m with timestamp := m.timestamp.truncated }
  | .heartbeatRTT m => .heartbeatRTT m
  | .agentError m => .agentError m
  | .kepEvent m => .kepEvent { m with timestamp := m.timestamp.truncated }

end OPCUAModel

theorem dictToJson?_toOpcua (m : OPCUAModel) :
    dictToJson? m.toOpcua = some (.obj m.wireItem) := by
  cases m with
  | agentError e =>
      obtain ⟨t, level, component, message, traceback⟩ := e
      cases traceback <;> rfl
  | cpuUsage | ramUsage | storageUsage | networkUsage | serviceInfo | heartbeatRTT
  | kepEvent => rfl

theorem timestampField_wireItem (m : OPCUAModel) :
    timestampField m.wireItem = .ok m.onWire.timestamp := by
  have hfield : required m.wireItem "timestamp" =
      .ok (.str (String.ofList m.wireTimestamp)) := rfl
  simp only [timestampField, hfield, bind, Except.bind]
  cases m with
  | heartbeatRTT h =>
      rw [OPCUAModel.wireTimestamp, parseTimestamp_isoformat h.timestamp]
      rfl
  | agentError e =>
      rw [OPCUAModel.wireTimestamp, parseTimestamp_isoformat e.timestamp]
      rfl
  | cpuUsage | ramUsage | storageUsage | networkUsage | serviceInfo | kepEvent =>
      rw [OPCUAModel.wireTimestamp, parseTimestamp_strftime]
      · rfl
      all_goals simp

section

variable {env : Externals}

theorem pidsField_wireItem (henv : env.Copies) (s : ServiceInfo) :
    pidsField env (OPCUAModel.wireItem (.serviceInfo s)) = .ok s.process_ids := by
  have hlookup : required (OPCUAModel.wireItem (.serviceInfo s)) "process_ids" =
      .ok (.str (OPCUAModel.processIdsText s.process_ids)) := rfl
  have hcopy : (s.process_ids.map Json.int).mapM env.pydanticInt = some s.process_ids := by
    generalize s.process_ids = pids
    induction pids with
    | nil => rfl
    | cons n ns ih => simp [henv.int, ih]
  simp only [pidsField, hlookup, bind, Except.bind]
  rw [parseProcessIds_text]
  simp only [hcopy]

/-- Validating the object a model travels as gives the model back. -/
theorem construct_wireItem (henv : env.Copies) (m : OPCUAModel) :
    m.cls.construct env m.wireItem = .ok m.onWire := by
  have ht := timestampField_wireItem m
  cases m with
  | agentError e =>
      obtain ⟨t, level, component, message, traceback⟩ := e
      rw [OPCUAModel.cls, ModelClass.construct, ht]
      cases traceback <;> rfl
  | serviceInfo s =>
      rw [OPCUAModel.cls, ModelClass.construct, ht, pidsField_wireItem henv]
      rfl
  | cpuUsage | ramUsage | storageUsage | networkUsage | heartbeatRTT | kepEvent =>
      rw [OPCUAModel.cls, ModelClass.construct, ht]
      simp [intField, floatField, strField, required, Dict.lookup, OPCUAModel.wireItem,
        OPCUAModel.wireFields, OPCUAModel.onWire, OPCUAModel.timestamp, henv.int,
        henv.float, bind, Except.bind, pure, Except.pure]

/-! ## A whole value -/

/-- What `encode` hands to the JSON library. -/
def payload (models : List OPCUAModel) : Json :=
  .arr (models.map fun m => .obj m.wireItem)

theorem encode_eq (models : List OPCUAModel) :
    Metric.encode models = .ok (payload models).dumps := by
  have hmap : (models.mapM fun m => dictToJson? m.toOpcua) =
      some (models.map fun m => .obj m.wireItem) := by
    simp only [dictToJson?_toOpcua]
    exact List.mapM_pure
  rw [Metric.encode, hmap]
  rfl

theorem dumps_truthy (models : List OPCUAModel) :
    (PyValue.str (payload models).dumps).truthy = true := by
  have hne : (payload models).dumps ≠ "" := by
    intro he
    have := congrArg String.toList he
    simp [Json.dumps, payload, Json.dumpsText] at this
  simpa [PyValue.truthy] using hne

/-- A good value that holds what `encode` wrote is decoded item by item. -/
theorem decode_payload {metric : Metric} {models : List OPCUAModel} {dataValue : DataValue}
    (hjson : env.jsonLoads (.str (payload models).dumps) = .ok (payload models))
    (hgood : ∀ status, dataValue.statusCode = some status → status.is_good = true)
    (hvalue : dataValue.value = some (.str (payload models).dumps)) :
    metric.decode env dataValue =
      (models.map fun m => Json.obj m.wireItem).mapM (constructItem env metric.model) := by
  unfold Metric.decode
  split
  · next name hs => cases hgood _ hs
  · rw [hvalue]
    simp only [dumps_truthy, Bool.not_true, Bool.false_eq_true, if_false, hjson]
    rfl

theorem constructItem_wireItem (henv : env.Copies) {cls : ModelClass} {models : List OPCUAModel}
    (hcls : ∀ m ∈ models, m.cls = cls) :
    (models.map fun m => Json.obj m.wireItem).mapM (constructItem env cls) =
      .ok (models.map OPCUAModel.onWire) := by
  induction models with
  | nil => rfl
  | cons m ms ih =>
      have hm := construct_wireItem henv m
      rw [hcls m (by simp)] at hm
      have hms := ih fun x hx => hcls x (by simp [hx])
      simp only [List.map_cons, List.mapM_cons, constructItem, hm, hms, bind, Except.bind,
        pure, Except.pure]

/-- Decoding a good value that holds what `encode` wrote for models of the
metric's class returns these models, in order and field for field, the
timestamp cut to the second where the class travels in whole seconds. -/
theorem decode_encode (henv : env.Copies) (metric : Metric) (models : List OPCUAModel)
    (hcls : ∀ m ∈ models, m.cls = metric.model)
    (hjson : env.jsonLoads (.str (payload models).dumps) = .ok (payload models))
    {dataValue : DataValue} {text : String}
    (hgood : ∀ status, dataValue.statusCode = some status → status.is_good = true)
    (htext : Metric.encode models = .ok text)
    (hvalue : dataValue.value = some (.str text)) :
    metric.decode env dataValue = .ok (models.map OPCUAModel.onWire) := by
  rw [encode_eq] at htext
  cases htext
  rw [decode_payload hjson hgood hvalue, constructItem_wireItem henv hcls]

end

/-- Two services, one of them without a process, read at a moment between two
seconds. -/
def someServices : List OPCUAModel :=
  let timestamp : Utc := ⟨⟨2026, 3, 29, 1, 59, 59, 999999, by decide⟩⟩
  [.serviceInfo ⟨timestamp, "KEPServerEX", "running", "own", "é-1", [4, 1200]⟩,
    .serviceInfo ⟨timestamp, "W32Time", "stopped", "share", "é-1", []⟩]

theorem decode_encode_someServices :
    metricList[4].decode
        (.ofTexts [((payload someServices).dumps, payload someServices)])
        (.good (.str (payload someServices).dumps)) =
      .ok (someServices.map OPCUAModel.onWire) := by
  refine decode_encode (Externals.copies_ofTexts _) metricList[4] someServices ?_ ?_ ?_
    (encode_eq someServices) rfl
  · decide
  · simp [Externals.ofTexts, Dict.lookup]
  · rintro status ⟨⟩
    rfl

end KepServerLogger.Lib
