import KepServerLogger.Base.Past
import KepServerLogger.Base.Raising
import KepServerLogger.Lib.Metrics

/-!
# What a metric node can hold

`decode` promises the models of a JSON array of objects or a `ValueError`. It
checks neither the shape of the document nor that of its items, so a document
of another shape fails in whatever the first operation on it raises, or, where
there is nothing to go through, not at all; and of the validators one lets a
`TypeError` out, for a timestamp that is no string.
-/

namespace KepServerLogger.Lib

open KepServerLogger.Py

variable {env : Externals} {cls : ModelClass} {metric : Metric} {dataValue : DataValue}
  {raw : PyValue} {item : List (String × Json)} {field : String} {x : Json} {e : Exc}

def IsValueError (e : Exc) : Prop := e.isValueError = true

/-! ## What a class raises -/

/-- The timestamp is missing or a string. -/
def TimestampReadable (item : List (String × Json)) : Prop :=
  ∀ v, Dict.lookup "timestamp" item = some v → ∃ s, v = .str s

theorem onlyRaises_required : OnlyRaises IsValueError (required item field) := by
  intro e h
  unfold required at h
  split at h
  · cases h
  · cases h
    rfl

theorem onlyRaises_strField : OnlyRaises IsValueError (strField item field) := by
  refine onlyRaises_required.bind fun v e h => ?_
  split at h
  · cases h
  · cases h
    rfl

theorem onlyRaises_optStrField : OnlyRaises IsValueError (optStrField item field) := by
  intro e h
  unfold optStrField at h
  split at h
  all_goals cases h
  rfl

theorem onlyRaises_intField : OnlyRaises IsValueError (intField env item field) := by
  refine onlyRaises_required.bind fun v e h => ?_
  split at h
  · cases h
  · cases h
    rfl

theorem onlyRaises_floatField : OnlyRaises IsValueError (floatField env item field) := by
  refine onlyRaises_required.bind fun v e h => ?_
  split at h
  · cases h
  · cases h
    rfl

theorem onlyRaises_pidsField : OnlyRaises IsValueError (pidsField env item) := by
  refine onlyRaises_required.bind fun v e h => ?_
  split at h
  · split at h
    · cases h
    · cases h
      rfl
  · cases h
    rfl

theorem onlyRaises_parseTimestamp (s : String) : OnlyRaises IsValueError (parseTimestamp (.str s)) := by
  intro e h
  simp only [parseTimestamp] at h
  split at h
  · cases h
  · split at h
    · cases h
    · cases h
      rfl

theorem onlyRaises_timestampField (h : TimestampReadable item) :
    OnlyRaises IsValueError (timestampField item) := by
  intro e herror
  rcases error_of_bind herror with hmissing | ⟨v, hv, herror⟩
  · exact onlyRaises_required e hmissing
  · unfold required at hv
    split at hv
    · next w hlookup =>
        cases hv
        obtain ⟨s, rfl⟩ := h v hlookup
        split at herror
        · cases herror
        · next e' hparse =>
            have he' : e'.isValueError = true := onlyRaises_parseTimestamp s e' hparse
            rw [if_pos he'] at herror
            cases herror
            rfl
    · cases hv

theorem timestampField_unreadable (h : ¬ TimestampReadable item) :
    ∃ e, timestampField item = .error e ∧ ¬ IsValueError e := by
  unfold TimestampReadable at h
  push Not at h
  obtain ⟨v, hlookup, hv⟩ := h
  have hrequired : required item "timestamp" = .ok v := by rw [required, hlookup]
  refine ⟨⟨.typeError, "strptime() argument 1 must be str"⟩, ?_, fun h => (by cases h)⟩
  unfold timestampField
  rw [hrequired]
  cases v with
  | str s => exact absurd rfl (hv s)
  | _ => rfl

/-- The timestamp comes first, and what it raises ends the construction. -/
theorem construct_timestamp_error (h : timestampField item = .error e) :
    cls.construct env item = .error e := by
  cases cls <;> rw [ModelClass.construct, h] <;> rfl

theorem onlyRaises_construct (h : TimestampReadable item) :
    OnlyRaises IsValueError (cls.construct env item) := by
  have ht := onlyRaises_timestampField h
  cases cls with
  | cpuUsage => exact ht.bind fun _ => onlyRaises_floatField.bind fun _ => .ok _
  | ramUsage =>
      exact ht.bind fun _ => onlyRaises_intField.bind fun _ => onlyRaises_intField.bind fun _ => .ok _
  | storageUsage =>
      exact ht.bind fun _ => onlyRaises_floatField.bind fun _ => onlyRaises_floatField.bind fun _ =>
        onlyRaises_floatField.bind fun _ => .ok _
  | networkUsage =>
      exact ht.bind fun _ => onlyRaises_strField.bind fun _ => onlyRaises_strField.bind fun _ =>
        onlyRaises_strField.bind fun _ => onlyRaises_floatField.bind fun _ =>
          onlyRaises_floatField.bind fun _ => .ok _
  | serviceInfo =>
      exact ht.bind fun _ => onlyRaises_strField.bind fun _ => onlyRaises_strField.bind fun _ =>
        onlyRaises_strField.bind fun _ => onlyRaises_strField.bind fun _ =>
          onlyRaises_pidsField.bind fun _ => .ok _
  | heartbeatRTT =>
      exact ht.bind fun _ => onlyRaises_strField.bind fun _ => onlyRaises_intField.bind fun _ =>
        onlyRaises_floatField.bind fun _ => .ok _
  | agentError =>
      exact ht.bind fun _ => onlyRaises_strField.bind fun _ => onlyRaises_strField.bind fun _ =>
        onlyRaises_strField.bind fun _ => onlyRaises_optStrField.bind fun _ => .ok _
  | kepEvent =>
      exact ht.bind fun _ => onlyRaises_strField.bind fun _ => onlyRaises_strField.bind fun _ =>
        onlyRaises_strField.bind fun _ => onlyRaises_strField.bind fun _ => .ok _

/-- The item is an object, and its timestamp is missing or a string. -/
def FailsWell (x : Json) : Prop := ∃ item, x = .obj item ∧ TimestampReadable item

theorem isValueError_iff_failsWell (h : constructItem env cls x = .error e) :
    IsValueError e ↔ FailsWell x := by
  constructor
  · intro he
    unfold constructItem at h
    split at h
    · next item =>
        refine ⟨item, rfl, ?_⟩
        by_contra hunreadable
        obtain ⟨e', ht, he'⟩ := timestampField_unreadable hunreadable
        rw [construct_timestamp_error ht] at h
        cases h
        exact he' he
    · cases h
      cases he
  · intro hwell
    obtain ⟨item, rfl, hreadable⟩ := hwell
    exact onlyRaises_construct hreadable e h

/-! ## The law -/

/-- There is no value, or an empty one. -/
def DataValue.IsEmpty (dataValue : DataValue) : Prop :=
  ∀ raw, dataValue.value = some raw → raw.truthy = false

def DataValue.IsBad (dataValue : DataValue) : Prop :=
  ∃ name, dataValue.statusCode = some ⟨name, false⟩

/-- The item is an object from which the class makes this model. -/
def Makes (env : Externals) (cls : ModelClass) (x : Json) (model : OPCUAModel) : Prop :=
  ∃ item, x = .obj item ∧ cls.construct env item = .ok model

/-- What is returned are the models of a JSON array of valid objects, or
nothing where there is nothing; what is raised is a `ValueError`. -/
def KeepsPromise (env : Externals) (cls : ModelClass) (dataValue : DataValue) :
    Except Exc (List OPCUAModel) → Prop
  | .ok models =>
      (dataValue.IsEmpty ∧ models = []) ∨
        ∃ raw items, dataValue.value = some raw ∧ env.jsonLoads raw = .ok (.arr items) ∧
          List.Forall₂ (Makes env cls) items models
  | .error e => IsValueError e

/-- The first item that is not a valid object, if there is one, fails well. -/
def FirstFailsWell (env : Externals) (cls : ModelClass) (items : List Json) : Prop :=
  ∀ before x after, items = before ++ x :: after →
    (∀ y ∈ before, ∃ model, Makes env cls y model) → (¬ ∃ model, Makes env cls x model) →
    FailsWell x

/-- The document is not JSON, or an array whose first invalid item fails well. -/
def ReadsWell (env : Externals) (cls : ModelClass) : Except Exc Json → Prop
  | .error e => IsValueError e
  | .ok (.arr items) => FirstFailsWell env cls items
  | .ok _ => False

theorem makes_iff {model : OPCUAModel} :
    Makes env cls x model ↔ constructItem env cls x = .ok model := by
  constructor
  · intro h
    obtain ⟨item, rfl, h⟩ := h
    exact h
  · intro h
    unfold constructItem at h
    split at h
    · next item => exact ⟨item, rfl, h⟩
    · cases h

theorem mapM_keepsPromise_iff {items : List Json} (hraw : dataValue.value = some raw)
    (hloads : env.jsonLoads raw = .ok (.arr items)) :
    KeepsPromise env cls dataValue (items.mapM (constructItem env cls)) ↔
      FirstFailsWell env cls items := by
  cases hitems : items.mapM (constructItem env cls) with
  | ok models =>
      refine iff_of_true (.inr ⟨raw, items, hraw, hloads, ?_⟩) ?_
      · exact (forall₂_of_mapM_ok hitems).imp fun _ _ h => makes_iff.mpr h
      · intro before x after heq _ hinvalid
        obtain ⟨model, hmodel⟩ := ok_of_mapM_ok hitems x
          (by rw [heq]; exact List.mem_append_right _ List.mem_cons_self)
        exact absurd ⟨model, makes_iff.mpr hmodel⟩ hinvalid
  | error e =>
      obtain ⟨before, x, after, rfl, hbefore, hx⟩ := first_of_mapM_error hitems
      have hvalid : ∀ y ∈ before, ∃ model, Makes env cls y model := by
        intro y hy
        obtain ⟨model, hmodel⟩ := hbefore y hy
        exact ⟨model, makes_iff.mpr hmodel⟩
      have hinvalid : ¬ ∃ model, Makes env cls x model := by
        rintro ⟨model, hmodel⟩
        rw [makes_iff, hx] at hmodel
        cases hmodel
      refine (isValueError_iff_failsWell hx).trans ⟨fun hwell => ?_, fun h => ?_⟩
      · intro before' x' after' heq hvalid' hinvalid'
        rw [← first_unique heq hvalid hinvalid hvalid' hinvalid']
        exact hwell
      · exact h before x after rfl hvalid hinvalid

theorem iterate_error {payload : Json} (h : iterate payload = .error e) :
    e = ⟨.typeError, "object is not iterable"⟩ := by
  cases payload <;> cases h <;> rfl

/-- What is gone through in place of an array are strings. -/
theorem str_of_iterate {payload : Json} {items : List Json}
    (harr : ∀ items, payload ≠ .arr items) (h : iterate payload = .ok items) :
    ∀ x ∈ items, ∃ s, x = .str s := by
  intro x hx
  cases payload with
  | arr xs => exact absurd rfl (harr xs)
  | obj kvs =>
      cases h
      obtain ⟨p, -, rfl⟩ := List.mem_map.mp hx
      exact ⟨p.1, rfl⟩
  | str s =>
      cases h
      obtain ⟨c, -, rfl⟩ := List.mem_map.mp hx
      exact ⟨String.ofList [c], rfl⟩
  | _ => cases h

/-- A document that is no array is accepted, or fails in a `TypeError`. -/
theorem not_keepsPromise_of_not_arr {payload : Json} (hvalue : ¬ dataValue.IsEmpty)
    (hraw : dataValue.value = some raw) (hloads : env.jsonLoads raw = .ok payload)
    (harr : ∀ items, payload ≠ .arr items) :
    ¬ KeepsPromise env cls dataValue (do (← iterate payload).mapM (constructItem env cls)) := by
  intro hkeeps
  cases hresult : (do (← iterate payload).mapM (constructItem env cls) :
      Except Exc (List OPCUAModel)) with
  | ok models =>
      rw [hresult] at hkeeps
      rcases hkeeps with ⟨hempty, -⟩ | ⟨raw', items, hraw', hloads', -⟩
      · exact hvalue hempty
      · cases hraw.symm.trans hraw'
        exact harr items (Except.ok.inj (hloads.symm.trans hloads'))
  | error e =>
      rw [hresult] at hkeeps
      rcases error_of_bind hresult with hiterate | ⟨items, hitems, hmapM⟩
      · rw [iterate_error hiterate] at hkeeps
        cases hkeeps
      · obtain ⟨before, x, after, rfl, -, hx⟩ := first_of_mapM_error hmapM
        obtain ⟨s, rfl⟩ := str_of_iterate harr hitems x
          (List.mem_append_right _ List.mem_cons_self)
        obtain ⟨item, hitem, -⟩ := (isValueError_iff_failsWell hx).mp hkeeps
        cases hitem

/-- A good value that is not empty is a matter of the document. -/
theorem good_iff_readsWell (hgood : ¬ dataValue.IsBad) (hvalue : ¬ dataValue.IsEmpty)
    (hraw : dataValue.value = some raw) :
    (dataValue.IsBad ∨ dataValue.IsEmpty ∨
      ∃ raw, dataValue.value = some raw ∧ ReadsWell env cls (env.jsonLoads raw)) ↔
    ReadsWell env cls (env.jsonLoads raw) := by
  constructor
  · rintro (hbad | hempty | ⟨raw', hraw', hreads⟩)
    · exact absurd hbad hgood
    · exact absurd hempty hvalue
    · cases hraw.symm.trans hraw'
      exact hreads
  · exact fun hreads => .inr (.inr ⟨raw, hraw, hreads⟩)

/-- `decode` keeps its promise exactly where the status is bad, there is
nothing to decode, or the document reads well. -/
theorem decode_keepsPromise_iff (env : Externals) (metric : Metric) (dataValue : DataValue) :
    KeepsPromise env metric.model dataValue (metric.decode env dataValue) ↔
      dataValue.IsBad ∨ dataValue.IsEmpty ∨
        ∃ raw, dataValue.value = some raw ∧ ReadsWell env metric.model (env.jsonLoads raw) := by
  unfold Metric.decode
  split
  · next name hbad => exact iff_of_true rfl (.inl ⟨name, hbad⟩)
  · next hgood =>
      have hnotBad : ¬ dataValue.IsBad := fun ⟨name, hbad⟩ => hgood name hbad
      split
      · next hnone =>
          have hempty : dataValue.IsEmpty := fun raw hraw => nomatch hnone.symm.trans hraw
          exact iff_of_true (.inl ⟨hempty, rfl⟩) (.inr (.inl hempty))
      · next raw hraw =>
          split
          · next hfalsy =>
              have hempty : dataValue.IsEmpty := by
                intro raw' hraw'
                cases hraw.symm.trans hraw'
                simpa using hfalsy
              exact iff_of_true (.inl ⟨hempty, rfl⟩) (.inr (.inl hempty))
          · next htruthy =>
              have hnotEmpty : ¬ dataValue.IsEmpty := by
                intro hempty
                rw [hempty raw hraw] at htruthy
                exact htruthy rfl
              rw [good_iff_readsWell hnotBad hnotEmpty hraw]
              cases hloads : env.jsonLoads raw with
              | error e =>
                  dsimp only
                  split
                  · next hkind =>
                      have he : IsValueError e := by simp [IsValueError, Exc.isValueError, hkind]
                      exact iff_of_true rfl he
                  · exact Iff.rfl
              | ok payload =>
                  cases payload with
                  | arr items => exact mapM_keepsPromise_iff hraw hloads
                  | _ => exact iff_of_false (not_keepsPromise_of_not_arr hnotEmpty hraw hloads nofun) id

def nullAndObject : Externals := .ofTexts [("null", .null), ("\x7b\x7d", .obj [])]

/-- `null` raises a `TypeError`, and an empty object is taken for an empty
array. -/
theorem decode_nullAndObject :
    let cpu : Metric :=
      { name := "cpu", node_name := "CPU", model := .cpuUsage, table_name := "cpu_usage" }
    cpu.decode nullAndObject (.good (.str "null")) =
        .error ⟨.typeError, "object is not iterable"⟩ ∧
      cpu.decode nullAndObject (.good (.str "\x7b\x7d")) = .ok [] ∧
      ¬ KeepsPromise nullAndObject .cpuUsage (.good (.str "null"))
        (cpu.decode nullAndObject (.good (.str "null"))) ∧
      ¬ KeepsPromise nullAndObject .cpuUsage (.good (.str "\x7b\x7d"))
        (cpu.decode nullAndObject (.good (.str "\x7b\x7d"))) := by
  intro cpu
  have hnull : cpu.decode nullAndObject (.good (.str "null")) =
      .error ⟨.typeError, "object is not iterable"⟩ := rfl
  have hobject : cpu.decode nullAndObject (.good (.str "\x7b\x7d")) = .ok [] := rfl
  refine ⟨hnull, hobject, fun hkeeps => ?_, fun hkeeps => ?_⟩
  · rw [hnull] at hkeeps
    cases hkeeps
  · rw [hobject] at hkeeps
    rcases hkeeps with ⟨hempty, -⟩ | ⟨raw, items, hraw, hloads, -⟩
    · cases hempty _ rfl
    · cases hraw
      cases hloads

end KepServerLogger.Lib
