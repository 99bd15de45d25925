import KepServerLogger.Proofs.Drains
import KepServerLogger.Proofs.WireRoundTrip
import KepServerLogger.Py.JsonLength

/-!
# How large a publish of the errors gets

One publish writes at most so many errors, and of each traceback at most so
many characters. Those limits bound the text only together with a limit on
what is logged: the message of a record, to which the text of its exception is
added, goes into the text at its full length. So the text that is written is
bounded exactly if the messages and the exceptions are.
-/

namespace KepServerLogger.Lib

open KepServerLogger.Py

def LogRecord.NamesWithin (names : Nat) (record : LogRecord) : Prop :=
  record.name.length ≤ names ∧ record.levelname.length ≤ names

/-- The message, and what the exception says, if there is one. -/
def LogRecord.TextsWithin (texts : Nat) (record : LogRecord) : Prop :=
  record.message.length ≤ texts ∧
    ∀ exc ∈ record.exc_info, exc.type_name.length ≤ texts ∧ exc.text.length ≤ texts

/-- Where only such records are logged, no publish of what one drain has
returned writes a longer text. -/
def PublishesWithin (P : LogRecord → Prop) (bound : Nat) : Prop :=
  ∀ tr s, Run ErrorDrains.step .start tr s →
    (∀ p ∈ tr, ∀ record, p.2 = .emit record → P record) →
      ∀ errors ∈ s.returned, errors ≠ [] → ∀ text,
        Metric.encode (errors.map .agentError) = .ok text → text.length ≤ bound

variable {P : LogRecord → Prop} {record : LogRecord} {names texts bound : Nat}

/-! ## What is in an error -/

theorem length_bracketGroup {s group rest : List Char} (h : bracketGroup s = some (group, rest)) :
    group.length ≤ s.length ∧ rest.length ≤ s.length := by
  unfold bracketGroup at h
  split at h
  · next cs =>
      split at h
      · next c tail htail =>
          cases h
          have hgroup := (List.takeWhile_sublist (p := (· ≠ ']')) (l := cs)).length_le
          have hrest := (List.dropWhile_sublist (p := (· ≠ ']')) (l := cs)).length_le
          rw [htail, List.length_cons] at hrest
          rw [List.length_cons]
          exact ⟨Nat.le_succ_of_le hgroup, by omega⟩
      · cases h
  · cases h

theorem length_mem_bracketGroups {n : Nat} {s group : List Char} (h : group ∈ bracketGroups n s) :
    group.length ≤ s.length := by
  induction n generalizing s with
  | zero => cases h
  | succ n ih =>
      rw [bracketGroups] at h
      split at h
      · cases h
      · next first rest hfirst =>
          obtain ⟨hlength, hrest⟩ := length_bracketGroup hfirst
          rcases List.mem_cons.mp h with rfl | h
          · exact hlength
          · exact Nat.le_trans (ih h)
              (Nat.le_trans (List.dropWhile_sublist _).length_le hrest)

theorem length_componentTag {message component : String}
    (h : componentTag message = some component) : component.length ≤ message.length := by
  unfold componentTag at h
  obtain ⟨group, hgroup, rfl⟩ := Option.map_eq_some_iff.mp h
  have hmem := (List.mem_filter.mp (List.mem_of_getLast? hgroup)).1
  have hlength := length_mem_bracketGroups hmem
  rw [String.length_toList] at hlength
  rw [String.length_ofList]
  exact hlength

theorem length_lastChars (n : Nat) (s : String) : (lastChars n s).length ≤ n := by
  unfold lastChars
  rw [String.length_ofList, List.length_drop]
  omega

theorem length_isoformat (u : Utc) : (u.toDatetime.isoformat 'T').length ≤ 32 := by
  unfold Utc.toDatetime Datetime.isoformat isoClockText isoOffsetText Offset.utc
  dsimp only
  split <;> simp [length_isoDateText]

/-- The message of the error is what was logged and what the exception says. -/
theorem length_message (record : LogRecord) :
    record.agentError.message.length =
      record.message.length +
        record.exc_info.elim 0 fun exc => exc.type_name.length + exc.text.length + 4 := by
  unfold LogRecord.agentError
  cases record.exc_info with
  | none => rfl
  | some exc =>
      simp only [String.length_append, Option.elim_some]
      have hcolon : ": ".length = 2 := rfl
      omega

theorem length_message_le (h : record.TextsWithin texts) :
    record.agentError.message.length ≤ 3 * texts + 4 := by
  rw [length_message]
  obtain ⟨hmessage, hexc⟩ := h
  cases hinfo : record.exc_info with
  | none =>
      rw [Option.elim_none]
      omega
  | some exc =>
      obtain ⟨htype, htext⟩ := hexc exc hinfo
      rw [Option.elim_some]
      omega

theorem length_component (record : LogRecord) :
    record.agentError.component.length ≤ record.message.length + record.name.length := by
  show ((componentTag record.message).getD record.name).length ≤ _
  cases htag : componentTag record.message with
  | none => exact Nat.le_add_left _ _
  | some component => exact Nat.le_trans (length_componentTag htag) (Nat.le_add_right _ _)

/-! ## What is in a publish -/

/-- A bound on the text of one error. -/
def errorBound (names texts : Nat) : Nat :=
  12 * (maxErrorTracebackChars + 2 * names + 4 * texts) + 600

def publishBound (names texts : Nat) : Nat :=
  maxErrorsPerPublish * (errorBound names texts + 2) + 2

theorem length_key_le : ∀ key ∈ ["timestamp", "level", "component", "message", "traceback"],
    (Json.dumpsStr key).length ≤ 11 := by
  decide

theorem length_traceback (record : LogRecord) :
    (Json.dumpsText (record.agentError.traceback.elim .null .str)).length ≤
      12 * maxErrorTracebackChars + 4 := by
  show (Json.dumpsText ((record.exc_info.map fun exc =>
    lastChars maxErrorTracebackChars exc.formatted).elim .null .str)).length ≤ _
  cases record.exc_info with
  | none => exact Nat.le_add_left _ _
  | some exc =>
      have hlast := length_lastChars maxErrorTracebackChars exc.formatted
      have hdumps := Json.length_dumpsStr_le (lastChars maxErrorTracebackChars exc.formatted)
      show (Json.dumpsStr (lastChars maxErrorTracebackChars exc.formatted)).length ≤ _
      omega

theorem length_error_le (hnames : record.NamesWithin names) (htexts : record.TextsWithin texts) :
    (Json.dumpsText (.obj (OPCUAModel.agentError record.agentError).wireItem)).length ≤
      errorBound names texts := by
  have hpairs := Json.length_dumpsPairs_le (OPCUAModel.agentError record.agentError).wireItem
  rw [Json.dumpsText, List.length_append, List.length_cons, List.length_singleton]
  generalize (Json.dumpsPairs _).length = length at hpairs ⊢
  simp only [OPCUAModel.wireItem, OPCUAModel.wireFields, OPCUAModel.wireTimestamp, List.map_cons,
    List.sum_cons, List.map_nil, List.sum_nil, Json.dumpsText] at hpairs
  have hkeys := length_key_le
  simp only [List.forall_mem_cons] at hkeys
  have htimestamp := Json.length_dumpsStr_le
    (String.ofList (record.agentError.timestamp.toDatetime.isoformat 'T'))
  rw [String.length_ofList] at htimestamp
  have hiso := length_isoformat record.agentError.timestamp
  have hlevel := Json.length_dumpsStr_le record.agentError.level
  have hlevelname : record.agentError.level.length ≤ names := hnames.2
  have hcomponent := Json.length_dumpsStr_le record.agentError.component
  have hcomponent' := length_component record
  have hmessage := Json.length_dumpsStr_le record.agentError.message
  have hmessage' := length_message_le htexts
  have htraceback := length_traceback record
  have hname := hnames.1
  have htext := htexts.1
  unfold errorBound
  omega

theorem length_le_error (record : LogRecord) :
    record.agentError.message.length ≤
      (Json.dumpsText (.obj (OPCUAModel.agentError record.agentError).wireItem)).length := by
  have hmem : ("message", Json.str record.agentError.message) ∈
      (OPCUAModel.agentError record.agentError).wireItem := by
    simp [OPCUAModel.wireItem, OPCUAModel.wireFields]
  have hpairs := Json.length_le_dumpsPairs hmem
  have hstr := Json.le_length_dumpsStr record.agentError.message
  rw [Json.dumpsText, List.length_append, List.length_cons]
  exact Nat.le_trans (Nat.le_trans hstr hpairs) (by omega)

theorem length_encode {models : List OPCUAModel} {text : String}
    (h : Metric.encode models = .ok text) :
    text.length = (Json.dumpsItems (models.map fun m => .obj m.wireItem)).length + 2 := by
  rw [encode_eq] at h
  cases h
  unfold Json.dumps payload
  rw [String.length_ofList, Json.dumpsText, List.length_append, List.length_cons,
    List.length_singleton]

/-- What a drain returns was logged. -/
theorem ErrorDrains.logged {tr : List (ErrorDrains × Event)} {s : ErrorDrains}
    (h : Run step .start tr s) (hlogged : ∀ p ∈ tr, ∀ record, p.2 = .emit record → P record)
    {errors : List AgentError} (herrors : errors ∈ s.returned) {error : AgentError}
    (herror : error ∈ errors) : ∃ record, P record ∧ error = record.agentError := by
  have hmem : error ∈ s.returned.flatten ++ s.taken :=
    List.mem_append_left _ (List.mem_flatten.mpr ⟨errors, herrors, herror⟩)
  obtain ⟨⟨q, e⟩, hp, happended⟩ := List.mem_flatMap.mp ((drained h).2.1.mem_of_delivered hmem)
  cases e with
  | emit record => exact ⟨record, hlogged _ hp record rfl, List.mem_singleton.mp happended⟩
  | calls | operates | returns => cases happended

theorem publishesWithin
    (h : ∀ record, P record → record.NamesWithin names ∧ record.TextsWithin texts) :
    PublishesWithin P (publishBound names texts) := by
  intro tr s hrun hlogged errors herrors _ text htext
  have hcount := (ErrorDrains.drained hrun).2.2 errors herrors
  rw [length_encode htext]
  have hitems : ∀ x ∈ (errors.map OPCUAModel.agentError).map fun m => Json.obj m.wireItem,
      (Json.dumpsText x).length ≤ errorBound names texts := by
    intro x hx
    rw [List.map_map] at hx
    obtain ⟨error, herror, rfl⟩ := List.mem_map.mp hx
    obtain ⟨record, hP, rfl⟩ := ErrorDrains.logged hrun hlogged herrors herror
    exact length_error_le (h record hP).1 (h record hP).2
  have hlength := Json.length_dumpsItems_le hitems
  rw [List.length_map, List.length_map] at hlength
  have hmul := Nat.mul_le_mul_right (errorBound names texts + 2) hcount
  unfold publishBound
  omega

/-! ## The other direction -/

/-- One record, and a drain. -/
def publishOne (record : LogRecord) : List ErrorDrains.Event :=
  [.emit record, .calls, .operates, .operates, .operates, .returns]

theorem items_emit (record : LogRecord) :
    (ErrorBuffer.emit ∅ record).items = [record.agentError] := by
  unfold ErrorBuffer.emit
  rw [Deque.items_append (Nat.succ_pos 998), Deque.items_empty, List.nil_append]

theorem popleft_emit (record : LogRecord) :
    ∃ rest, (ErrorBuffer.emit ∅ record).popleft = some (record.agentError, rest) := by
  cases hpop : (ErrorBuffer.emit ∅ record).popleft with
  | none =>
      rw [Deque.popleft_eq_none, items_emit] at hpop
      cases hpop
  | some p =>
      obtain ⟨error, rest⟩ := p
      have hitems := Deque.popleft_conserves hpop
      rw [items_emit] at hitems
      obtain ⟨rfl, -⟩ := List.cons.inj hitems
      exact ⟨rest, rfl⟩

theorem run_publishOne (record : LogRecord) :
    ∃ tr s, Run ErrorDrains.step .start tr s ∧ tr.map Prod.snd = publishOne record ∧
      s.returned = [[record.agentError]] := by
  obtain ⟨rest, hpop⟩ := popleft_emit record
  have hexecute : ∃ tr s, execute ErrorDrains.step .start (publishOne record) = some (tr, s) ∧
      s.returned = [[record.agentError]] := by
    simp [execute, publishOne, ErrorDrains.step, ErrorDrains.start, Drain.step, items_emit, hpop,
      maxErrorsPerPublish]
  obtain ⟨tr, s, h, hreturned⟩ := hexecute
  exact ⟨tr, s, .of_execute h, map_snd_execute h, hreturned⟩

/-- A message that is logged is written. -/
theorem PublishesWithin.length_message_le (h : PublishesWithin P bound) (hP : P record) :
    record.agentError.message.length ≤ bound := by
  obtain ⟨tr, s, hrun, hevents, hreturned⟩ := run_publishOne record
  have hlogged : ∀ p ∈ tr, ∀ record, p.2 = .emit record → P record := by
    intro p hp record' hemit
    have hmem : p.2 ∈ publishOne record := by
      rw [← hevents]
      exact List.mem_map_of_mem hp
    rw [hemit] at hmem
    simp only [publishOne, List.mem_cons, ErrorDrains.Event.emit.injEq, reduceCtorEq,
      List.not_mem_nil, or_false] at hmem
    rw [hmem]
    exact hP
  have hwritten := h tr s hrun hlogged [record.agentError] (by rw [hreturned]; exact List.mem_singleton_self _)
    (List.cons_ne_nil _ _) _ (encode_eq _)
  rw [length_encode (encode_eq _)] at hwritten
  have hitem : Json.obj (OPCUAModel.agentError record.agentError).wireItem ∈
      ([record.agentError].map OPCUAModel.agentError).map fun m => Json.obj m.wireItem :=
    List.mem_singleton_self _
  have hle := Nat.le_trans (length_le_error record) (Json.length_le_dumpsItems hitem)
  omega

/-- With names that are not too long, there is a bound on what one publish
writes exactly if there is one on what is logged. -/
theorem published_bounded_iff
    (hnames : ∀ record, P record → record.NamesWithin names) :
    (∃ bound, PublishesWithin P bound) ↔ ∃ texts, ∀ record, P record → record.TextsWithin texts := by
  constructor
  · rintro ⟨bound, hbound⟩
    refine ⟨bound, fun record hP => ?_⟩
    have hmessage := hbound.length_message_le hP
    rw [length_message] at hmessage
    refine ⟨by omega, fun exc hexc => ?_⟩
    rw [Option.mem_def.mp hexc, Option.elim_some] at hmessage
    omega
  · rintro ⟨texts, htexts⟩
    exact ⟨_, publishesWithin fun record hP => ⟨hnames record hP, htexts record hP⟩⟩

theorem published_bounded_slowDisk :
    (∃ bound, PublishesWithin (fun record => record = slowDisk 1) bound) ↔
      ∃ texts, ∀ record, record = slowDisk 1 → record.TextsWithin texts := by
  have hnames : ∀ record, record = slowDisk 1 → record.NamesWithin 8 := by
    rintro _ rfl
    exact ⟨by decide, by decide⟩
  exact published_bounded_iff hnames

/-- A warning with a message of this length. -/
def longMessage (length : Nat) : LogRecord :=
  { slowDisk 0 with message := String.ofList (List.replicate length 'x') }

/-- The lengths of the names do not bound what a publish writes. -/
theorem names_do_not_bound_publish :
    ¬ ∃ bound : Nat → Nat, ∀ names,
      PublishesWithin (fun record => record.NamesWithin names) (bound names) := by
  rintro ⟨bound, hbound⟩
  have hnames : (longMessage (bound 8 + 1)).NamesWithin 8 :=
    (by decide : (slowDisk 0).name.length ≤ 8 ∧ (slowDisk 0).levelname.length ≤ 8)
  have hmessage := (hbound 8).length_message_le hnames
  rw [length_message] at hmessage
  have hlength : (longMessage (bound 8 + 1)).message.length = bound 8 + 1 := by
    show (String.ofList (List.replicate (bound 8 + 1) 'x')).length = _
    rw [String.length_ofList, List.length_replicate]
  omega

end KepServerLogger.Lib
