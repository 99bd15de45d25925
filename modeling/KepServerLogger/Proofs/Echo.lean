import KepServerLogger.Base.Past
import KepServerLogger.Lib.Heartbeat

/-!
# What a round trip measures

A value that comes back is taken for the echo of the last send of it. That is
what it is as long as a value is sent only when no copy of it is still on its
way: then everything on its way goes back to the last send of its value, or,
where there was none, to an earlier session.

A copy can also wait in the send tag, for the other side to subscribe. It is
the last send's unless a later write of the same value never arrived.
-/

namespace KepServerLogger.Lib.HeartbeatPair

open KepServerLogger.Py

variable {millis : Int → PyFloat} {pair : String} {max_heartbeat max_rtt : Int} {left : Left}
  {s s' : HeartbeatPair} {e : Event} {tr : List (HeartbeatPair × Event)}

/-- The last send of a value. -/
def lastSend (s : HeartbeatPair) (v : Int) : Option Nat := lastIndex (·.1 = v) s.sent

def onTheWay (s : HeartbeatPair) : List Beat := s.writes ++ s.unread ++ s.echoes ++ s.arrivals

/-- Nothing of an earlier send is taken for one of this send. -/
def undisturbed : HeartbeatPair × Event → Bool
  | (s, .send _ _) => s.onTheWay.all (·.value ≠ s.sender.updateHeartbeat.heartbeat)
  | (s, .echoStart) => s.sendTag.origin = s.lastSend s.sendTag.value
  | _ => true

/-- What a step writes to the receive tag. -/
def echoed : HeartbeatPair × Event → Option Beat
  | (s, .echoArrives i) => s.echoes[i]?
  | _ => none

/-- The `HeartbeatRTT` that a step records. -/
def recorded (millis : Int → PyFloat) : HeartbeatPair × Event → Option HeartbeatRTT
  | (s, .notified now monotonic) =>
      match s.arrivals with
      | beat :: _ => (s.sender.datachangeNotification millis beat.value now monotonic).2.1
      | [] => none
  | _ => none

/-- What a step records is the time that its instant is after the last send of
the value, and the other side has written the value in answer to that send. -/
def Measured (millis : Int → PyFloat) (past : List (HeartbeatPair × Event))
    (p : HeartbeatPair × Event) : Prop :=
  ∀ rtt ∈ recorded millis p, ∃ k sent_at now monotonic,
    p.2 = .notified now monotonic ∧ p.1.lastSend rtt.value = some k ∧
    p.1.sent[k]? = some (rtt.value, sent_at) ∧ rtt.rtt_ms = millis (monotonic - sent_at) ∧
    ∃ q ∈ past, echoed q = some ⟨rtt.value, some k⟩

/-- What is on its way goes back to the last send of its value. -/
structure Current (tr : List (HeartbeatPair × Event)) (s : HeartbeatPair) : Prop where
  fresh : ∀ b ∈ s.onTheWay, b.origin = s.lastSend b.value
  unstarted : s.started = false → s.sent = [] ∧ s.receiveTag.origin = none
  sent_at : ∀ v t, s.sender.sent_at_map.get? v = some t →
    ∃ k, s.lastSend v = some k ∧ s.sent[k]? = some (v, t)
  answered : ∀ b ∈ s.arrivals, ∀ k, b.origin = some k → ∃ q ∈ tr, echoed q = some b

/-- What a step does, with what it needs. -/
inductive Stepped (millis : Int → PyFloat) (s : HeartbeatPair) : Event → HeartbeatPair → Prop
  | start (hstarted : s.started = false) :
      Stepped millis s .start { s with started := true, arrivals := [s.receiveTag] }
  | send {monotonic : Int} {writes : Bool} (hstarted : s.started = true) :
      Stepped millis s (.send monotonic writes)
        { s with
          sender := s.sender.sendHeartbeat monotonic
          sent := s.sent ++ [((s.sender.sendHeartbeat monotonic).heartbeat, monotonic)]
          writes := s.writes ++
            if writes then [⟨(s.sender.sendHeartbeat monotonic).heartbeat, some s.sent.length⟩]
            else [] }
  | writeArrives {i : Nat} {beat : Beat} (hbeat : s.writes[i]? = some beat) :
      Stepped millis s (.writeArrives i)
        { s with
          writes := s.writes.eraseIdx i
          sendTag := beat
          unread := s.unread ++ change s.echoing s.sendTag beat }
  | writeLost {i : Nat} {beat : Beat} (hbeat : s.writes[i]? = some beat) :
      Stepped millis s (.writeLost i) { s with writes := s.writes.eraseIdx i }
  | echoStart (hechoing : s.echoing = false) :
      Stepped millis s .echoStart { s with echoing := true, unread := [s.sendTag] }
  | echoStop (hechoing : s.echoing = true) :
      Stepped millis s .echoStop { s with echoing := false, unread := [] }
  | echoValue {beat : Beat} {rest : List Beat} (hunread : s.unread = beat :: rest) :
      Stepped millis s .echoValue { s with unread := rest, echoes := s.echoes ++ [beat] }
  | echoArrives {i : Nat} {beat : Beat} (hbeat : s.echoes[i]? = some beat) :
      Stepped millis s (.echoArrives i)
        { s with
          echoes := s.echoes.eraseIdx i
          receiveTag := beat
          arrivals := s.arrivals ++ change s.started s.receiveTag beat }
  | echoLost {i : Nat} {beat : Beat} (hbeat : s.echoes[i]? = some beat) :
      Stepped millis s (.echoLost i) { s with echoes := s.echoes.eraseIdx i }
  | notified {now : Utc} {monotonic : Int} {beat : Beat} {rest : List Beat}
      (harrivals : s.arrivals = beat :: rest) :
      Stepped millis s (.notified now monotonic)
        { s with
          arrivals := rest
          sender := (s.sender.datachangeNotification millis beat.value now monotonic).1 }

theorem step_cases (hs : step millis s e = some s') : Stepped millis s e s' := by
  cases e with
  | start =>
      simp only [step] at hs
      split at hs
      · cases hs
      · next hstarted =>
          cases hs
          exact .start (Bool.not_eq_true _ ▸ hstarted)
  | send monotonic writes =>
      simp only [step] at hs
      split at hs
      · next hstarted =>
          cases hs
          exact .send hstarted
      · cases hs
  | writeArrives i =>
      simp only [step] at hs
      split at hs
      · next beat hbeat =>
          cases hs
          exact .writeArrives hbeat
      · cases hs
  | writeLost i =>
      simp only [step] at hs
      split at hs
      · next beat hbeat =>
          cases hs
          exact .writeLost hbeat
      · cases hs
  | echoStart =>
      simp only [step] at hs
      split at hs
      · cases hs
      · next hechoing =>
          cases hs
          exact .echoStart (Bool.not_eq_true _ ▸ hechoing)
  | echoStop =>
      simp only [step] at hs
      split at hs
      · next hechoing =>
          cases hs
          exact .echoStop hechoing
      · cases hs
  | echoValue =>
      simp only [step] at hs
      split at hs
      · next beat rest hunread =>
          cases hs
          exact .echoValue hunread
      · cases hs
  | echoArrives i =>
      simp only [step] at hs
      split at hs
      · next beat hbeat =>
          cases hs
          exact .echoArrives hbeat
      · cases hs
  | echoLost i =>
      simp only [step] at hs
      split at hs
      · next beat hbeat =>
          cases hs
          exact .echoLost hbeat
      · cases hs
  | notified now monotonic =>
      simp only [step] at hs
      split at hs
      · next beat rest harrivals =>
          cases hs
          exact .notified harrivals
      · cases hs

theorem mem_onTheWay {b : Beat} :
    b ∈ s.onTheWay ↔ b ∈ s.writes ∨ b ∈ s.unread ∨ b ∈ s.echoes ∨ b ∈ s.arrivals := by
  unfold onTheWay
  simp only [List.mem_append, or_assoc]

theorem mem_change {subscribed : Bool} {old new b : Beat} (h : b ∈ change subscribed old new) :
    b = new := by
  unfold change at h
  split at h
  · exact List.mem_singleton.mp h
  · cases h

theorem current_new : Current [] (new pair max_heartbeat max_rtt left) := by
  refine ⟨fun b hb => ?_, fun _ => ⟨rfl, rfl⟩, fun v t hv => ?_, fun b hb => ?_⟩
  · have horigin : b.origin = none := by
      simp only [onTheWay, new, List.mem_append, List.mem_map, List.not_mem_nil, or_false] at hb
      rcases hb with (⟨_, _, rfl⟩ | ⟨_, _, rfl⟩) | ⟨_, _, rfl⟩ <;> rfl
    rw [horigin]
    rfl
  · cases hv
  · cases hb

/-- A step that neither sends nor reads a notification of the sender. -/
theorem Current.quiet (h : Current tr s) (hsender : s'.sender = s.sender)
    (hsent : s'.sent = s.sent)
    (hway : ∀ b ∈ s'.onTheWay, b ∈ s.onTheWay ∨ b.origin = s.lastSend b.value)
    (hunstarted : s'.started = false →
      s.started = false ∧ (s'.receiveTag = s.receiveTag ∨ s'.receiveTag ∈ s.onTheWay))
    (harrivals : ∀ b ∈ s'.arrivals,
      b ∈ s.arrivals ∨ b.origin = none ∨ echoed (s, e) = some b) :
    Current (tr ++ [(s, e)]) s' := by
  have hlast : s'.lastSend = s.lastSend := by
    funext v
    rw [lastSend, lastSend, hsent]
  constructor
  · intro b hb
    rw [hlast]
    rcases hway b hb with hold | hfresh
    · exact h.fresh b hold
    · exact hfresh
  · intro hstarted
    obtain ⟨hstarted, htag⟩ := hunstarted hstarted
    obtain ⟨hempty, hnone⟩ := h.unstarted hstarted
    refine ⟨hsent.trans hempty, ?_⟩
    rcases htag with htag | hmem
    · rw [htag, hnone]
    · rw [h.fresh _ hmem, lastSend, hempty]
      rfl
  · rw [hsender, hlast, hsent]
    exact h.sent_at
  · intro b hb k hk
    rcases harrivals b hb with hold | hnone | hnow
    · obtain ⟨q, hq, hechoed⟩ := h.answered b hold k hk
      exact ⟨q, List.mem_append_left _ hq, hechoed⟩
    · rw [hnone] at hk
      cases hk
    · exact ⟨(s, e), List.mem_append_right _ List.mem_cons_self, hnow⟩

/-- A step after which nothing is on its way that was not, and that the sender
does not take part in. -/
theorem Current.moved (h : Current tr s) (hsender : s'.sender = s.sender) (hsent : s'.sent = s.sent)
    (hstarted : s'.started = s.started) (htag : s'.receiveTag = s.receiveTag)
    (harrivals : s'.arrivals = s.arrivals) (hway : ∀ b ∈ s'.onTheWay, b ∈ s.onTheWay) :
    Current (tr ++ [(s, e)]) s' := by
  refine h.quiet hsender hsent (fun b hb => .inl (hway b hb)) (fun hunstarted => ?_) fun b hb => ?_
  · exact ⟨hstarted.symm.trans hunstarted, .inl htag⟩
  · rw [harrivals] at hb
    exact .inl hb

theorem lastSend_snoc {v t : Int} (hsent : s'.sent = s.sent ++ [(v, t)]) (w : Int) :
    s'.lastSend w = if v = w then some s.sent.length else s.lastSend w := by
  rw [lastSend, lastSend, hsent, lastIndex_snoc]
  simp only [decide_eq_true_eq]

theorem mem_append_change {subscribed : Bool} {old new b : Beat} {beats : List Beat}
    (h : b ∈ beats ++ change subscribed old new) : b ∈ beats ∨ b = new :=
  (List.mem_append.mp h).imp_right mem_change

/-- A send of a value that nothing on its way has. -/
theorem Current.send (h : Current tr s) {monotonic : Int} {writes : Bool}
    (hs : Stepped millis s (.send monotonic writes) s')
    (hclear : undisturbed (s, .send monotonic writes) = true) :
    Current (tr ++ [(s, .send monotonic writes)]) s' := by
  simp only [undisturbed, List.all_eq_true, decide_eq_true_eq] at hclear
  set v := s.sender.updateHeartbeat.heartbeat with hv
  obtain ⟨hstarted, hsent, hmap, harrivals, hway⟩ :
      s'.started = true ∧ s'.sent = s.sent ++ [(v, monotonic)] ∧
        s'.sender.sent_at_map = s.sender.sent_at_map.set v monotonic ∧ s'.arrivals = s.arrivals ∧
        ∀ b ∈ s'.onTheWay, b = ⟨v, some s.sent.length⟩ ∨ b ∈ s.onTheWay := by
    cases hs with
    | send hstarted =>
        refine ⟨hstarted, rfl, rfl, rfl, fun b hb => ?_⟩
        rw [mem_onTheWay] at hb ⊢
        rcases hb with hb | hb
        · rcases List.mem_append.mp hb with hb | hb
          · exact .inr (.inl hb)
          · split at hb
            · exact .inl (List.mem_singleton.mp hb)
            · cases hb
        · exact .inr (.inr hb)
  have hlast := lastSend_snoc hsent
  constructor
  · intro b hb
    rw [hlast]
    rcases hway b hb with rfl | hold
    · rw [if_pos rfl]
    · rw [if_neg fun heq => hclear b hold heq.symm]
      exact h.fresh b hold
  · intro hunstarted
    rw [hstarted] at hunstarted
    cases hunstarted
  · intro w t hw
    rw [hlast, hsent]
    rw [hmap, Dict.get?_set] at hw
    split at hw
    · next heq =>
        cases hw
        rw [if_pos heq, heq]
        exact ⟨s.sent.length, rfl, List.getElem?_concat_length⟩
    · next hne =>
        obtain ⟨k, hk, hget⟩ := h.sent_at w t hw
        rw [if_neg hne]
        obtain ⟨hlt, _⟩ := List.getElem?_eq_some_iff.mp hget
        exact ⟨k, hk, by rw [List.getElem?_append_left hlt, hget]⟩
  · intro b hb k hk
    rw [harrivals] at hb
    obtain ⟨q, hq, hechoed⟩ := h.answered b hb k hk
    exact ⟨q, List.mem_append_left _ hq, hechoed⟩

/-- A notification of the sender is read; an instant may leave the map. -/
theorem Current.notified (h : Current tr s) {now : Utc} {monotonic : Int}
    (hs : Stepped millis s (.notified now monotonic) s') :
    Current (tr ++ [(s, .notified now monotonic)]) s' := by
  obtain ⟨hstarted, htag, hsent, hmap, harrivals, hway⟩ :
      s'.started = s.started ∧ s'.receiveTag = s.receiveTag ∧ s'.sent = s.sent ∧
        (∀ v t, s'.sender.sent_at_map.get? v = some t → s.sender.sent_at_map.get? v = some t) ∧
        (∀ b ∈ s'.arrivals, b ∈ s.arrivals) ∧ ∀ b ∈ s'.onTheWay, b ∈ s.onTheWay := by
    cases hs with
    | @notified _ _ beat rest harrivals =>
        have hmem : ∀ b ∈ rest, b ∈ s.arrivals := by
          rw [harrivals]
          exact fun b => List.mem_cons_of_mem _
        refine ⟨rfl, rfl, rfl, fun v t hv => ?_, hmem, fun b hb => ?_⟩
        · simp only [SystemHeartbeatHandler.datachangeNotification,
            SystemHeartbeatHandler.receive] at hv
          split at hv
          · rw [Dict.get?_erase] at hv
            split at hv
            · cases hv
            · exact hv
          · exact hv
        · rw [mem_onTheWay] at hb ⊢
          exact hb.imp_right (.imp_right (.imp_right (hmem b)))
  have hlast : s'.lastSend = s.lastSend := by
    funext v
    rw [lastSend, lastSend, hsent]
  constructor
  · intro b hb
    rw [hlast]
    exact h.fresh b (hway b hb)
  · intro hunstarted
    rw [htag, hsent]
    exact h.unstarted (hstarted.symm.trans hunstarted)
  · intro v t hv
    rw [hlast, hsent]
    exact h.sent_at v t (hmap v t hv)
  · intro b hb k hk
    obtain ⟨q, hq, hechoed⟩ := h.answered b (harrivals b hb) k hk
    exact ⟨q, List.mem_append_left _ hq, hechoed⟩

/-- The subscription of the sender: it gets the receive tag as an earlier
session left it. -/
theorem Current.started (h : Current tr s) (hstarted : s.started = false) :
    Current (tr ++ [(s, .start)]) { s with started := true, arrivals := [s.receiveTag] } := by
  obtain ⟨hempty, hnone⟩ := h.unstarted hstarted
  refine h.quiet rfl rfl (fun b hb => ?_) (fun hu => nomatch hu) fun b hb => ?_
  · rw [mem_onTheWay] at hb ⊢
    rcases hb with hb | hb | hb | hb
    · exact .inl (.inl hb)
    · exact .inl (.inr (.inl hb))
    · exact .inl (.inr (.inr (.inl hb)))
    · rw [List.mem_singleton.mp hb, hnone, lastSend, hempty]
      exact .inr rfl
  · rw [List.mem_singleton.mp hb]
    exact .inr (.inl hnone)

/-- A value of the other side arrives at the receive tag. -/
theorem Current.echoArrives (h : Current tr s) {i : Nat} {beat : Beat}
    (hbeat : s.echoes[i]? = some beat) :
    Current (tr ++ [(s, .echoArrives i)])
      { s with
        echoes := s.echoes.eraseIdx i
        receiveTag := beat
        arrivals := s.arrivals ++ change s.started s.receiveTag beat } := by
  have hway : beat ∈ s.onTheWay :=
    mem_onTheWay.mpr (.inr (.inr (.inl (List.mem_of_getElem? hbeat))))
  refine h.quiet rfl rfl (fun b hb => .inl ?_) (fun hu => ⟨hu, .inr hway⟩) fun b hb => ?_
  · rw [mem_onTheWay] at hb
    rcases hb with hb | hb | hb | hb
    · exact mem_onTheWay.mpr (.inl hb)
    · exact mem_onTheWay.mpr (.inr (.inl hb))
    · exact mem_onTheWay.mpr (.inr (.inr (.inl (List.mem_of_mem_eraseIdx hb))))
    · rcases mem_append_change hb with hb | rfl
      · exact mem_onTheWay.mpr (.inr (.inr (.inr hb)))
      · exact hway
  · rcases mem_append_change hb with hb | rfl
    · exact .inl hb
    · exact .inr (.inr hbeat)

theorem Current.step (h : Current tr s) (hs : s.step millis e = some s')
    (hclear : undisturbed (s, e) = true) : Current (tr ++ [(s, e)]) s' := by
  cases step_cases hs with
  | start hstarted => exact h.started hstarted
  | send => exact h.send (step_cases hs) hclear
  | writeArrives hbeat =>
      refine h.moved rfl rfl rfl rfl rfl fun b hb => ?_
      rw [mem_onTheWay] at hb ⊢
      rcases hb with hb | hb | hb
      · exact .inl (List.mem_of_mem_eraseIdx hb)
      · rcases mem_append_change hb with hb | rfl
        · exact .inr (.inl hb)
        · exact .inl (List.mem_of_getElem? hbeat)
      · exact .inr (.inr hb)
  | writeLost =>
      refine h.moved rfl rfl rfl rfl rfl fun b hb => ?_
      rw [mem_onTheWay] at hb ⊢
      exact hb.imp_left List.mem_of_mem_eraseIdx
  | echoStart =>
      simp only [undisturbed, decide_eq_true_eq] at hclear
      refine h.quiet rfl rfl (fun b hb => ?_) (fun hu => ⟨hu, .inl rfl⟩) fun b hb => .inl hb
      rw [mem_onTheWay] at hb ⊢
      rcases hb with hb | hb | hb
      · exact .inl (.inl hb)
      · rw [List.mem_singleton.mp hb]
        exact .inr hclear
      · exact .inl (.inr (.inr hb))
  | echoStop =>
      refine h.moved rfl rfl rfl rfl rfl fun b hb => ?_
      rw [mem_onTheWay] at hb ⊢
      exact hb.imp_right fun hb => hb.imp_left fun hb => absurd hb List.not_mem_nil
  | @echoValue beat rest hunread =>
      refine h.moved rfl rfl rfl rfl rfl fun b hb => ?_
      rw [mem_onTheWay] at hb ⊢
      rw [hunread]
      rcases hb with hb | hb | hb | hb
      · exact .inl hb
      · exact .inr (.inl (List.mem_cons_of_mem _ hb))
      · rcases List.mem_append.mp hb with hb | hb
        · exact .inr (.inr (.inl hb))
        · rw [List.mem_singleton.mp hb]
          exact .inr (.inl List.mem_cons_self)
      · exact .inr (.inr (.inr hb))
  | echoArrives hbeat => exact h.echoArrives hbeat
  | echoLost =>
      refine h.moved rfl rfl rfl rfl rfl fun b hb => ?_
      rw [mem_onTheWay] at hb ⊢
      exact hb.imp_right fun hb => hb.imp_right fun hb => hb.imp_left List.mem_of_mem_eraseIdx
  | notified => exact h.notified (step_cases hs)

theorem current_run (h : Run (step millis) (new pair max_heartbeat max_rtt left) tr s)
    (hclear : ∀ p ∈ tr, undisturbed p = true) : Current tr s := by
  induction h with
  | nil => exact current_new
  | snoc _ hs ih =>
      rw [List.forall_mem_append, List.forall_mem_singleton] at hclear
      exact (ih hclear.1).step hs hclear.2

theorem Current.measured (h : Current tr s) : Measured millis tr (s, e) := by
  intro rtt hrtt
  cases e with
  | notified now monotonic =>
      simp only [recorded] at hrtt
      split at hrtt
      · next beat rest harrivals =>
          have hbeat : beat ∈ s.arrivals := by
            rw [harrivals]
            exact List.mem_cons_self
          have hfresh := h.fresh beat (mem_onTheWay.mpr (.inr (.inr (.inr hbeat))))
          simp only [SystemHeartbeatHandler.datachangeNotification,
            SystemHeartbeatHandler.receive] at hrtt
          split at hrtt
          · next sent_at hget =>
              cases hrtt
              obtain ⟨k, hlast, hsent⟩ := h.sent_at _ _ hget
              obtain ⟨q, hq, hechoed⟩ := h.answered beat hbeat k (hfresh.trans hlast)
              refine ⟨k, sent_at, now, monotonic, rfl, hlast, hsent, rfl, q, hq, ?_⟩
              rw [hechoed, ← hlast, ← hfresh]
          · cases hrtt
      · cases hrtt
  | _ => cases hrtt

/-- In every run whose sends are of values no earlier copy of which is on its
way, and in which the other side never subscribes to a copy that a lost write
should have replaced: each `HeartbeatRTT` is the round trip of the last send of
its value, which the other side has answered. -/
theorem measured_run (h : Run (step millis) (new pair max_heartbeat max_rtt left) tr s)
    (hclear : ∀ p ∈ tr, undisturbed p = true) : EachWithPast (Measured millis) tr := by
  induction h with
  | nil => exact .nil
  | snoc hrun _ ih =>
      rw [List.forall_mem_append, List.forall_mem_singleton] at hclear
      exact (ih hclear.1).snoc (current_run hrun hclear.1).measured

/-- The receive tag still has the value of the first beat. -/
def leftAtOne : Left where
  sendTag := 0
  receiveTag := 1
  echoing := false
  writes := []
  unread := []
  echoes := []

def noticedAt : Utc := ⟨⟨2026, 1, 1, 12, 0, 5, 0, by decide⟩⟩

def someMillis (_ : Int) : PyFloat := ⟨"500.0"⟩

/-- The first beat goes out before the notification of what the tag already
holds comes in. -/
def initialValue : List Event := [.start, .send 0 true, .notified noticedAt 500000000]

theorem execute_initialValue :
    (execute (step someMillis) (new "agent" 255 2000000000 leftAtOne) initialValue).isSome =
      true := by
  decide

theorem initialValue_recorded :
    let run := executed (step someMillis) (new "agent" 255 2000000000 leftAtOne) initialValue
      execute_initialValue
    Run (step someMillis) (new "agent" 255 2000000000 leftAtOne) run.1 run.2 ∧
      run.1.map (recorded someMillis) = [none, none, some ⟨noticedAt, "agent", 1, ⟨"500.0"⟩⟩] ∧
      run.1.map echoed = [none, none, none] ∧
      ¬ EachWithPast (Measured someMillis) run.1 := by
  intro run
  have hechoed : ∀ q ∈ run.1, echoed q = none := by decide
  refine ⟨Run.executed execute_initialValue, by decide, by decide, fun hmeasured => ?_⟩
  obtain ⟨_, _, _, _, _, _, _, _, q, hq, hsome⟩ :=
    hmeasured.getLast (by decide) ⟨noticedAt, "agent", 1, ⟨"500.0"⟩⟩ (by decide)
  rw [hechoed q (List.dropLast_subset _ hq)] at hsome
  cases hsome

/-- Both sides read what the tags hold before the first beat, which then makes
its round trip. -/
def roundTrip : List Event :=
  [.echoStart, .echoValue, .echoArrives 0, .start, .notified noticedAt 0, .send 1000000000 true,
    .writeArrives 0, .echoValue, .echoArrives 0, .notified noticedAt 1500000000]

theorem execute_roundTrip :
    (execute (step someMillis) (new "agent" 255 2000000000 leftAtOne) roundTrip).isSome = true := by
  decide

theorem measured_roundTrip :
    let run := executed (step someMillis) (new "agent" 255 2000000000 leftAtOne) roundTrip
      execute_roundTrip
    (run.1.filterMap (recorded someMillis)).length = 1 ∧
      EachWithPast (Measured someMillis) run.1 := by
  intro run
  exact ⟨by decide, measured_run (Run.executed execute_roundTrip) (by decide)⟩

end KepServerLogger.Lib.HeartbeatPair
