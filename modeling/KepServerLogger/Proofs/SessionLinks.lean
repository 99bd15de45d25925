import KepServerLogger.Proofs.ClientMapSteps

/-!
# Is a session connected, and if not, since when and why

A session has three fields for this. Four kinds of events write them, and no
two kinds write the same: a request that takes the session up again clears all
three, a Good response makes it active and leaves what there is, a refused
activation puts it out and says why but not when, a close or a fault says all.
So what the fields are at the end is what these changes make of them, one
after the other, whichever way an event found the session.
-/

namespace KepServerLogger.Lib

open KepServerLogger.Py

structure Link where
  active : Bool
  disconnected_at : String
  disconnect_reason : String
  deriving DecidableEq

inductive Change
  | request
  | complete
  | reject (serviceResult : String)
  | close (timestamp reason : String)
  deriving DecidableEq

namespace Change

/-- The changes that write `disconnected_at`. -/
def setsInstant : Change → Bool
  | request | close _ _ => true
  | complete | reject _ => false

/-- The changes that write `disconnect_reason`. -/
def setsReason : Change → Bool
  | request | reject _ | close _ _ => true
  | complete => false

end Change

namespace Link

def initial : Link := ⟨false, "", ""⟩

def apply (l : Link) : Change → Link
  | .request => ⟨false, "", ""⟩
  | .complete => { l with active := true }
  | .reject serviceResult =>
      { l with active := false, disconnect_reason := "Fault:" ++ serviceResult }
  | .close timestamp reason => ⟨false, timestamp, reason⟩

end Link

def ClientSession.link (s : ClientSession) : Link :=
  ⟨s.active, s.disconnected_at, s.disconnect_reason⟩

/-- The reason that a close leaves. -/
def OpcEvent.closeReason (ev : OpcEvent) : String :=
  if ev.event_type = "CloseSessionRequest" then "CloseSession" else ev.faultReason

namespace ClientMaps

variable {m : ClientMaps} {ev : OpcEvent} {r q : Ref}

/-- The session that is put out because its activation was refused. -/
def rejecting (m : ClientMaps) (ev : OpcEvent) : Option Ref :=
  if ev.event_type = "ActivateSessionResponse" ∧ ev.failed then m.findSession ev.session_tag
  else none

/-- The session that its client closes, or a fault while it is active. -/
def closing (m : ClientMaps) (ev : OpcEvent) : Option Ref :=
  if ev.event_type = "CloseSessionRequest" then
    m.findSessionOr ev.session_tag ev.authenticationToken
  else if ev.event_type = "ServiceFaultResponse" then
    (m.findSessionOr ev.session_tag ev.authenticationToken).filter fun s => (m.objects.get s).active
  else none

/-- What an event does to the link of a session. -/
def change (m : ClientMaps) (ev : OpcEvent) (r : Ref) : Option Change :=
  if m.reconnecting ev = some r then some .request
  else if m.completing ev = some r then some .complete
  else if m.rejecting ev = some r then some (.reject ev.serviceResult)
  else if m.closing ev = some r then some (.close ev.timestamp ev.closeReason)
  else none

def linkOf (m : ClientMaps) (r : Ref) : Link := (m.objects.get r).link

theorem linkOf_modify_self {f : ClientSession → ClientSession} (hr : r < m.objects.size) :
    ((m.objects.modify r f).get r).link = (f (m.objects.get r)).link :=
  congrArg ClientSession.link (Heap.get_modify_self _ hr)

/-- A new session is as any that there is not. -/
theorem linkOf_connect (q : Ref) : (m.connect ev).linkOf q = m.linkOf q := by
  rcases Nat.lt_trichotomy q m.objects.size with hq | hq | hq
  · exact congrArg ClientSession.link (get_connect_of_lt hq)
  · subst hq
    have hnew : m.objects.get m.objects.size = default := Heap.get_of_size_le le_rfl
    rw [linkOf, linkOf, hnew, ← Heap.next_eq]
    refine (congrArg ClientSession.link (Heap.get_alloc_next _)).trans ?_
    rfl
  · have hnew : m.objects.get q = default := Heap.get_of_size_le hq.le
    have hnew' : (m.connect ev).objects.get q = default :=
      Heap.get_of_size_le (size_connect.trans_le hq)
    rw [linkOf, linkOf, hnew, hnew']

/-- A session that an event changes is one of those that the event finds. -/
theorem linkOf_modify {f : ClientSession → ClientSession} {c : Change} (hr : r < m.objects.size)
    (hf : ∀ s, (f s).link = s.link.apply c) (q : Ref) :
    ((m.objects.modify r f).get q).link =
      if r = q then (m.linkOf q).apply c else m.linkOf q := by
  split
  · next hq =>
      subst hq
      rw [linkOf_modify_self hr, hf]
      rfl
  · next hq => exact congrArg ClientSession.link (Heap.get_modify_of_ne _ hq)

/-! ## One event -/

theorem lt_of_findSession (hwf : WellFormed m) {tag : String} (h : m.findSession tag = some r) :
    r < m.objects.size := by
  rcases Option.or_eq_some_iff.mp h with h | ⟨_, h⟩
  · exact hwf.sessions _ r h
  · exact hwf.sessions _ r h

theorem lt_of_findSessionOr (hwf : WellFormed m) {tag auth : String}
    (h : m.findSessionOr tag auth = some r) : r < m.objects.size := by
  rcases Option.or_eq_some_iff.mp h with h | ⟨_, h⟩
  · exact lt_of_findSession hwf h
  · split at h
    · cases h
    · exact hwf.sessions _ r h

/-- The effect of an event that finds a session and changes it. -/
def touch (m : ClientMaps) (found : Option Ref) (c : Change) (q : Ref) : Link :=
  if found = some q then (m.linkOf q).apply c else m.linkOf q

theorem touch_none (c : Change) (q : Ref) : m.touch none c q = m.linkOf q :=
  if_neg fun h => by cases h

theorem touch_some {f : ClientSession → ClientSession} {c : Change} (hr : r < m.objects.size)
    (hf : ∀ s, (f s).link = s.link.apply c) (q : Ref) :
    ((m.objects.modify r f).get q).link = m.touch (some r) c q := by
  rw [linkOf_modify hr hf, touch]
  simp only [Option.some.injEq]

theorem linkOf_createSessionRequest (hwf : WellFormed m) (hreq : ev.IsRequest) (q : Ref) :
    (m.createSessionRequest ev).linkOf q = m.touch (m.reconnecting ev) .request q := by
  rw [reconnecting, if_pos hreq, createSessionRequest]
  split
  · next r hold =>
      rw [hold]
      exact touch_some (hwf.lt_of_named hold) (fun _ => rfl) q
  · next hnew =>
      rw [hnew, touch_none]
      exact linkOf_connect q

theorem linkOf_createSessionResponse (hwf : WellFormed m) (hresp : ev.IsResponse) (q : Ref) :
    (m.createSessionResponse ev).linkOf q = m.touch (m.completing ev) .complete q := by
  unfold completing createSessionResponse
  split
  · next hfailed =>
      rw [if_neg (by simp [hfailed]), touch_none]
      rfl
  · next hgood =>
      rw [if_pos ⟨hresp, by simpa using hgood⟩]
      split
      · next hnone =>
          rw [hnone, touch_none]
          rfl
      · next r hpending =>
          rw [hpending]
          exact touch_some (hwf.pending _ r hpending) (fun _ => rfl) q

theorem linkOf_activateSessionRequest (q : Ref) :
    (m.activateSessionRequest ev).linkOf q = m.linkOf q := by
  unfold activateSessionRequest
  split
  · rfl
  · split
    · exact Heap.get_modify_keeps ClientSession.link fun _ => rfl
    · rfl

theorem linkOf_activateSessionResponse (hwf : WellFormed m)
    (htype : ev.event_type = "ActivateSessionResponse") (q : Ref) :
    (m.activateSessionResponse ev).linkOf q =
      m.touch (m.rejecting ev) (.reject ev.serviceResult) q := by
  unfold rejecting activateSessionResponse
  split
  · next hnone =>
      rw [hnone, ite_self, touch_none]
  · next r hfound =>
      rw [hfound]
      split
      · next hfailed =>
          rw [if_pos ⟨htype, hfailed⟩]
          exact touch_some (lt_of_findSession hwf hfound) (fun _ => rfl) q
      · next hgood => rw [if_neg fun h => hgood h.2, touch_none]

theorem linkOf_serviceFaultResponse (hwf : WellFormed m)
    (htype : ev.event_type = "ServiceFaultResponse") (q : Ref) :
    (m.serviceFaultResponse ev).linkOf q =
      m.touch (m.closing ev) (.close ev.timestamp ev.closeReason) q := by
  have hclose : ¬ ev.event_type = "CloseSessionRequest" := by
    rw [htype]
    decide
  rw [closing, if_neg hclose, if_pos htype, OpcEvent.closeReason, if_neg hclose]
  unfold serviceFaultResponse
  split
  · next hnone =>
      rw [hnone]
      exact (touch_none _ q).symm
  · next r hfound =>
      rw [hfound]
      split
      · next hactive =>
          rw [Option.filter_some, if_pos hactive]
          exact touch_some (lt_of_findSessionOr hwf hfound) (fun _ => rfl) q
      · next hactive =>
          rw [Option.filter_some, if_neg hactive, touch_none]

theorem linkOf_closeSessionRequest (hwf : WellFormed m)
    (htype : ev.event_type = "CloseSessionRequest") (q : Ref) :
    (m.closeSessionRequest ev).linkOf q =
      m.touch (m.closing ev) (.close ev.timestamp ev.closeReason) q := by
  rw [closing, if_pos htype, OpcEvent.closeReason, if_pos htype]
  unfold closeSessionRequest
  split
  · next hnone => rw [hnone, touch_none]
  · next r hfound =>
      rw [hfound]
      exact touch_some (lt_of_findSessionOr hwf hfound) (fun _ => rfl) q

/-- An event changes the sessions in one way only. -/
theorem change_cases (ev : OpcEvent) :
    (ev.IsRequest ∧ ∀ (m : ClientMaps) q, m.change ev q =
        if m.reconnecting ev = some q then some .request else none) ∨
    (ev.IsResponse ∧ ∀ (m : ClientMaps) q, m.change ev q =
        if m.completing ev = some q then some .complete else none) ∨
    (ev.event_type = "ActivateSessionResponse" ∧ ∀ (m : ClientMaps) q, m.change ev q =
        if m.rejecting ev = some q then some (.reject ev.serviceResult) else none) ∨
    ((ev.event_type = "ServiceFaultResponse" ∨ ev.event_type = "CloseSessionRequest") ∧
      ∀ (m : ClientMaps) q, m.change ev q =
        if m.closing ev = some q then some (.close ev.timestamp ev.closeReason) else none) ∨
    (¬ ev.IsRequest ∧ ¬ ev.IsResponse ∧ ev.event_type ≠ "ActivateSessionResponse" ∧
      ev.event_type ≠ "ServiceFaultResponse" ∧ ev.event_type ≠ "CloseSessionRequest" ∧
      ∀ (m : ClientMaps) q, m.change ev q = none) := by
  unfold change reconnecting completing rejecting closing OpcEvent.IsRequest OpcEvent.IsResponse
  by_cases h₁ : ev.event_type = "CreateSessionRequest"
  · simp [h₁]
  by_cases h₂ : ev.event_type = "CreateSessionResponse"
  · simp [h₂]
  by_cases h₃ : ev.event_type = "ActivateSessionResponse"
  · simp [h₃]
  by_cases h₄ : ev.event_type = "ServiceFaultResponse"
  · simp [h₄]
  by_cases h₅ : ev.event_type = "CloseSessionRequest"
  · simp [h₅]
  simp [h₁, h₂, h₃, h₄, h₅]

theorem touch_eq (found : Option Ref) (c : Change) (q : Ref) :
    m.touch found c q =
      (if found = some q then some c else none).toList.foldl Link.apply (m.linkOf q) := by
  unfold touch
  split <;> rfl

theorem linkOf_handle (hwf : WellFormed m) (ev : OpcEvent) (q : Ref) :
    (m.handle ev).linkOf q = (m.change ev q).toList.foldl Link.apply (m.linkOf q) := by
  unfold handle
  rcases change_cases ev with ⟨hreq, hchange⟩ | ⟨hresp, hchange⟩ | ⟨htype, hchange⟩ |
    ⟨htype | htype, hchange⟩ | ⟨hreq, hresp, hactivate, hfault, hclose, hchange⟩
  · rw [if_pos hreq, linkOf_createSessionRequest hwf hreq, touch_eq, hchange]
  · have hreq : ¬ ev.IsRequest := fun hreq => not_isResponse_of_isRequest hreq hresp
    rw [if_neg hreq, if_pos hresp, linkOf_createSessionResponse hwf hresp, touch_eq, hchange]
  · simp only [OpcEvent.IsRequest, OpcEvent.IsResponse, htype]
    exact (linkOf_activateSessionResponse hwf htype q).trans (by rw [touch_eq, hchange])
  · simp only [OpcEvent.IsRequest, OpcEvent.IsResponse, htype]
    exact (linkOf_serviceFaultResponse hwf htype q).trans (by rw [touch_eq, hchange])
  · simp only [OpcEvent.IsRequest, OpcEvent.IsResponse, htype]
    exact (linkOf_closeSessionRequest hwf htype q).trans (by rw [touch_eq, hchange])
  · rw [if_neg hreq, if_neg hresp, if_neg hactivate, if_neg hfault, if_neg hclose, hchange]
    split
    · exact linkOf_activateSessionRequest q
    · rfl

/-! ## A run -/

/-- What a run of the loop does to the link of a session. -/
def changes (r : Ref) : ClientMaps → List OpcEvent → List Change
  | _, [] => []
  | m, ev :: rest => (m.change ev r).toList ++ changes r (m.handle ev) rest

theorem linkOf_foldl (hwf : WellFormed m) (events : List OpcEvent) (q : Ref) :
    (events.foldl ClientMaps.handle m).linkOf q =
      (changes q m events).foldl Link.apply (m.linkOf q) := by
  induction events generalizing m with
  | nil => rfl
  | cons ev events ih =>
      rw [List.foldl_cons, ih (hwf.handle ev), linkOf_handle hwf, changes, List.foldl_append]

end ClientMaps

/-! ## The link of a session -/

/-- What the events do to the link of a session. -/
def changes (events : List OpcEvent) (r : Ref) : List Change := ClientMaps.changes r .empty events

theorem linkOf_buildClientMap (events : List OpcEvent) (r : Ref) :
    (buildClientMap events).linkOf r = (changes events r).foldl Link.apply .initial :=
  ClientMaps.linkOf_foldl .empty events r

namespace ClientMaps

theorem mem_changes {m : ClientMaps} {events : List OpcEvent} {r : Ref} {c : Change}
    (h : c ∈ changes r m events) : ∃ ev ∈ events, ∃ m' : ClientMaps, m'.change ev r = some c := by
  induction events generalizing m with
  | nil => cases h
  | cons ev events ih =>
      rcases List.mem_append.mp h with h | h
      · exact ⟨ev, List.mem_cons_self, m, Option.mem_toList.mp h⟩
      · obtain ⟨ev', hev', hchange⟩ := ih h
        exact ⟨ev', List.mem_cons_of_mem _ hev', hchange⟩

theorem change_eq_close {m : ClientMaps} {ev : OpcEvent} {r : Ref} {timestamp reason : String}
    (h : m.change ev r = some (.close timestamp reason)) :
    timestamp = ev.timestamp ∧ reason = ev.closeReason := by
  unfold change at h
  split_ifs at h
  all_goals simp only [Option.some.injEq, Change.close.injEq, reduceCtorEq] at h
  exact ⟨h.1.symm, h.2.symm⟩

end ClientMaps

theorem fault_ne_empty (result : String) : "Fault:" ++ result ≠ "" := by
  intro h
  have := congrArg String.toList h
  rw [String.toList_append] at this
  simp at this

theorem OpcEvent.closeReason_ne_empty (ev : OpcEvent) : ev.closeReason ≠ "" := by
  unfold OpcEvent.closeReason OpcEvent.faultReason
  split
  · decide
  · split
    · decide
    · exact fault_ne_empty _

/-! ## What makes a link coherent -/

/-- Nothing has said why the session is not active since it was last taken up. -/
def Cleared (l : List Change) : Prop := ∀ c ∈ (l.filter (· ≠ .complete)).getLast?, c = .request

/-- The last change is a close, or a completion that found nothing to clear. -/
def Settled (l : List Change) : Prop :=
  (∃ timestamp reason, l.getLast? = some (.close timestamp reason)) ∨
    (l.getLast? = some .complete ∧ Cleared l)

/-- Every close says when and why. -/
def Told (l : List Change) : Prop :=
  ∀ timestamp reason, .close timestamp reason ∈ l → timestamp ≠ "" ∧ reason ≠ ""

theorem told_changes {events : List OpcEvent} (hts : ∀ ev ∈ events, ev.timestamp ≠ "") (r : Ref) :
    Told (changes events r) := by
  intro timestamp reason hmem
  obtain ⟨ev, hev, m, hchange⟩ := ClientMaps.mem_changes hmem
  obtain ⟨rfl, rfl⟩ := ClientMaps.change_eq_close hchange
  exact ⟨hts ev hev, ev.closeReason_ne_empty⟩

namespace Link

/-- The link after some changes. -/
def after (l : List Change) : Link := l.foldl apply .initial

theorem after_snoc (l : List Change) (c : Change) : after (l ++ [c]) = (after l).apply c := by
  rw [after, List.foldl_append]
  rfl

theorem cleared_snoc (l : List Change) (c : Change) :
    Cleared (l ++ [c]) ↔ if c = .complete then Cleared l else c = .request := by
  unfold Cleared
  rw [List.filter_append]
  split
  · next hc => simp [hc]
  · next hc => simp [hc]

theorem reason_after {l : List Change} (h : Told l) :
    (after l).disconnect_reason = "" ↔ Cleared l := by
  induction l using List.reverseRecOn with
  | nil => exact iff_of_true rfl fun c hc => by cases hc
  | append_singleton l c ih =>
      have hl : Told l := fun timestamp reason hmem => h _ _ (List.mem_append_left _ hmem)
      rw [after_snoc, cleared_snoc]
      cases c with
      | request => exact iff_of_true rfl rfl
      | complete => exact ih hl
      | reject result => exact iff_of_false (fault_ne_empty result) (by simp)
      | close timestamp reason =>
          refine iff_of_false ?_ (by simp)
          exact (h timestamp reason (by simp)).2

theorem instant_after {l : List Change} (h : Cleared l) : (after l).disconnected_at = "" := by
  induction l using List.reverseRecOn with
  | nil => rfl
  | append_singleton l c ih =>
      rw [cleared_snoc] at h
      rw [after_snoc]
      cases c with
      | request => rfl
      | complete => exact ih h
      | reject => cases h
      | close => cases h

/-- The two fields have one writer only where a close or a request came last. -/
theorem one_event_iff {l : List Change} (c : Change) :
    (∃ i, lastIndex Change.setsInstant (l ++ [c]) = some i ∧
        lastIndex Change.setsReason (l ++ [c]) = some i) ↔
      match c with
      | .request | .close _ _ => True
      | .reject _ => False
      | .complete => ∃ i, lastIndex Change.setsInstant l = some i ∧
          lastIndex Change.setsReason l = some i := by
  rw [lastIndex_snoc, lastIndex_snoc]
  cases c with
  | request | close => simp [Change.setsInstant, Change.setsReason]
  | complete => simp [Change.setsInstant, Change.setsReason]
  | reject result =>
      refine iff_of_false ?_ not_false
      intro h
      obtain ⟨i, hinstant, hreason⟩ := h
      simp only [Change.setsInstant, Change.setsReason, if_true, if_false, Option.some.injEq,
        Bool.false_eq_true] at hinstant hreason
      have := lastIndex_lt hinstant
      omega

/-- Active exactly while there is no reason and no instant of a disconnection,
and else these two are from one of the changes. -/
def Coherent (link : Link) (l : List Change) : Prop :=
  (link.active = true ↔ link.disconnect_reason = "") ∧
    (link.active = true ↔ link.disconnected_at = "") ∧
    (link.active = false → ∃ i, lastIndex Change.setsInstant l = some i ∧
      lastIndex Change.setsReason l = some i)

theorem coherent_after_iff {l : List Change} (h : Told l) : (after l).Coherent l ↔ Settled l := by
  rcases List.eq_nil_or_concat l with rfl | ⟨l, c, rfl⟩
  · refine iff_of_false (fun hcoherent => ?_) fun hsettled => ?_
    · exact absurd (hcoherent.1.mpr rfl) (by decide)
    · simp [Settled] at hsettled
  rw [List.concat_eq_append] at h ⊢
  unfold Coherent Settled
  rw [one_event_iff, after_snoc, List.getLast?_concat]
  cases c with
  | request =>
      refine iff_of_false (fun hcoherent => ?_) (by simp)
      exact absurd (hcoherent.1.mpr rfl) (by simp [apply])
  | complete =>
      have hl : Told l := fun timestamp reason hmem => h _ _ (List.mem_append_left _ hmem)
      rw [cleared_snoc, if_pos rfl]
      constructor
      · intro hcoherent
        exact .inr ⟨rfl, (reason_after hl).mp (hcoherent.1.mp rfl)⟩
      · intro hsettled
        rcases hsettled with ⟨_, _, hclose⟩ | ⟨-, hcleared⟩
        · cases hclose
        · refine ⟨iff_of_true rfl ((reason_after hl).mpr hcleared),
            iff_of_true rfl (instant_after hcleared), fun hinactive => ?_⟩
          cases hinactive
  | reject result =>
      refine iff_of_false (fun hcoherent => hcoherent.2.2 rfl) (by simp)
  | close timestamp reason =>
      obtain ⟨htimestamp, hreason⟩ := h timestamp reason (by simp)
      refine iff_of_true ⟨?_, ?_, fun _ => trivial⟩ (.inl ⟨timestamp, reason, rfl⟩)
      · exact iff_of_false Bool.false_ne_true hreason
      · exact iff_of_false Bool.false_ne_true htimestamp

end Link

/-- The session at the end of the events is coherent. -/
def Coherent (events : List OpcEvent) (r : Ref) : Prop :=
  ((buildClientMap events).objects.get r).link.Coherent (changes events r)

/-- In every map, a session is coherent exactly if the last change of its link
was a close, or a completion with nothing to clear. -/
theorem coherent_iff {events : List OpcEvent} (hts : ∀ ev ∈ events, ev.timestamp ≠ "") :
    ∀ k r, (buildClientMap events).sessions.get? k = some r →
      (Coherent events r ↔ Settled (changes events r)) := by
  intro k r _
  have hlink : ((buildClientMap events).objects.get r).link = .after (changes events r) :=
    linkOf_buildClientMap events r
  rw [Coherent, hlink]
  exact Link.coherent_after_iff (told_changes hts r)

/-- A session is accepted, and then its activation is refused. -/
def refusedActivation : List OpcEvent :=
  [.request "2026-01-01T12:00:00Z" "10" "Historian",
    .response "2026-01-01T12:00:01Z" "10" "Good" "i=1001",
    { timestamp := "2026-01-01T12:00:02Z", session_tag := "1001"
      event_type := "ActivateSessionResponse"
      fields := ⟨[("serviceResult", "BadIdentityTokenRejected")], List.nodup_singleton _⟩ }]

/-- It is not active, and has a reason for it but no instant. -/
theorem refusedActivation_not_coherent :
    (∀ ev ∈ refusedActivation, ev.timestamp ≠ "") ∧
      (buildClientMap refusedActivation).sessions.get? "i=1001" = some 0 ∧
      ((buildClientMap refusedActivation).objects.get 0).disconnected_at = "" ∧
      ¬ Coherent refusedActivation 0 := by
  have hinstant : ((buildClientMap refusedActivation).objects.get 0).disconnected_at = "" := by
    decide
  refine ⟨by decide, by decide, hinstant, fun h => ?_⟩
  exact absurd (h.2.1.mpr hinstant) (by decide)

theorem coherent_refusedActivation :
    Coherent refusedActivation 0 ↔ Settled (changes refusedActivation 0) :=
  coherent_iff (by decide) "i=1001" 0 (by decide)

end KepServerLogger.Lib
