import KepServerLogger.Base.Switch
import KepServerLogger.Lib.OpcParser

/-!
# What an event does to the client map

An event is one of five things: the first request of an application, another
request of it, a response that nothing waits for or that refuses, a response
that completes a handshake, or something that leaves the handshakes alone.
All that is said about the map further on is said by these five cases.

An application has one session object and keeps it: the references of the
sessions and the names of the applications determine each other.
-/

namespace KepServerLogger.Lib

open KepServerLogger.Py

/-- What a handshake writes. -/
def ClientSession.handshake (s : ClientSession) :
    String × String × String × String × List ConnectionSpan :=
  (s.application_name, s.session_id, s.auth_token, s.connected_at, s.past_connections)

/-- A later state of a session: the same application, and a history that goes
on from the one before. -/
def ClientSession.Continues (s s' : ClientSession) : Prop :=
  s'.application_name = s.application_name ∧ s.past_connections <+: s'.past_connections

theorem ClientSession.Continues.trans {s s' s'' : ClientSession} (h : s.Continues s')
    (h' : s'.Continues s'') : s.Continues s'' :=
  ⟨h'.1.trans h.1, h.2.trans h'.2⟩

namespace ClientMaps

variable {m m' : ClientMaps} {ev : OpcEvent} {r : Ref} {c : String}

/-- The session that a request takes up again. -/
def reconnecting (m : ClientMaps) (ev : OpcEvent) : Option Ref :=
  if ev.IsRequest then m.by_app_name.get? ev.appName else none

/-- The session that a Good response completes a handshake of. -/
def completing (m : ClientMaps) (ev : OpcEvent) : Option Ref :=
  if ev.IsResponse ∧ ev.failed = false then m.pending.get? ev.session_tag else none

def appOf (m : ClientMaps) (r : Ref) : String := (m.objects.get r).application_name

theorem not_isResponse_of_isRequest (h : ev.IsRequest) : ¬ ev.IsResponse := by
  unfold OpcEvent.IsResponse
  rw [show ev.event_type = "CreateSessionRequest" from h]
  decide

theorem isResponse_of_completing (h : m.completing ev = some r) : ev.IsResponse := by
  by_contra hresp
  rw [completing, if_neg fun hgood => hresp hgood.1] at h
  cases h

theorem reconnecting_of_isResponse (h : ev.IsResponse) : m.reconnecting ev = none :=
  if_neg fun hreq => not_isResponse_of_isRequest hreq h

/-- The five things an event can do. -/
inductive Step (m : ClientMaps) (ev : OpcEvent) : ClientMaps → Prop
  | connect (hreq : ev.IsRequest) (hnew : m.by_app_name.get? ev.appName = none) :
      Step m ev (m.connect ev)
  | reconnect {r : Ref} (hreq : ev.IsRequest) (hold : m.by_app_name.get? ev.appName = some r) :
      Step m ev (m.reconnect ev r)
  | drop (hresp : ev.IsResponse) (hnone : m.completing ev = none) :
      Step m ev { m with pending := m.pending.erase ev.session_tag }
  | accept {r : Ref} (hresp : ev.IsResponse) (hgood : ev.failed = false)
      (hpending : m.pending.get? ev.session_tag = some r) : Step m ev (m.accept ev r)
  | other {objects : Heap ClientSession} (hreq : ¬ ev.IsRequest) (hresp : ¬ ev.IsResponse)
      (hsize : objects.size = m.objects.size)
      (hsame : ∀ r, (objects.get r).handshake = (m.objects.get r).handshake) :
      Step m ev { m with objects }

theorem Step.modify (hreq : ¬ ev.IsRequest) (hresp : ¬ ev.IsResponse)
    {f : ClientSession → ClientSession} (hf : ∀ s, (f s).handshake = s.handshake) (r : Ref) :
    Step m ev { m with objects := m.objects.modify r f } :=
  .other hreq hresp (Heap.size_modify f) fun _ => Heap.get_modify_keeps _ hf

theorem Step.same (hreq : ¬ ev.IsRequest) (hresp : ¬ ev.IsResponse) : Step m ev m :=
  .other hreq hresp rfl fun _ => rfl

theorem activateSessionRequest_step (hreq : ¬ ev.IsRequest) (hresp : ¬ ev.IsResponse) :
    Step m ev (m.activateSessionRequest ev) := by
  unfold activateSessionRequest
  split
  · exact .same hreq hresp
  · split
    · refine .modify hreq hresp ?_ _
      exact fun _ => rfl
    · exact .same hreq hresp

theorem activateSessionResponse_step (hreq : ¬ ev.IsRequest) (hresp : ¬ ev.IsResponse) :
    Step m ev (m.activateSessionResponse ev) := by
  unfold activateSessionResponse
  split
  · exact .same hreq hresp
  · split
    · refine .modify hreq hresp ?_ _
      exact fun _ => rfl
    · exact .same hreq hresp

theorem serviceFaultResponse_step (hreq : ¬ ev.IsRequest) (hresp : ¬ ev.IsResponse) :
    Step m ev (m.serviceFaultResponse ev) := by
  unfold serviceFaultResponse
  split
  · exact .same hreq hresp
  · split
    · refine .modify hreq hresp ?_ _
      exact fun _ => rfl
    · exact .same hreq hresp

theorem closeSessionRequest_step (hreq : ¬ ev.IsRequest) (hresp : ¬ ev.IsResponse) :
    Step m ev (m.closeSessionRequest ev) := by
  unfold closeSessionRequest
  split
  · exact .same hreq hresp
  · refine .modify hreq hresp ?_ _
    exact fun _ => rfl

theorem createSessionRequest_step (hreq : ev.IsRequest) :
    Step m ev (m.createSessionRequest ev) := by
  unfold createSessionRequest
  split
  · next r hold => exact .reconnect hreq hold
  · next hnew => exact .connect hreq hnew

theorem createSessionResponse_step (hresp : ev.IsResponse) :
    Step m ev (m.createSessionResponse ev) := by
  unfold createSessionResponse
  split
  · next hfailed =>
      refine .drop hresp (if_neg fun h => ?_)
      rw [h.2] at hfailed
      cases hfailed
  · next hgood =>
      rw [Bool.not_eq_true] at hgood
      split
      · next hnone => exact .drop hresp ((if_pos ⟨hresp, hgood⟩).trans hnone)
      · next r hpending => exact .accept hresp hgood hpending

theorem handle_step (m : ClientMaps) (ev : OpcEvent) : Step m ev (m.handle ev) := by
  unfold handle
  by_cases hreq : ev.IsRequest
  · rw [if_pos hreq]
    exact createSessionRequest_step hreq
  · rw [if_neg hreq]
    by_cases hresp : ev.IsResponse
    · rw [if_pos hresp]
      exact createSessionResponse_step hresp
    · rw [if_neg hresp]
      split
      · exact activateSessionRequest_step hreq hresp
      · split
        · exact activateSessionResponse_step hreq hresp
        · split
          · exact serviceFaultResponse_step hreq hresp
          · split
            · exact closeSessionRequest_step hreq hresp
            · exact .same hreq hresp

theorem handle_of_reconnecting (h : m.reconnecting ev = some r) :
    m.handle ev = m.reconnect ev r := by
  unfold reconnecting at h
  split at h
  · next hreq => rw [handle, if_pos hreq, createSessionRequest, h]
  · cases h

theorem handle_of_completing (h : m.completing ev = some r) : m.handle ev = m.accept ev r := by
  unfold completing at h
  split at h
  · next hgood =>
      have hreq : ¬ ev.IsRequest := fun hreq => not_isResponse_of_isRequest hreq hgood.1
      rw [handle, if_neg hreq, if_pos hgood.1, createSessionResponse, if_neg (by simp [hgood.2]), h]
  · cases h

/-! ## Keys -/

theorem sessions_reconnect (k : String) :
    (m.reconnect ev r).sessions.get? k =
      if (m.objects.get r).key = k then none else m.sessions.get? k :=
  Dict.get?_erase _ _ _

theorem sessions_accept (k : String) :
    (m.accept ev r).sessions.get? k = if ev.newKey = k then some r else m.sessions.get? k :=
  Dict.get?_set _ _ _ _

theorem key_eq_of_handshake {s s' : ClientSession} (h : s.handshake = s'.handshake) :
    s.key = s'.key := by
  unfold ClientSession.handshake at h
  simp only [Prod.mk.injEq] at h
  unfold ClientSession.key
  rw [h.2.1, h.2.2.1]

theorem key_reconnect_self (hr : r < m.objects.size) :
    ((m.reconnect ev r).objects.get r).key = (m.objects.get r).session_id := by
  show ((m.objects.modify r _).get r).key = _
  rw [Heap.get_modify_self _ hr]
  show strOr "" (m.objects.get r).session_id = _
  exact if_pos rfl

theorem key_accept_self (hr : r < m.objects.size) :
    ((m.accept ev r).objects.get r).key = ev.newKey := by
  show ((m.objects.modify r _).get r).key = _
  rw [Heap.get_modify_self _ hr]
  rfl

@[simp] theorem size_connect : (m.connect ev).objects.size = m.objects.size + 1 :=
  Heap.size_alloc _

@[simp] theorem size_reconnect : (m.reconnect ev r).objects.size = m.objects.size :=
  Heap.size_modify _

@[simp] theorem size_accept : (m.accept ev r).objects.size = m.objects.size :=
  Heap.size_modify _

theorem get_reconnect_of_ne {q : Ref} (hne : r ≠ q) :
    (m.reconnect ev r).objects.get q = m.objects.get q := Heap.get_modify_of_ne _ hne

theorem get_accept_of_ne {q : Ref} (hne : r ≠ q) :
    (m.accept ev r).objects.get q = m.objects.get q := Heap.get_modify_of_ne _ hne

theorem get_connect_of_lt (hr : r < m.objects.size) :
    (m.connect ev).objects.get r = m.objects.get r := Heap.get_alloc_of_lt _ hr

/-- The request has the key as the old one. -/
def Drops (m : ClientMaps) (ev : OpcEvent) (k : String) : Prop :=
  ∃ r, m.reconnecting ev = some r ∧ (m.objects.get r).key = k

/-- The request drops the key, or the response stores its session under it. -/
def Rewrites (m : ClientMaps) (ev : OpcEvent) (k : String) : Prop :=
  m.Drops ev k ∨ ∃ r, m.completing ev = some r ∧ ev.newKey = k

theorem sessions_of_drops {k : String} (h : m.Drops ev k) :
    (m.handle ev).sessions.get? k = none := by
  obtain ⟨r, hr, hk⟩ := h
  rw [handle_of_reconnecting hr, sessions_reconnect, if_pos hk]

theorem sessions_of_completing (hr : m.completing ev = some r) :
    (m.handle ev).sessions.get? ev.newKey = some r := by
  rw [handle_of_completing hr, sessions_accept, if_pos rfl]

theorem sessions_of_not_rewrites {k : String} (h : ¬ m.Rewrites ev k) :
    (m.handle ev).sessions.get? k = m.sessions.get? k := by
  have hs := handle_step m ev
  revert hs
  generalize m.handle ev = m'
  intro hs
  cases hs with
  | connect | drop | other => rfl
  | @reconnect r hreq hold =>
      rw [sessions_reconnect, if_neg]
      exact fun hk => h (.inl ⟨r, (if_pos hreq).trans hold, hk⟩)
  | @accept r hresp hgood hpending =>
      rw [sessions_accept, if_neg]
      exact fun hk => h (.inr ⟨r, (if_pos ⟨hresp, hgood⟩).trans hpending, hk⟩)

/-! ## References -/

/-- Every reference leads to an object, and the names lead to all of them. -/
structure WellFormed (m : ClientMaps) : Prop where
  named : ∀ c r, m.by_app_name.get? c = some r ↔ r < m.objects.size ∧ m.appOf r = c
  sessions : ∀ k r, m.sessions.get? k = some r → r < m.objects.size
  pending : ∀ tag r, m.pending.get? tag = some r → r < m.objects.size

theorem appOf_modify (m : ClientMaps) {f : ClientSession → ClientSession}
    (hf : ∀ s, (f s).application_name = s.application_name) (r q : Ref) :
    ((m.objects.modify r f).get q).application_name = m.appOf q :=
  Heap.get_modify_keeps ClientSession.application_name hf

@[simp] theorem appOf_reconnect (q : Ref) : (m.reconnect ev r).appOf q = m.appOf q :=
  appOf_modify m (fun s => by rfl) r q

@[simp] theorem appOf_accept (q : Ref) : (m.accept ev r).appOf q = m.appOf q :=
  appOf_modify m (fun s => by rfl) r q

theorem appOf_connect_of_lt (hr : r < m.objects.size) : (m.connect ev).appOf r = m.appOf r :=
  congrArg ClientSession.application_name (get_connect_of_lt hr)

theorem appOf_connect_next : (m.connect ev).appOf m.objects.next = ev.appName :=
  congrArg ClientSession.application_name (Heap.get_alloc_next _)

theorem by_app_name_accept (h : WellFormed m) (hr : r < m.objects.size) :
    (m.accept ev r).by_app_name = m.by_app_name :=
  Dict.setdefault_of_get? ((h.named _ r).mpr ⟨hr, rfl⟩) r

namespace WellFormed

theorem empty : WellFormed .empty where
  named c r := by
    refine iff_of_false (fun h => by cases h) fun h => ?_
    exact absurd h.1 (Nat.not_lt_zero r)
  sessions k r h := by cases h
  pending tag r h := by cases h

theorem lt_of_named (h : WellFormed m) (hc : m.by_app_name.get? c = some r) :
    r < m.objects.size := ((h.named c r).mp hc).1

theorem lt_of_reconnecting (h : WellFormed m) (hr : m.reconnecting ev = some r) :
    r < m.objects.size := by
  unfold reconnecting at hr
  split at hr
  · exact h.lt_of_named hr
  · cases hr

theorem lt_of_completing (h : WellFormed m) (hr : m.completing ev = some r) :
    r < m.objects.size := by
  unfold completing at hr
  split at hr
  · exact h.pending _ _ hr
  · cases hr

theorem appOf_of_named (h : WellFormed m) (hc : m.by_app_name.get? c = some r) :
    m.appOf r = c := ((h.named c r).mp hc).2

/-- Two sessions of one application are one. -/
theorem eq_of_appOf (h : WellFormed m) {r q : Ref} (hr : r < m.objects.size)
    (hq : q < m.objects.size) (heq : m.appOf r = m.appOf q) : r = q := by
  have hnamed := (h.named (m.appOf q) r).mpr ⟨hr, heq⟩
  rw [(h.named (m.appOf q) q).mpr ⟨hq, rfl⟩] at hnamed
  exact (Option.some.inj hnamed).symm

theorem connect (h : WellFormed m) (hnew : m.by_app_name.get? ev.appName = none) :
    WellFormed (m.connect ev) where
  named c r := by
    rw [size_connect]
    show (m.by_app_name.set ev.appName m.objects.next).get? c = some r ↔ _
    rw [Dict.get?_set]
    split
    · next hc =>
        subst hc
        constructor
        · intro hr
          cases hr
          exact ⟨Nat.lt_succ_self _, appOf_connect_next⟩
        · intro hr
          obtain ⟨hlt, happ⟩ := hr
          rcases Nat.lt_succ_iff_lt_or_eq.mp hlt with hr | hr
          · rw [appOf_connect_of_lt hr] at happ
            rw [(h.named _ r).mpr ⟨hr, happ⟩] at hnew
            cases hnew
          · rw [hr, Heap.next_eq]
    · next hc =>
        rw [h.named]
        constructor
        · intro hr
          obtain ⟨hr, happ⟩ := hr
          exact ⟨Nat.lt_succ_of_lt hr, (appOf_connect_of_lt hr).trans happ⟩
        · intro hr
          obtain ⟨hlt, happ⟩ := hr
          rcases Nat.lt_succ_iff_lt_or_eq.mp hlt with hr | hr
          · exact ⟨hr, (appOf_connect_of_lt hr).symm.trans happ⟩
          · rw [hr, ← Heap.next_eq, appOf_connect_next] at happ
            exact absurd happ hc
  sessions k r hk := by
    rw [size_connect]
    exact Nat.lt_succ_of_lt (h.sessions k r hk)
  pending tag r htag := by
    rw [size_connect]
    have hset : (m.pending.set ev.session_tag m.objects.next).get? tag = some r := htag
    rw [Dict.get?_set] at hset
    split at hset
    · cases hset
      exact Nat.lt_succ_self _
    · exact Nat.lt_succ_of_lt (h.pending tag r hset)

theorem reconnect (h : WellFormed m) (hr : r < m.objects.size) :
    WellFormed (m.reconnect ev r) where
  named c q := by
    rw [size_reconnect, appOf_reconnect]
    exact h.named c q
  sessions k q hk := by
    rw [size_reconnect]
    have herase : (m.sessions.erase (m.objects.get r).key).get? k = some q := hk
    rw [Dict.get?_erase] at herase
    split at herase
    · cases herase
    · exact h.sessions k q herase
  pending tag q htag := by
    rw [size_reconnect]
    have hset : (m.pending.set ev.session_tag r).get? tag = some q := htag
    rw [Dict.get?_set] at hset
    split at hset
    · cases hset
      exact hr
    · exact h.pending tag q hset

theorem pending_erase (h : WellFormed m) {tag tag' : String}
    (hget : (m.pending.erase tag).get? tag' = some r) : r < m.objects.size := by
  rw [Dict.get?_erase] at hget
  split at hget
  · cases hget
  · exact h.pending tag' r hget

theorem accept (h : WellFormed m) (hr : r < m.objects.size) :
    WellFormed (m.accept ev r) where
  named c q := by
    rw [size_accept, appOf_accept, by_app_name_accept h hr]
    exact h.named c q
  sessions k q hk := by
    rw [size_accept]
    have hset : (m.sessions.set ev.newKey r).get? k = some q := hk
    rw [Dict.get?_set] at hset
    split at hset
    · cases hset
      exact hr
    · exact h.sessions k q hset
  pending tag q htag := by
    rw [size_accept]
    exact h.pending_erase htag

theorem step (h : WellFormed m) (hs : Step m ev m') : WellFormed m' := by
  cases hs with
  | connect hreq hnew => exact h.connect hnew
  | reconnect hreq hold => exact h.reconnect (h.lt_of_named hold)
  | drop hresp hnone => exact ⟨h.named, h.sessions, fun _ _ => h.pending_erase⟩
  | accept hresp hgood hpending => exact h.accept (h.pending _ _ hpending)
  | @other objects hreq hresp hsize hsame =>
      refine ⟨fun c r => ?_, ?_, ?_⟩
      · have happ : (objects.get r).application_name = m.appOf r := congrArg Prod.fst (hsame r)
        show _ ↔ r < objects.size ∧ (objects.get r).application_name = c
        rw [hsize, happ]
        exact h.named c r
      · show ∀ k r, m.sessions.get? k = some r → r < objects.size
        rw [hsize]
        exact h.sessions
      · show ∀ tag r, m.pending.get? tag = some r → r < objects.size
        rw [hsize]
        exact h.pending

theorem handle (h : WellFormed m) (ev : OpcEvent) : WellFormed (m.handle ev) :=
  h.step (handle_step m ev)

theorem foldl (h : WellFormed m) (events : List OpcEvent) :
    WellFormed (events.foldl ClientMaps.handle m) :=
  foldl_invariant (fun _ ev hm => hm.handle ev) h events

end WellFormed

/-! ## A session's own key -/

theorem key_of_reconnecting (h : WellFormed m) (hr : m.reconnecting ev = some r) :
    ((m.handle ev).objects.get r).key = (m.objects.get r).session_id := by
  rw [handle_of_reconnecting hr]
  exact key_reconnect_self (h.lt_of_reconnecting hr)

theorem key_of_completing (h : WellFormed m) (hr : m.completing ev = some r) :
    ((m.handle ev).objects.get r).key = ev.newKey := by
  rw [handle_of_completing hr]
  exact key_accept_self (h.lt_of_completing hr)

theorem key_of_neither (hr : r < m.objects.size) (hreconnecting : m.reconnecting ev ≠ some r)
    (hcompleting : m.completing ev ≠ some r) :
    ((m.handle ev).objects.get r).key = (m.objects.get r).key := by
  have hs := handle_step m ev
  revert hs
  generalize m.handle ev = m'
  intro hs
  cases hs with
  | connect hreq hnew => rw [get_connect_of_lt hr]
  | @reconnect q hreq hold =>
      rw [get_reconnect_of_ne]
      intro hq
      subst hq
      exact hreconnecting ((if_pos hreq).trans hold)
  | drop hresp hnone => rfl
  | @accept q hresp hgood hpending =>
      rw [get_accept_of_ne]
      intro hq
      subst hq
      exact hcompleting ((if_pos ⟨hresp, hgood⟩).trans hpending)
  | other hreq hresp hsize hsame => exact key_eq_of_handshake (hsame r)

/-! ## What goes on -/

/-- A session stays with its application and forgets no connection. -/
theorem continues_step (hs : Step m ev m') (hr : r < m.objects.size) :
    r < m'.objects.size ∧ (m.objects.get r).Continues (m'.objects.get r) := by
  cases hs with
  | connect hreq hnew =>
      rw [get_connect_of_lt hr]
      refine ⟨?_, rfl, List.prefix_rfl⟩
      rw [size_connect]
      exact Nat.lt_succ_of_lt hr
  | @reconnect q hreq hold =>
      refine ⟨size_reconnect.symm ▸ hr, ?_⟩
      by_cases hq : q = r
      · subst hq
        have hself : (m.reconnect ev q).objects.get q =
            (m.objects.get q).pushReconnect ev.timestamp "" := Heap.get_modify_self _ hr
        rw [hself]
        exact ⟨rfl, List.prefix_append _ _⟩
      · rw [get_reconnect_of_ne hq]
        exact ⟨rfl, List.prefix_rfl⟩
  | drop hresp hnone => exact ⟨hr, rfl, List.prefix_rfl⟩
  | @accept q hresp hgood hpending =>
      refine ⟨size_accept.symm ▸ hr, appOf_accept r, ?_⟩
      have hpast : ((m.accept ev q).objects.get r).past_connections =
          (m.objects.get r).past_connections :=
        Heap.get_modify_keeps ClientSession.past_connections fun _ => by rfl
      exact hpast ▸ List.prefix_rfl
  | other hreq hresp hsize hsame =>
      have hhandshake := hsame r
      unfold ClientSession.handshake at hhandshake
      simp only [Prod.mk.injEq] at hhandshake
      exact ⟨hsize.symm ▸ hr, hhandshake.1, hhandshake.2.2.2.2 ▸ List.prefix_rfl⟩

theorem continues_foldl (events : List OpcEvent) (hr : r < m.objects.size) :
    r < (events.foldl ClientMaps.handle m).objects.size ∧
      (m.objects.get r).Continues ((events.foldl ClientMaps.handle m).objects.get r) := by
  induction events generalizing m with
  | nil => exact ⟨hr, rfl, List.prefix_rfl⟩
  | cons ev events ih =>
      obtain ⟨hlt, hstep⟩ := continues_step (handle_step m ev) hr
      obtain ⟨hend, hrest⟩ := ih hlt
      exact ⟨hend, hstep.trans hrest⟩

end ClientMaps

theorem wellFormed_buildClientMap (events : List OpcEvent) :
    (buildClientMap events).WellFormed := ClientMaps.WellFormed.empty.foldl events

theorem buildClientMap_append (events events' : List OpcEvent) :
    buildClientMap (events ++ events') =
      events'.foldl ClientMaps.handle (buildClientMap events) :=
  List.foldl_append

theorem buildClientMap_snoc (events : List OpcEvent) (ev : OpcEvent) :
    buildClientMap (events ++ [ev]) = (buildClientMap events).handle ev :=
  buildClientMap_append events [ev]

/-- A session keeps its place and its application to the end. -/
theorem continues_buildClientMap {events : List OpcEvent} {r : Ref}
    (hr : r < (buildClientMap events).objects.size) (events' : List OpcEvent) :
    r < (buildClientMap (events ++ events')).objects.size ∧
      ((buildClientMap events).objects.get r).Continues
        ((buildClientMap (events ++ events')).objects.get r) := by
  rw [buildClientMap_append]
  exact ClientMaps.continues_foldl events' hr

/-! ## Log lines -/

namespace OpcEvent

def request (timestamp session_tag applicationName : String) : OpcEvent where
  timestamp := timestamp
  session_tag := session_tag
  event_type := "CreateSessionRequest"
  fields := ⟨[("applicationName", applicationName)], by simp⟩

def response (timestamp session_tag serviceResult authenticationToken : String) : OpcEvent where
  timestamp := timestamp
  session_tag := session_tag
  event_type := "CreateSessionResponse"
  fields := ⟨[("serviceResult", serviceResult), ("authenticationToken", authenticationToken)],
    by simp⟩

end OpcEvent

end KepServerLogger.Lib
