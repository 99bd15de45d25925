import KepServerLogger.Proofs.Handshakes

/-!
# What a history counts

A session's history grows by one connection with every request of its
application but the first, however the requests before were answered. It is a
history of the attempts to connect, then, and one of the connections only
where every attempt was accepted.
-/

namespace KepServerLogger.Lib

open KepServerLogger.Py

/-- A request, and the next event on its tag. -/
structure Attempt where
  request : OpcEvent
  next : Option OpcEvent
  deriving DecidableEq

namespace Attempt

/-- The Good response that completed the handshake. -/
def accepted (a : Attempt) : Option OpcEvent :=
  a.next.filter fun ev => ev.IsResponse ∧ ev.failed = false

/-- The instant and the token that a connection has from it. -/
def span (a : Attempt) : String × String :=
  (a.request.timestamp, (a.accepted.map (·.authenticationToken)).getD "")

/-- The attempt, once more has been logged. -/
def after (a : Attempt) (events : List OpcEvent) : Attempt :=
  { a with next := a.next.or (events.find? (·.OnTag a.request.session_tag)) }

end Attempt

/-- The attempts of an application. -/
def attempts (c : String) : List OpcEvent → List Attempt
  | [] => []
  | ev :: rest =>
      if ev.IsRequest ∧ ev.appName = c then
        ⟨ev, rest.find? (·.OnTag ev.session_tag)⟩ :: attempts c rest
      else attempts c rest

/-- The Good responses that completed a handshake of the application. -/
def goodResponses (c : String) (events : List OpcEvent) : List OpcEvent :=
  (attempts c events).filterMap (·.accepted)

/-- Between a request and the response that ends its handshake, its
application makes no other request. -/
def NoOverlap : List OpcEvent → Prop
  | [] => True
  | req :: rest =>
      (req.IsRequest → ∀ resp ∈ rest.find? (·.OnTag req.session_tag), resp.IsResponse →
        ∀ ev ∈ rest.takeWhile (¬ ·.OnTag req.session_tag),
          ¬ (ev.IsRequest ∧ ev.appName = req.appName)) ∧ NoOverlap rest

instance NoOverlap.decidable : (events : List OpcEvent) → Decidable (NoOverlap events)
  | [] => isTrue trivial
  | _ :: rest =>
      have : Decidable (NoOverlap rest) := NoOverlap.decidable rest
      inferInstanceAs (Decidable (_ ∧ _))

variable {events l l' : List OpcEvent} {ev req : OpcEvent} {tag c : String} {a : Attempt}

namespace NoOverlap

theorem of_append_right (h : NoOverlap (l ++ l')) : NoOverlap l' := by
  induction l with
  | nil => exact h
  | cons ev l ih => exact ih h.2

theorem of_append_left (h : NoOverlap (l ++ l')) : NoOverlap l := by
  induction l with
  | nil => trivial
  | cons req l ih =>
      refine ⟨fun hreq resp hresp hends x hx => ?_, ih h.2⟩
      have hfind : (l ++ l').find? (·.OnTag req.session_tag) = some resp := by
        rw [List.find?_append, hresp]
        rfl
      have hwhole : NoOverlap (req :: (l ++ l')) := h
      refine hwhole.1 hreq resp hfind hends x ?_
      rw [List.takeWhile_append]
      split
      · exact List.mem_append_left _ ((List.takeWhile_sublist _).subset hx)
      · exact hx

/-- Nothing of the application stands between its request and the answer. -/
theorem between (h : NoOverlap (l ++ req :: (l' ++ [ev]))) (hreq : req.IsRequest)
    (hresp : ev.IsResponse) (hon : ev.OnTag req.session_tag)
    (hoff : ∀ x ∈ l', ¬ x.OnTag req.session_tag) :
    ∀ x ∈ l', ¬ (x.IsRequest ∧ x.appName = req.appName) := by
  have hfind : (l' ++ [ev]).find? (·.OnTag req.session_tag) = some ev := by
    have hnone : l'.find? (·.OnTag req.session_tag) = none :=
      List.find?_eq_none.mpr fun x hx => by simpa using hoff x hx
    rw [List.find?_append, hnone]
    simp [hon]
  intro x hx
  refine h.of_append_right.1 hreq ev hfind hresp x ?_
  rw [List.takeWhile_append_of_pos fun y hy => by simpa using hoff y hy]
  exact List.mem_append_left _ hx

end NoOverlap

/-! ## Attempts -/

theorem attempts_append (c : String) (l l' : List OpcEvent) :
    attempts c (l ++ l') = (attempts c l).map (·.after l') ++ attempts c l' := by
  induction l with
  | nil => rfl
  | cons ev l ih =>
      rw [List.cons_append, attempts, attempts, ih, List.find?_append]
      split <;> rfl

theorem attempts_eq_nil (h : ∀ ev ∈ l, ¬ (ev.IsRequest ∧ ev.appName = c)) : attempts c l = [] := by
  induction l with
  | nil => rfl
  | cons ev l ih =>
      rw [attempts, if_neg (h ev List.mem_cons_self)]
      exact ih fun x hx => h x (List.mem_cons_of_mem _ hx)

theorem Attempt.after_of_next {next : OpcEvent} (h : a.next = some next) (l : List OpcEvent) :
    a.after l = a := by
  cases a
  cases h
  rfl

theorem Attempt.after_of_not_onTag (h : ¬ ev.OnTag a.request.session_tag) :
    a.after [ev] = a := by
  cases a
  simp [Attempt.after, h]

theorem Attempt.span_after_of_not_good (h : ¬ (ev.IsResponse ∧ ev.failed = false)) :
    (a.after [ev]).span = a.span := by
  have haccepted : (a.after [ev]).accepted = a.accepted := by
    unfold Attempt.accepted Attempt.after
    cases a.next with
    | some next => rfl
    | none =>
        by_cases hon : ev.OnTag a.request.session_tag
        · simpa [hon] using h
        · simp [hon]
  unfold Attempt.span
  rw [haccepted]
  rfl

theorem Attempt.accepted_of_good (hresp : ev.IsResponse) (hgood : ev.failed = false) :
    Attempt.accepted ⟨req, some ev⟩ = some ev := by
  simp [Attempt.accepted, Option.filter, hresp, hgood]

/-- An attempt that nothing has followed waits under its tag. -/
theorem waiting_of_mem_attempts (ha : a ∈ attempts c events) (hopen : a.next = none) :
    waiting a.request.session_tag events = some c := by
  induction events using List.reverseRecOn generalizing a with
  | nil => cases ha
  | append_singleton events ev ih =>
      rw [attempts_append] at ha
      rcases List.mem_append.mp ha with ha | ha
      · obtain ⟨a', ha', rfl⟩ := List.mem_map.mp ha
        obtain ⟨hopen', hoff⟩ := Option.or_eq_none_iff.mp hopen
        have hoff : ¬ ev.OnTag a'.request.session_tag := by simpa using hoff
        show waiting a'.request.session_tag _ = _
        rw [waiting_snoc_of_not_onTag hoff]
        exact ih ha' hopen'
      · unfold attempts at ha
        split at ha
        · next hreq =>
            rcases List.mem_cons.mp ha with rfl | ha
            · rw [waiting_snoc_of_isRequest hreq.1, if_pos rfl, hreq.2]
            · cases ha
        · cases ha

theorem exists_of_waiting (h : waiting tag events = some c) :
    ∃ before req between, events = before ++ req :: between ∧ req.IsRequest ∧ req.appName = c ∧
      req.session_tag = tag ∧ ∀ ev ∈ between, ¬ ev.OnTag tag := by
  obtain ⟨req, hlast, hc⟩ := Option.bind_eq_some_iff.mp h
  obtain ⟨hon, before, between, hevents, hbetween⟩ := lastOn_eq_some hlast
  split at hc
  · next hreq => exact ⟨before, req, between, hevents, hreq, Option.some.inj hc, hon.1, hbetween⟩
  · cases hc

/-! ## Histories -/

/-- The connections, the current one last. -/
def ClientSession.spans (s : ClientSession) : List (String × String) :=
  s.past_connections.map (fun p => (p.connected_at, p.auth_token)) ++
    [(s.connected_at, s.auth_token)]

theorem ClientSession.spans_pushReconnect (s : ClientSession) (instant token : String) :
    (s.pushReconnect instant token).spans = s.spans ++ [(instant, token)] := by
  simp [ClientSession.spans, ClientSession.pushReconnect]

theorem ClientSession.spans_eq_of_handshake {s s' : ClientSession}
    (h : s.handshake = s'.handshake) : s.spans = s'.spans := by
  unfold ClientSession.handshake at h
  simp only [Prod.mk.injEq] at h
  unfold ClientSession.spans
  rw [h.2.2.1, h.2.2.2.1, h.2.2.2.2]

namespace ClientMaps

variable {m m' : ClientMaps} {r : Ref}

def historyOf (m : ClientMaps) (c : String) : List (String × String) :=
  match m.by_app_name.get? c with
  | some r => (m.objects.get r).spans
  | none => []

theorem historyOf_named (h : m.by_app_name.get? c = some r) :
    m.historyOf c = (m.objects.get r).spans := by
  rw [historyOf, h]

theorem historyOf_connect (hwf : WellFormed m) (hnew : m.by_app_name.get? ev.appName = none) :
    (m.connect ev).historyOf c =
      m.historyOf c ++ if ev.appName = c then [(ev.timestamp, "")] else [] := by
  have hget : (m.connect ev).by_app_name.get? c =
      if ev.appName = c then some m.objects.next else m.by_app_name.get? c := Dict.get?_set _ _ _ _
  split at hget
  · next hc =>
      subst hc
      rw [historyOf_named hget, if_pos rfl, historyOf, hnew]
      exact congrArg ClientSession.spans (Heap.get_alloc_next _)
  · next hc =>
      rw [if_neg hc, List.append_nil, historyOf, historyOf, hget]
      cases hold : m.by_app_name.get? c with
      | none => rfl
      | some q => exact congrArg ClientSession.spans (get_connect_of_lt (hwf.lt_of_named hold))

theorem historyOf_reconnect (hwf : WellFormed m) (hold : m.by_app_name.get? ev.appName = some r) :
    (m.reconnect ev r).historyOf c =
      m.historyOf c ++ if ev.appName = c then [(ev.timestamp, "")] else [] := by
  have hget : (m.reconnect ev r).by_app_name.get? c = m.by_app_name.get? c := rfl
  by_cases hc : ev.appName = c
  · subst hc
    have hself : (m.reconnect ev r).objects.get r =
        (m.objects.get r).pushReconnect ev.timestamp "" :=
      Heap.get_modify_self _ (hwf.lt_of_named hold)
    rw [historyOf_named (hget.trans hold), historyOf_named hold, hself,
      ClientSession.spans_pushReconnect, if_pos rfl]
  · rw [if_neg hc, List.append_nil, historyOf, historyOf, hget]
    cases hq : m.by_app_name.get? c with
    | none => rfl
    | some q =>
        refine congrArg ClientSession.spans (get_reconnect_of_ne ?_)
        intro hrq
        subst hrq
        exact hc ((hwf.appOf_of_named hold).symm.trans (hwf.appOf_of_named hq))

theorem historyOf_accept_of_ne (hwf : WellFormed m) (hr : r < m.objects.size)
    (hc : m.appOf r ≠ c) : (m.accept ev r).historyOf c = m.historyOf c := by
  rw [historyOf, historyOf, by_app_name_accept hwf hr]
  cases hq : m.by_app_name.get? c with
  | none => rfl
  | some q =>
      refine congrArg ClientSession.spans (get_accept_of_ne ?_)
      intro hrq
      subst hrq
      exact hc (hwf.appOf_of_named hq)

/-- The response puts its token to the last connection. -/
theorem historyOf_accept_self (hwf : WellFormed m) (hr : r < m.objects.size)
    {past : List (String × String)} {instant token : String}
    (h : m.historyOf (m.appOf r) = past ++ [(instant, token)]) :
    (m.accept ev r).historyOf (m.appOf r) = past ++ [(instant, ev.authenticationToken)] := by
  have hnamed : m.by_app_name.get? (m.appOf r) = some r := (hwf.named _ r).mpr ⟨hr, rfl⟩
  rw [historyOf_named hnamed] at h
  have hself : (m.accept ev r).objects.get r = { m.objects.get r with
      session_id := ev.get "sessionId", auth_token := ev.authenticationToken, active := true } :=
    Heap.get_modify_self _ hr
  have hnamed' : (m.accept ev r).by_app_name.get? (m.appOf r) = some r := by
    rw [by_app_name_accept hwf hr, hnamed]
  rw [historyOf_named hnamed', hself]
  obtain ⟨hpast, hlast⟩ := List.append_inj' h rfl
  rw [← hpast, (Prod.mk.inj (List.cons.inj hlast).1).1.symm]
  rfl

end ClientMaps

/-! ## Histories and attempts -/

theorem attempts_singleton_of_not_isRequest (h : ¬ ev.IsRequest) : attempts c [ev] = [] :=
  if_neg fun hreq => h hreq.1

/-- An event that completes nothing leaves the spans that there are. -/
theorem map_span_snoc (h : ¬ (ev.IsResponse ∧ ev.failed = false)) :
    (attempts c (events ++ [ev])).map Attempt.span =
      (attempts c events).map Attempt.span ++ (attempts c [ev]).map Attempt.span := by
  rw [attempts_append, List.map_append, List.map_map]
  refine congrArg (· ++ _) (List.map_congr_left fun a _ => ?_)
  exact Attempt.span_after_of_not_good h

theorem map_span_snoc_of_isRequest (h : ev.IsRequest) :
    (attempts c (events ++ [ev])).map Attempt.span =
      (attempts c events).map Attempt.span ++
        if ev.appName = c then [(ev.timestamp, "")] else [] := by
  rw [map_span_snoc fun hgood => ClientMaps.not_isResponse_of_isRequest h hgood.1]
  refine congrArg (_ ++ ·) ?_
  simp only [attempts, h, true_and]
  split <;> rfl

/-- Where the application does not wait under the tag of a response, none of
its attempts changes. -/
theorem attempts_snoc_of_not_waiting (hresp : ev.IsResponse)
    (h : waiting ev.session_tag events ≠ some c) :
    attempts c (events ++ [ev]) = attempts c events := by
  have hreq : ¬ ev.IsRequest := fun hreq => ClientMaps.not_isResponse_of_isRequest hreq hresp
  rw [attempts_append, attempts_singleton_of_not_isRequest hreq, List.append_nil]
  refine (List.map_congr_left fun a ha => ?_).trans (List.map_id _)
  cases hnext : a.next with
  | some next => exact a.after_of_next hnext [ev]
  | none =>
      refine a.after_of_not_onTag fun hon => h ?_
      rw [hon.1]
      exact waiting_of_mem_attempts ha hnext

/-- Where it waits, the last one is completed. -/
theorem attempts_snoc_of_waiting (hresp : ev.IsResponse)
    (h : waiting ev.session_tag events = some c) (hover : NoOverlap (events ++ [ev])) :
    ∃ past req, attempts c events = past ++ [⟨req, none⟩] ∧
      attempts c (events ++ [ev]) = past ++ [⟨req, some ev⟩] := by
  obtain ⟨before, req, between, rfl, hreq, hc, htag, hoff⟩ := exists_of_waiting h
  have hon : ev.OnTag req.session_tag := ⟨htag.symm, .inr hresp⟩
  rw [← htag] at hoff
  have hnot : ¬ ev.IsRequest := fun hreq => ClientMaps.not_isResponse_of_isRequest hreq hresp
  have hbetween : attempts c between = [] := by
    have hnone := NoOverlap.between (l := before) (by simpa using hover) hreq hresp hon hoff
    rw [hc] at hnone
    exact attempts_eq_nil hnone
  have hlast : attempts c (req :: between) = [⟨req, none⟩] := by
    have hfind : between.find? (·.OnTag req.session_tag) = none :=
      List.find?_eq_none.mpr fun x hx => by simpa using hoff x hx
    rw [attempts, if_pos ⟨hreq, hc⟩, hfind, hbetween]
  refine ⟨(attempts c before).map (·.after (req :: between)), req, ?_, ?_⟩
  · rw [attempts_append, hlast]
  · rw [attempts_append, attempts_singleton_of_not_isRequest hnot, List.append_nil,
      attempts_append, hlast, List.map_append, List.map_map]
    congr 1
    · refine List.map_congr_left fun a _ => ?_
      show (a.after (req :: between)).after [ev] = a.after (req :: between)
      by_cases hsame : a.request.session_tag = req.session_tag
      · have hreq' : req.OnTag a.request.session_tag := ⟨hsame.symm, .inl hreq⟩
        have hnext : ((a.after (req :: between)).next).isSome := by
          simp [Attempt.after, hreq']
        obtain ⟨next, hnext⟩ := Option.isSome_iff_exists.mp hnext
        exact Attempt.after_of_next hnext [ev]
      · exact Attempt.after_of_not_onTag fun hon' => hsame (hon'.1.symm.trans hon.1)
    · simp [Attempt.after, hon]

theorem history_step {m m' : ClientMaps} (hwf : m.WellFormed) (hs : m.Step ev m')
    (hwaiting : ∀ tag, (m.pending.get? tag).map m.appOf = waiting tag events)
    (hover : NoOverlap (events ++ [ev]))
    (ih : ∀ c, m.historyOf c = (attempts c events).map Attempt.span) (c : String) :
    m'.historyOf c = (attempts c (events ++ [ev])).map Attempt.span := by
  cases hs with
  | connect hreq hnew =>
      rw [ClientMaps.historyOf_connect hwf hnew, ih, map_span_snoc_of_isRequest hreq]
  | reconnect hreq hold =>
      rw [ClientMaps.historyOf_reconnect hwf hold, ih, map_span_snoc_of_isRequest hreq]
  | drop hresp hnone =>
      show m.historyOf c = _
      rw [ih]
      by_cases hgood : ev.failed = false
      · rw [ClientMaps.completing, if_pos ⟨hresp, hgood⟩] at hnone
        rw [attempts_snoc_of_not_waiting hresp]
        rw [← hwaiting, hnone]
        exact Option.some_ne_none c |>.symm
      · have hnot : ¬ ev.IsRequest := fun hreq =>
          ClientMaps.not_isResponse_of_isRequest hreq hresp
        rw [map_span_snoc fun h => hgood h.2, attempts_singleton_of_not_isRequest hnot]
        exact (List.append_nil _).symm
  | @accept r hresp hgood hpending =>
      have hr := hwf.pending _ r hpending
      have happ : waiting ev.session_tag events = some (m.appOf r) := by
        rw [← hwaiting, hpending]
        rfl
      by_cases hc : m.appOf r = c
      · subst hc
        obtain ⟨past, req, hbefore, hafter⟩ := attempts_snoc_of_waiting hresp happ hover
        have hold := ih (m.appOf r)
        rw [hbefore, List.map_append] at hold
        rw [hafter, List.map_append, ClientMaps.historyOf_accept_self hwf hr hold]
        rw [List.map_singleton, Attempt.span, Attempt.accepted_of_good hresp hgood]
        rfl
      · rw [ClientMaps.historyOf_accept_of_ne hwf hr hc, ih, attempts_snoc_of_not_waiting hresp]
        rw [happ]
        exact fun heq => hc (Option.some.inj heq)
  | @other objects hreq hresp hsize hsame =>
      rw [map_span_snoc fun h => hresp h.1, attempts_singleton_of_not_isRequest hreq, ← ih]
      refine Eq.trans ?_ (List.append_nil _).symm
      unfold ClientMaps.historyOf
      show (match m.by_app_name.get? c with | some r => _ | none => _) = _
      cases m.by_app_name.get? c with
      | none => rfl
      | some q => exact ClientSession.spans_eq_of_handshake (hsame q)

/-- A session's connections are the attempts of its application. -/
theorem historyOf_buildClientMap (hover : NoOverlap events) (c : String) :
    (buildClientMap events).historyOf c = (attempts c events).map Attempt.span := by
  induction events using List.reverseRecOn generalizing c with
  | nil => rfl
  | append_singleton events ev ih =>
      rw [buildClientMap_snoc]
      exact history_step (wellFormed_buildClientMap events) (ClientMaps.handle_step _ ev)
        (map_appOf_pending events) hover (ih hover.of_append_left) c

/-- A connection that was established: it has the instant of its request and
the token of its Good response. -/
def Established (c : String) (events : List OpcEvent) (p : ConnectionSpan) : Prop :=
  ∃ a ∈ attempts c events, ∃ resp, a.accepted = some resp ∧
    p.connected_at = a.request.timestamp ∧ p.auth_token = resp.authenticationToken

/-- The history of a session is one of established connections, one less than
there were Good responses, exactly if every attempt of its application was
accepted. -/
theorem history_iff {k : String} {r : Ref} (hover : NoOverlap events)
    (hk : (buildClientMap events).sessions.get? k = some r) :
    (((buildClientMap events).objects.get r).reconnectCount + 1 =
        (goodResponses ((buildClientMap events).appOf r) events).length ∧
      ∀ p ∈ ((buildClientMap events).objects.get r).past_connections,
        Established ((buildClientMap events).appOf r) events p) ↔
      ∀ a ∈ attempts ((buildClientMap events).appOf r) events, a.accepted.isSome := by
  have hwf := wellFormed_buildClientMap events
  have hnamed := (hwf.named _ r).mpr ⟨hwf.sessions k r hk, rfl⟩
  have hspans := historyOf_buildClientMap hover ((buildClientMap events).appOf r)
  rw [ClientMaps.historyOf_named hnamed] at hspans
  generalize (buildClientMap events).appOf r = c at hspans ⊢
  generalize (buildClientMap events).objects.get r = s at hspans ⊢
  have hlength : s.reconnectCount + 1 = (attempts c events).length := by
    have hlength := congrArg List.length hspans
    simpa [ClientSession.spans, ClientSession.reconnectCount] using hlength
  have hcount : s.reconnectCount + 1 = (goodResponses c events).length ↔
      ∀ a ∈ attempts c events, a.accepted.isSome := by
    rw [goodResponses, List.length_filterMap_eq_countP, hlength, eq_comm, List.countP_eq_length]
  refine ⟨fun h => hcount.mp h.1, fun h => ⟨hcount.mpr h, fun p hp => ?_⟩⟩
  have hspan : (p.connected_at, p.auth_token) ∈ s.spans :=
    List.mem_append_left _ (List.mem_map_of_mem hp)
  rw [hspans] at hspan
  obtain ⟨a, ha, heq⟩ := List.mem_map.mp hspan
  obtain ⟨resp, hresp⟩ := Option.isSome_iff_exists.mp (h a ha)
  rw [Attempt.span, hresp] at heq
  obtain ⟨hinstant, htoken⟩ := Prod.mk.inj heq
  exact ⟨a, ha, resp, hresp, hinstant.symm, htoken.symm⟩

/-- A client is refused once, and then let in. -/
def refusedOnce : List OpcEvent :=
  [.request "2026-01-01T12:00:00Z" "10" "Historian",
    .response "2026-01-01T12:00:01Z" "10" "Bad" "",
    .request "2026-01-01T12:00:02Z" "10" "Historian",
    .response "2026-01-01T12:00:03Z" "10" "Good" "i=1001"]

/-- It has one connection, and a history of another. -/
theorem refusedOnce_counts_attempt :
    NoOverlap refusedOnce ∧ (buildClientMap refusedOnce).sessions.get? "i=1001" = some 0 ∧
      ((buildClientMap refusedOnce).objects.get 0).reconnectCount + 1 ≠
        (goodResponses ((buildClientMap refusedOnce).appOf 0) refusedOnce).length := by
  decide

theorem history_refusedOnce :
    (((buildClientMap refusedOnce).objects.get 0).reconnectCount + 1 =
        (goodResponses ((buildClientMap refusedOnce).appOf 0) refusedOnce).length ∧
      ∀ p ∈ ((buildClientMap refusedOnce).objects.get 0).past_connections,
        Established ((buildClientMap refusedOnce).appOf 0) refusedOnce p) ↔
      ∀ a ∈ attempts ((buildClientMap refusedOnce).appOf 0) refusedOnce, a.accepted.isSome :=
  history_iff (k := "i=1001") (by decide) (by decide)

end KepServerLogger.Lib
