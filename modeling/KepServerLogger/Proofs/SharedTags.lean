import KepServerLogger.Proofs.Handshakes

/-!
# Whom a response is credited to

On one tag the answers come in the order of the requests. A session that waits
under a tag, though, is put aside by the next request on the tag; so where two
clients share a tag and both wait, the first answer is credited to the second
client.
-/

namespace KepServerLogger.Lib

open KepServerLogger.Py ClientMaps

variable {events past rest : List OpcEvent} {ev : OpcEvent} {c k : String} {r : Ref}

def requestsOn (tag : String) (events : List OpcEvent) : List OpcEvent :=
  events.filter fun ev => ev.IsRequest ∧ ev.session_tag = tag

def responsesOn (tag : String) (events : List OpcEvent) : List OpcEvent :=
  events.filter fun ev => ev.IsResponse ∧ ev.session_tag = tag

/-- The response is the next one on its tag, and the request with the same
number is one of the client. -/
def Answers (past : List OpcEvent) (ev : OpcEvent) (c : String) : Prop :=
  ev.IsResponse ∧ ∃ req,
    (requestsOn ev.session_tag past)[(responsesOn ev.session_tag past).length]? = some req ∧
      req.appName = c

/-- Handshakes only, with nothing but Good responses, each under a token of
its own and each to some request. -/
structure HandshakeLog (events : List OpcEvent) : Prop where
  kind : ∀ ev ∈ events, ev.IsRequest ∨ ev.IsResponse
  good : ∀ ev ∈ events, ev.IsResponse → ev.failed = false ∧ ev.authenticationToken ≠ ""
  fresh : ((events.filter (·.IsResponse)).map (·.authenticationToken)).Nodup
  answers : EachWithPast (fun past ev => ev.IsResponse → ∃ c, Answers past ev c) events

/-- No request after the response drops its key. -/
def Kept (past : List OpcEvent) (ev : OpcEvent) (rest : List OpcEvent) : Prop :=
  EachWithPast
    (fun mid ev' => ¬ (buildClientMap (past ++ ev :: mid)).Drops ev' ev.authenticationToken) rest

/-- No response after it answers the client. -/
def Latest (past : List OpcEvent) (ev : OpcEvent) (rest : List OpcEvent) (c : String) : Prop :=
  EachWithPast (fun mid ev' => ¬ Answers (past ++ ev :: mid) ev' c) rest

/-- A token that leads anywhere leads to the client that was answered with it,
and the latest token of a client does. -/
def Credited (events : List OpcEvent) : Prop :=
  ∀ past ev rest c, events = past ++ ev :: rest → Answers past ev c →
    (∀ r, (buildClientMap events).sessions.get? ev.authenticationToken = some r →
      (buildClientMap events).appOf r = c) ∧
    (Latest past ev rest c →
      ∃ r, (buildClientMap events).sessions.get? ev.authenticationToken = some r ∧
        (buildClientMap events).appOf r = c)

/-! ## One key -/

theorem newKey_eq (h : ev.authenticationToken ≠ "") : ev.newKey = ev.authenticationToken :=
  if_neg h

theorem isResponse_of_sessions (h : (buildClientMap events).sessions.get? k = some r) :
    ∃ ev ∈ events, ev.IsResponse ∧ ev.newKey = k := by
  induction events using List.reverseRecOn with
  | nil => cases h
  | append_singleton events ev ih =>
      rw [buildClientMap_snoc] at h
      by_cases hkept : (buildClientMap events).Rewrites ev k
      · rcases hkept with hdrop | ⟨q, hq, hk⟩
        · rw [sessions_of_drops hdrop] at h
          cases h
        · exact ⟨ev, by simp, isResponse_of_completing hq, hk⟩
      · rw [sessions_of_not_rewrites hkept] at h
        obtain ⟨ev', hmem, hresp⟩ := ih h
        exact ⟨ev', List.mem_append_left _ hmem, hresp⟩

/-- A key that no response uses again is there until a request drops it. -/
theorem sessions_foldl_iff {m : ClientMaps} (hfresh : ∀ ev ∈ rest, ev.IsResponse → ev.newKey ≠ k) :
    (rest.foldl handle m).sessions.get? k = some r ↔
      m.sessions.get? k = some r ∧
        EachWithPast (fun mid ev => ¬ (mid.foldl handle m).Drops ev k) rest := by
  induction rest generalizing m with
  | nil => exact ⟨fun h => ⟨h, .nil⟩, fun h => h.1⟩
  | cons ev rest ih =>
      rw [List.foldl_cons, ih fun ev' hmem => hfresh ev' (List.mem_cons_of_mem _ hmem),
        EachWithPast.cons_iff]
      by_cases hdrop : m.Drops ev k
      · rw [sessions_of_drops hdrop]
        exact iff_of_false (fun h => by cases h.1) fun h => h.2.1 hdrop
      · have hkept : ¬ m.Rewrites ev k := by
          intro hrewrites
          rcases hrewrites with h | ⟨q, hq, hk⟩
          · exact hdrop h
          · exact hfresh ev List.mem_cons_self (isResponse_of_completing hq) hk
        rw [sessions_of_not_rewrites hkept]
        exact ⟨fun h => ⟨h.1, hdrop, h.2⟩, fun h => ⟨h.1, h.2.2⟩⟩

/-! ## One response -/

theorem HandshakeLog.newKey_ne (h : HandshakeLog (past ++ ev :: rest)) (hresp : ev.IsResponse) :
    ∀ ev' ∈ past ++ rest, ev'.IsResponse → ev'.newKey ≠ ev.authenticationToken := by
  have hfresh := h.fresh
  rw [List.filter_append, List.filter_cons_of_pos (by simpa using hresp), List.map_append,
    List.map_cons, List.nodup_middle, List.nodup_cons, ← List.map_append, ← List.filter_append]
    at hfresh
  intro ev' hmem hresp' heq
  have hgood := h.good ev' (by simp only [List.mem_append, List.mem_cons] at hmem ⊢; tauto) hresp'
  rw [newKey_eq hgood.2] at heq
  refine hfresh.1 ?_
  rw [← heq]
  exact List.mem_map_of_mem (List.mem_filter.mpr ⟨hmem, by simpa using hresp'⟩)

/-- A response stores the session that waits under its tag. -/
theorem HandshakeLog.sessions_snoc (h : HandshakeLog (past ++ ev :: rest)) (hresp : ev.IsResponse) :
    (buildClientMap (past ++ [ev])).sessions.get? ev.authenticationToken =
      (buildClientMap past).pending.get? ev.session_tag := by
  have hgood := h.good ev (by simp) hresp
  have hcompleting : (buildClientMap past).completing ev =
      (buildClientMap past).pending.get? ev.session_tag := if_pos ⟨hresp, hgood.1⟩
  rw [buildClientMap_snoc]
  cases hpending : (buildClientMap past).pending.get? ev.session_tag with
  | some r =>
      rw [hpending] at hcompleting
      rw [← newKey_eq hgood.2]
      exact sessions_of_completing hcompleting
  | none =>
      rw [hpending] at hcompleting
      have hkept : ¬ (buildClientMap past).Rewrites ev ev.authenticationToken := by
        intro hrewrites
        rcases hrewrites with ⟨q, hq, _⟩ | ⟨q, hq, _⟩
        · rw [reconnecting_of_isResponse hresp] at hq
          cases hq
        · rw [hcompleting] at hq
          cases hq
      rw [sessions_of_not_rewrites hkept]
      by_contra hsome
      obtain ⟨r, hr⟩ := Option.ne_none_iff_exists'.mp hsome
      obtain ⟨ev', hmem, hresp', hkey⟩ := isResponse_of_sessions hr
      exact h.newKey_ne hresp ev' (List.mem_append_left _ hmem) hresp' hkey

/-- A token leads to a client at the end exactly if the client was the one
that waited, and nothing drops the token. -/
theorem HandshakeLog.leads_iff (h : HandshakeLog (past ++ ev :: rest)) (hresp : ev.IsResponse) :
    (∃ r, (buildClientMap (past ++ ev :: rest)).sessions.get? ev.authenticationToken = some r ∧
        (buildClientMap (past ++ ev :: rest)).appOf r = c) ↔
      waiting ev.session_tag past = some c ∧ Kept past ev rest := by
  have hsplit : past ++ ev :: rest = past ++ [ev] ++ rest := by simp
  have hend : ∀ r, (buildClientMap (past ++ ev :: rest)).sessions.get? ev.authenticationToken =
      some r ↔ (buildClientMap past).pending.get? ev.session_tag = some r ∧ Kept past ev rest := by
    intro r
    rw [hsplit, buildClientMap_append, sessions_foldl_iff fun ev' hmem =>
      h.newKey_ne hresp ev' (List.mem_append_right _ hmem), h.sessions_snoc hresp]
    simp only [Kept, ← buildClientMap_append, List.append_assoc, List.singleton_append]
  have happ : ∀ r, (buildClientMap past).pending.get? ev.session_tag = some r →
      (buildClientMap (past ++ ev :: rest)).appOf r = (buildClientMap past).appOf r := by
    intro r hr
    exact (continues_buildClientMap ((wellFormed_buildClientMap past).pending _ r hr) _).2.1
  rw [← map_appOf_pending past ev.session_tag, Option.map_eq_some_iff]
  constructor
  · intro hleads
    obtain ⟨r, hr, hc⟩ := hleads
    obtain ⟨hpending, hkept⟩ := (hend r).mp hr
    exact ⟨⟨r, hpending, (happ r hpending).symm.trans hc⟩, hkept⟩
  · intro hwaits
    obtain ⟨⟨r, hpending, hc⟩, hkept⟩ := hwaits
    exact ⟨r, (hend r).mpr ⟨hpending, hkept⟩, (happ r hpending).trans hc⟩

/-- The responses are credited to the clients that they answer exactly if no
other client waits where the token of a response is kept, and the client of a
latest response waits and keeps its token. -/
theorem credited_iff (h : HandshakeLog events) :
    Credited events ↔
      ∀ past ev rest c, events = past ++ ev :: rest → Answers past ev c →
        (∀ c', waiting ev.session_tag past = some c' → Kept past ev rest → c' = c) ∧
        (Latest past ev rest c → waiting ev.session_tag past = some c ∧ Kept past ev rest) := by
  constructor
  · intro hcredited past ev rest c hevents hanswers
    subst hevents
    obtain ⟨hother, hlatest⟩ := hcredited past ev rest c rfl hanswers
    refine ⟨fun c' hwaiting hkept => ?_, fun hlast => ?_⟩
    · obtain ⟨r, hr, hc'⟩ := (h.leads_iff hanswers.1).mpr ⟨hwaiting, hkept⟩
      exact hc'.symm.trans (hother r hr)
    · exact (h.leads_iff hanswers.1).mp (hlatest hlast)
  · intro hcond past ev rest c hevents hanswers
    subst hevents
    obtain ⟨hother, hlatest⟩ := hcond past ev rest c rfl hanswers
    refine ⟨fun r hr => ?_, fun hlast => ?_⟩
    · obtain ⟨hwaiting, hkept⟩ := (h.leads_iff hanswers.1).mp ⟨r, hr, rfl⟩
      exact hother _ hwaiting hkept
    · exact (h.leads_iff hanswers.1).mpr (hlatest hlast)

/-- Two clients ask on one tag, and both are answered. -/
def sharedTag : List OpcEvent :=
  [.request "2026-01-01T12:00:00Z" "NoSession" "Historian",
    .request "2026-01-01T12:00:01Z" "NoSession" "Dashboard",
    .response "2026-01-01T12:00:02Z" "NoSession" "Good" "i=1001",
    .response "2026-01-01T12:00:03Z" "NoSession" "Good" "i=1002"]

theorem handshakeLog_sharedTag : HandshakeLog sharedTag where
  kind := by decide
  good := by decide
  fresh := by decide
  answers := by
    refine .cons (fun h => absurd h (by decide)) (.cons (fun h => absurd h (by decide)) ?_)
    refine .cons (fun h => ⟨"Historian", h, ?_⟩) (.cons (fun h => ⟨"Dashboard", h, ?_⟩) .nil)
    · exact ⟨.request "2026-01-01T12:00:00Z" "NoSession" "Historian", by decide, by decide⟩
    · exact ⟨.request "2026-01-01T12:00:01Z" "NoSession" "Dashboard", by decide, by decide⟩

/-- The token of the first answer leads to the second client. -/
theorem sharedTag_not_credited : HandshakeLog sharedTag ∧ ¬ Credited sharedTag := by
  refine ⟨handshakeLog_sharedTag, fun h => ?_⟩
  have hanswers : Answers (sharedTag.take 2) (sharedTag.get ⟨2, by decide⟩) "Historian" :=
    ⟨by decide, .request "2026-01-01T12:00:00Z" "NoSession" "Historian", by decide, by decide⟩
  have hfirst := (h (sharedTag.take 2) (sharedTag.get ⟨2, by decide⟩) (sharedTag.drop 3)
    "Historian" rfl hanswers).1 1 (by decide)
  revert hfirst
  decide

theorem credited_sharedTag :
    Credited sharedTag ↔
      ∀ past ev rest c, sharedTag = past ++ ev :: rest → Answers past ev c →
        (∀ c', waiting ev.session_tag past = some c' → Kept past ev rest → c' = c) ∧
        (Latest past ev rest c → waiting ev.session_tag past = some c ∧ Kept past ev rest) :=
  credited_iff handshakeLog_sharedTag

end KepServerLogger.Lib
