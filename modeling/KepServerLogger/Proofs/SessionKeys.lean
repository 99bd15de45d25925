import KepServerLogger.Proofs.ClientMapSteps

/-!
# What the sessions are stored under

A session is stored under its token, or under its id while it has no token.
When its application connects again the entry is taken out, and the response
puts it back under the new token. Two handshakes of one application that
overlap take out one entry and put back two; the entry of the earlier token
then stays behind.
-/

namespace KepServerLogger.Lib

open KepServerLogger.Py

namespace ClientMaps

variable {m : ClientMaps} {ev : OpcEvent} {r : Ref} {k : String}

/-- Every session is stored once, under its own key, and is found by nothing
else. -/
structure KeyedByIdentity (m : ClientMaps) : Prop where
  identity : ∀ k r, m.sessions.get? k = some r → k = (m.objects.get r).key
  once : ∀ k k' r, m.sessions.get? k = some r → m.sessions.get? k' = some r → k = k'
  found : ∀ tag r, m.findSession tag = some r →
    (m.objects.get r).key = "i=" ++ tag ∨ (m.objects.get r).key = tag

/-- A key belongs to the session that is stored under it, if there is one. -/
def KeyFits (k : String) (m : ClientMaps) : Prop :=
  ∀ r, m.sessions.get? k = some r → (m.objects.get r).key = k

theorem keyedByIdentity_iff : KeyedByIdentity m ↔ ∀ k, KeyFits k m := by
  constructor
  · intro h k r hk
    exact (h.identity k r hk).symm
  · intro h
    refine ⟨fun k r hk => (h k r hk).symm, ?_, ?_⟩
    · intro k k' r hk hk'
      exact (h k r hk).symm.trans (h k' r hk')
    · intro tag r hfound
      rcases Option.or_eq_some_iff.mp hfound with hk | ⟨_, hk⟩
      · exact .inl (h _ r hk)
      · exact .inr (h _ r hk)

/-- A handshake is completed of a session that is stored already, under a key
that it will not have. -/
def LeavesBehind (k : String) (m : ClientMaps) (ev : OpcEvent) : Prop :=
  ∃ r, m.completing ev = some r ∧ m.sessions.get? k = some r ∧ ev.newKey ≠ k

/-- The key is written to; or its session connects again and has it for its
id. -/
def Settles (k : String) (m : ClientMaps) (ev : OpcEvent) : Prop :=
  m.Rewrites ev k ∨
    ∃ r, m.reconnecting ev = some r ∧ m.sessions.get? k = some r ∧ (m.objects.get r).session_id = k

/-- What is not written to stays, and its session's own key changes only with
a handshake of it. -/
theorem leavesBehind_of_not_keyFits (hwf : WellFormed m) (hfits : KeyFits k m)
    (hnot : ¬ KeyFits k (m.handle ev)) : LeavesBehind k m ev := by
  simp only [KeyFits, not_forall] at hnot
  obtain ⟨q, hq, hkey⟩ := hnot
  by_cases hrewrites : m.Rewrites ev k
  · rcases hrewrites with hdrop | ⟨r, hr, hk⟩
    · rw [sessions_of_drops hdrop] at hq
      cases hq
    · subst hk
      rw [sessions_of_completing hr] at hq
      cases hq
      exact absurd (key_of_completing hwf hr) hkey
  · rw [sessions_of_not_rewrites hrewrites] at hq
    have hold := hfits q hq
    by_cases hreconnecting : m.reconnecting ev = some q
    · exact absurd (.inl ⟨q, hreconnecting, hold⟩) hrewrites
    · by_cases hcompleting : m.completing ev = some q
      · rw [key_of_completing hwf hcompleting] at hkey
        exact ⟨q, hcompleting, hq, hkey⟩
      · rw [key_of_neither (hwf.sessions k q hq) hreconnecting hcompleting] at hkey
        exact absurd hold hkey

theorem not_keyFits_of_leavesBehind (hwf : WellFormed m) (h : LeavesBehind k m ev) :
    ¬ KeyFits k (m.handle ev) := by
  obtain ⟨r, hr, hk, hne⟩ := h
  intro hfits
  have hkept : ¬ m.Rewrites ev k := by
    intro hrewrites
    rcases hrewrites with ⟨q, hq, _⟩ | ⟨q, _, hnew⟩
    · rw [reconnecting_of_isResponse (isResponse_of_completing hr)] at hq
      cases hq
    · exact hne hnew
  have hkey := hfits r ((sessions_of_not_rewrites hkept).trans hk)
  rw [key_of_completing hwf hr] at hkey
  exact hne hkey

theorem settles_of_keyFits (hwf : WellFormed m) (hnot : ¬ KeyFits k m)
    (hfits : KeyFits k (m.handle ev)) : Settles k m ev := by
  simp only [KeyFits, not_forall] at hnot
  obtain ⟨q, hq, hkey⟩ := hnot
  by_cases hrewrites : m.Rewrites ev k
  · exact .inl hrewrites
  · have hafter := hfits q ((sessions_of_not_rewrites hrewrites).trans hq)
    by_cases hreconnecting : m.reconnecting ev = some q
    · rw [key_of_reconnecting hwf hreconnecting] at hafter
      exact .inr ⟨q, hreconnecting, hq, hafter⟩
    · by_cases hcompleting : m.completing ev = some q
      · rw [key_of_completing hwf hcompleting] at hafter
        exact absurd (.inr ⟨q, hcompleting, hafter⟩) hrewrites
      · rw [key_of_neither (hwf.sessions k q hq) hreconnecting hcompleting] at hafter
        exact absurd hafter hkey

theorem keyFits_of_settles (hwf : WellFormed m) (h : Settles k m ev) :
    KeyFits k (m.handle ev) := by
  intro q hq
  rcases h with (hdrop | ⟨r, hr, hk⟩) | ⟨r, hr, hstored, hid⟩
  · rw [sessions_of_drops hdrop] at hq
    cases hq
  · subst hk
    rw [sessions_of_completing hr] at hq
    cases hq
    exact key_of_completing hwf hr
  · rw [handle_of_reconnecting hr, sessions_reconnect] at hq
    split at hq
    · cases hq
    · rw [hstored] at hq
      cases hq
      exact (key_of_reconnecting hwf hr).trans hid

theorem keyFits_switch (k : String) :
    Switch handle WellFormed (KeyFits k) (LeavesBehind k) (Settles k) where
  inv _ ev h := h.handle ev
  loses _ _ h := leavesBehind_of_not_keyFits h
  lost _ _ h := not_keyFits_of_leavesBehind h
  gains _ _ h := settles_of_keyFits h
  gained _ _ h := keyFits_of_settles h

end ClientMaps

open ClientMaps

/-- The sessions are stored under what they are now exactly if every key that
is left behind is settled by a later event. -/
theorem keyedByIdentity_buildClientMap_iff (events : List OpcEvent) :
    (buildClientMap events).KeyedByIdentity ↔
      ∀ past ev rest k, events = past ++ ev :: rest → LeavesBehind k (buildClientMap past) ev →
        ∃ mid ev' rest', rest = mid ++ ev' :: rest' ∧
          Settles k (buildClientMap (past ++ ev :: mid)) ev' := by
  have hkey : ∀ k, KeyFits k (buildClientMap events) ↔
      ∀ past ev rest, events = past ++ ev :: rest → LeavesBehind k (buildClientMap past) ev →
        ∃ mid ev' rest', rest = mid ++ ev' :: rest' ∧
          Settles k (buildClientMap (past ++ ev :: mid)) ev' :=
    fun k => (keyFits_switch k).holds_iff .empty fun r h => by cases h
  rw [keyedByIdentity_iff]
  constructor
  · intro h past ev rest k
    exact (hkey k).mp (h k) past ev rest
  · intro h k
    exact (hkey k).mpr fun past ev rest => h past ev rest k

/-- Two instances of one application connect at once. -/
def twoInstances : List OpcEvent :=
  [.request "2026-01-01T12:00:00Z" "10" "Historian",
    .request "2026-01-01T12:00:01Z" "11" "Historian",
    .response "2026-01-01T12:00:02Z" "10" "Good" "i=1001",
    .response "2026-01-01T12:00:03Z" "11" "Good" "i=1002"]

/-- The token of the first leads to the session of the second. -/
theorem twoInstances_not_keyed : ¬ (buildClientMap twoInstances).KeyedByIdentity := by
  intro h
  have hfound : (buildClientMap twoInstances).findSession "1001" = some 0 := by decide
  have hkey : ((buildClientMap twoInstances).objects.get 0).key = "i=1002" := by decide
  rcases h.found "1001" 0 hfound with hold | hold
  · rw [hkey] at hold
    revert hold
    decide
  · rw [hkey] at hold
    revert hold
    decide

end KepServerLogger.Lib
