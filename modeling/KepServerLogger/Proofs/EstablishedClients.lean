import KepServerLogger.Proofs.ClientMapSteps

/-!
# Which clients stay in the map

A request of an application takes its session out of the map before it is
known how the server will answer, and only a Good response puts it back. A
response whose token is in use already puts its own session in the place of
the other one.
-/

namespace KepServerLogger.Lib

open KepServerLogger.Py

namespace ClientMaps

variable {m : ClientMaps} {ev : OpcEvent} {r : Ref}

def InMap (r : Ref) (m : ClientMaps) : Prop := ∃ k, m.sessions.get? k = some r

/-- Every key of the session is the old key of the request, or the new key of
a response to another session. -/
def TakesOut (r : Ref) (m : ClientMaps) (ev : OpcEvent) : Prop :=
  m.InMap r ∧ m.completing ev ≠ some r ∧ ∀ k, m.sessions.get? k = some r → m.Rewrites ev k

theorem takesOut_of_not_inMap (hin : InMap r m) (hnot : ¬ InMap r (m.handle ev)) :
    TakesOut r m ev := by
  refine ⟨hin, fun hr => hnot ⟨_, sessions_of_completing hr⟩, fun k hk => ?_⟩
  by_contra hkept
  exact hnot ⟨k, (sessions_of_not_rewrites hkept).trans hk⟩

/-- A session in the map has just been put in, or stands under a key that was
left alone. -/
theorem inMap_cases (hin : InMap r (m.handle ev)) :
    m.completing ev = some r ∨ ∃ k, ¬ m.Rewrites ev k ∧ m.sessions.get? k = some r := by
  obtain ⟨k, hk⟩ := hin
  by_cases hkept : m.Rewrites ev k
  · rcases hkept with hdrop | ⟨q, hq, rfl⟩
    · rw [sessions_of_drops hdrop] at hk
      cases hk
    · rw [sessions_of_completing hq] at hk
      cases hk
      exact .inl hq
  · exact .inr ⟨k, hkept, (sessions_of_not_rewrites hkept).symm.trans hk⟩

theorem not_inMap_of_takesOut (h : TakesOut r m ev) : ¬ InMap r (m.handle ev) := by
  obtain ⟨_, hother, hkeys⟩ := h
  intro hin
  rcases inMap_cases hin with hq | ⟨k, hkept, hk⟩
  · exact hother hq
  · exact hkept (hkeys k hk)

theorem completing_of_inMap (hnot : ¬ InMap r m) (hin : InMap r (m.handle ev)) :
    m.completing ev = some r := by
  rcases inMap_cases hin with hq | ⟨k, _, hk⟩
  · exact hq
  · exact absurd ⟨k, hk⟩ hnot

theorem inMap_switch (r : Ref) :
    Switch handle WellFormed (InMap r) (TakesOut r) (fun m ev => m.completing ev = some r) where
  inv _ ev h := h.handle ev
  loses _ _ _ := takesOut_of_not_inMap
  lost _ _ _ := not_inMap_of_takesOut
  gains _ _ _ := completing_of_inMap
  gained _ _ _ h := ⟨_, sessions_of_completing h⟩

theorem not_inMap_empty (r : Ref) : ¬ InMap r .empty := by
  intro hin
  obtain ⟨k, hk⟩ := hin
  cases hk

end ClientMaps

open ClientMaps

/-- An application whose session was entered once is in the map at the end,
with the history that it had. -/
def KeepsClients (events : List OpcEvent) : Prop :=
  ∀ past ev rest r, events = past ++ ev :: rest →
    (buildClientMap past).completing ev = some r →
      ∃ k r', (buildClientMap events).sessions.get? k = some r' ∧
        ((buildClientMap (past ++ [ev])).objects.get r).Continues
          ((buildClientMap events).objects.get r')

/-- Who is in the map has been entered, and is one of those that are kept. -/
theorem inMap_of_keepsClients {past rest : List OpcEvent} {r : Ref}
    (h : KeepsClients (past ++ rest)) (hin : InMap r (buildClientMap past)) :
    InMap r (buildClientMap (past ++ rest)) := by
  obtain ⟨before, ev, between, rfl, hcompleting⟩ :=
    (inMap_switch r).exists_gain .empty (not_inMap_empty r) hin
  have hsplit : before ++ ev :: between ++ rest = before ++ [ev] ++ (between ++ rest) := by simp
  obtain ⟨k, r', hk, hcontinues⟩ :=
    h before ev (between ++ rest) r (by simp) hcompleting
  have hr : r < (buildClientMap before).objects.size :=
    (wellFormed_buildClientMap before).lt_of_completing hcompleting
  have hentered := continues_buildClientMap hr [ev]
  have hend := continues_buildClientMap hentered.1 (between ++ rest)
  rw [← hsplit] at hend
  -- one application, so one session
  have hwf := wellFormed_buildClientMap (before ++ ev :: between ++ rest)
  have hsame : r' = r :=
    hwf.eq_of_appOf (hwf.sessions k r' hk) hend.1 (hcontinues.1.trans hend.2.1.symm)
  exact ⟨k, hsame ▸ hk⟩

/-- An application stays in the map exactly if whatever takes it out is
followed by a Good response that completes a handshake of it. -/
theorem keepsClients_iff (events : List OpcEvent) :
    KeepsClients events ↔
      ∀ past ev rest r, events = past ++ ev :: rest → TakesOut r (buildClientMap past) ev →
        ∃ mid ev' rest', rest = mid ++ ev' :: rest' ∧
          (buildClientMap (past ++ ev :: mid)).completing ev' = some r := by
  constructor
  · intro h past ev rest r hevents htakes
    subst hevents
    have hend := inMap_of_keepsClients h htakes.1
    rw [buildClientMap_append, List.foldl_cons] at hend
    have hwf := (wellFormed_buildClientMap past).handle ev
    obtain ⟨mid, ev', rest', hrest, hgain⟩ :=
      (inMap_switch r).exists_gain hwf (not_inMap_of_takesOut htakes) hend
    refine ⟨mid, ev', rest', hrest, ?_⟩
    rw [buildClientMap_append, List.foldl_cons]
    exact hgain
  · intro h past ev rest r hevents hcompleting
    have hr := (wellFormed_buildClientMap past).lt_of_completing hcompleting
    have hend := continues_buildClientMap (continues_buildClientMap hr [ev]).1 rest
    have hin : InMap r (buildClientMap (past ++ [ev])) := by
      rw [buildClientMap_snoc]
      exact ⟨_, sessions_of_completing hcompleting⟩
    have hfinal : InMap r (rest.foldl handle (buildClientMap (past ++ [ev]))) := by
      refine ((inMap_switch r).holds_iff (wellFormed_buildClientMap _) hin).mpr ?_
      intro past' ev' rest' hrest htakes
      rw [← buildClientMap_append] at htakes
      obtain ⟨mid, ev'', rest'', hrest', hgain⟩ :=
        h (past ++ [ev] ++ past') ev' rest' r (by simp [hevents, hrest]) htakes
      refine ⟨mid, ev'', rest'', hrest', ?_⟩
      rw [← buildClientMap_append, ← List.append_assoc]
      exact hgain
    rw [← buildClientMap_append] at hfinal
    obtain ⟨k, hk⟩ := hfinal
    have hsplit : events = past ++ [ev] ++ rest := by simp [hevents]
    rw [hsplit]
    exact ⟨k, r, hk, hend.2⟩

/-- A client connects, and asks once more. -/
def askedOnceMore : List OpcEvent :=
  [.request "2026-01-01T12:00:00Z" "10" "Historian",
    .response "2026-01-01T12:00:01Z" "10" "Good" "i=1001",
    .request "2026-01-01T12:00:02Z" "10" "Historian"]

/-- While it waits for an answer it is in no map. -/
theorem askedOnceMore_not_kept : ¬ KeepsClients askedOnceMore := by
  intro h
  obtain ⟨k, r', hk, _⟩ := h (askedOnceMore.take 1) (askedOnceMore.get ⟨1, by decide⟩)
    (askedOnceMore.drop 2) 0 rfl (by decide)
  have hnone : (buildClientMap askedOnceMore).sessions = ∅ := by decide
  rw [hnone] at hk
  cases hk

end KepServerLogger.Lib
