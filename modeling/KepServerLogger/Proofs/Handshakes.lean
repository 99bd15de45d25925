import KepServerLogger.Proofs.ClientMapSteps

/-!
# Who waits under a tag

The session that waits under a tag is that of the last request on the tag, as
long as no response came after it.
-/

namespace KepServerLogger.Lib

open KepServerLogger.Py

namespace OpcEvent

/-- A part of some handshake on the tag. -/
def OnTag (tag : String) (ev : OpcEvent) : Prop :=
  ev.session_tag = tag ∧ (ev.IsRequest ∨ ev.IsResponse)

instance (tag : String) (ev : OpcEvent) : Decidable (ev.OnTag tag) :=
  inferInstanceAs (Decidable (_ ∧ _))

end OpcEvent

variable {events : List OpcEvent} {ev : OpcEvent} {tag c : String}

def lastOn (tag : String) (events : List OpcEvent) : Option OpcEvent :=
  (events.filter (·.OnTag tag)).getLast?

/-- The application that waits for an answer on the tag. -/
def waiting (tag : String) (events : List OpcEvent) : Option String :=
  (lastOn tag events).bind fun ev => if ev.IsRequest then some ev.appName else none

theorem lastOn_snoc (tag : String) (events : List OpcEvent) (ev : OpcEvent) :
    lastOn tag (events ++ [ev]) = if ev.OnTag tag then some ev else lastOn tag events := by
  unfold lastOn
  rw [List.filter_append]
  by_cases h : ev.OnTag tag
  · rw [if_pos h, List.filter_cons_of_pos (by simpa using h)]
    simp
  · rw [if_neg h, List.filter_cons_of_neg (by simpa using h)]
    simp

theorem lastOn_eq_some {req : OpcEvent} (h : lastOn tag events = some req) :
    req.OnTag tag ∧ ∃ before between, events = before ++ req :: between ∧
      ∀ ev ∈ between, ¬ ev.OnTag tag := by
  induction events using List.reverseRecOn with
  | nil => cases h
  | append_singleton events ev ih =>
      rw [lastOn_snoc] at h
      split at h
      · next hon =>
          cases h
          exact ⟨hon, events, [], rfl, fun _ h => by cases h⟩
      · next hoff =>
          obtain ⟨hon, before, between, rfl, hbetween⟩ := ih h
          refine ⟨hon, before, between ++ [ev], by simp, fun x hx => ?_⟩
          rcases List.mem_append.mp hx with hx | hx
          · exact hbetween x hx
          · rw [List.mem_singleton.mp hx]
            exact hoff

theorem waiting_snoc_of_not_onTag (h : ¬ ev.OnTag tag) :
    waiting tag (events ++ [ev]) = waiting tag events := by
  unfold waiting
  rw [lastOn_snoc, if_neg h]

theorem waiting_snoc_of_isRequest (h : ev.IsRequest) :
    waiting tag (events ++ [ev]) =
      if ev.session_tag = tag then some ev.appName else waiting tag events := by
  split
  · next htag =>
      have hon : ev.OnTag tag := ⟨htag, .inl h⟩
      rw [waiting, lastOn_snoc, if_pos hon]
      exact if_pos h
  · next htag => exact waiting_snoc_of_not_onTag fun hon => htag hon.1

theorem waiting_snoc_of_isResponse (h : ev.IsResponse) :
    waiting tag (events ++ [ev]) =
      if ev.session_tag = tag then none else waiting tag events := by
  split
  · next htag =>
      have hon : ev.OnTag tag := ⟨htag, .inr h⟩
      rw [waiting, lastOn_snoc, if_pos hon]
      exact if_neg fun hreq => ClientMaps.not_isResponse_of_isRequest hreq h
  · next htag => exact waiting_snoc_of_not_onTag fun hon => htag hon.1

namespace ClientMaps

variable {m m' : ClientMaps}

/-- One event, and who waits. -/
theorem waiting_step (hwf : WellFormed m) (hs : Step m ev m')
    (h : ∀ tag, (m.pending.get? tag).map m.appOf = waiting tag events) (tag : String) :
    (m'.pending.get? tag).map m'.appOf = waiting tag (events ++ [ev]) := by
  have hsame : ∀ p : Option Ref, (∀ r, p = some r → m'.appOf r = m.appOf r) →
      p.map m'.appOf = p.map m.appOf := by
    intro p hp
    cases p with
    | none => rfl
    | some r => exact congrArg some (hp r rfl)
  cases hs with
  | connect hreq hnew =>
      rw [waiting_snoc_of_isRequest hreq]
      show ((m.pending.set ev.session_tag m.objects.next).get? tag).map _ = _
      rw [Dict.get?_set]
      split
      · exact congrArg some appOf_connect_next
      · rw [← h tag]
        exact hsame _ fun r hr => appOf_connect_of_lt (hwf.pending tag r hr)
  | @reconnect r hreq hold =>
      rw [waiting_snoc_of_isRequest hreq]
      show ((m.pending.set ev.session_tag r).get? tag).map _ = _
      rw [Dict.get?_set]
      split
      · exact congrArg some ((appOf_reconnect r).trans (hwf.appOf_of_named hold))
      · rw [← h tag]
        exact hsame _ fun q _ => appOf_reconnect q
  | drop hresp hnone =>
      rw [waiting_snoc_of_isResponse hresp]
      show ((m.pending.erase ev.session_tag).get? tag).map _ = _
      rw [Dict.get?_erase]
      split
      · rfl
      · exact h tag
  | accept hresp hgood hpending =>
      rw [waiting_snoc_of_isResponse hresp]
      show ((m.pending.erase ev.session_tag).get? tag).map _ = _
      rw [Dict.get?_erase]
      split
      · rfl
      · rw [← h tag]
        exact hsame _ fun q _ => appOf_accept q
  | other hreq hresp hsize hsame' =>
      rw [waiting_snoc_of_not_onTag fun hon => hon.2.elim hreq hresp, ← h tag]
      exact hsame _ fun q _ => congrArg Prod.fst (hsame' q)

end ClientMaps

open ClientMaps

theorem map_appOf_pending (events : List OpcEvent) (tag : String) :
    ((buildClientMap events).pending.get? tag).map (buildClientMap events).appOf =
      waiting tag events := by
  induction events using List.reverseRecOn generalizing tag with
  | nil => rfl
  | append_singleton events ev ih =>
      rw [buildClientMap_snoc]
      exact waiting_step (wellFormed_buildClientMap events) (handle_step _ ev) ih tag

end KepServerLogger.Lib
