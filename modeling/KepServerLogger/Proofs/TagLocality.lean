import KepServerLogger.Lib.MergedSessions

/-!
# A tag's session comes from the tag's own events

`build_active_map` goes through the events of all tags at once, and each event
changes up to five fields. But all of them are fields of the session of its
own tag, and what they become depends on that session and the event only. So
the session of a tag is what the events of the tag alone would have built, in
whatever order the log has mixed them with those of others; and an event whose
tag names no session is as good as not there.
-/

namespace KepServerLogger.Lib

open KepServerLogger.Py

variable {sessions sessions' : Dict String ClientSession} {ev : OpcEvent} {tag : String}

/-- The events of one tag, in their order. -/
def eventsOf (tag : String) (events : List OpcEvent) : List OpcEvent :=
  events.filter fun ev => ev.session_tag = tag

/-- The events whose tag names a session. -/
def taggedEvents (events : List OpcEvent) : List OpcEvent := events.filter fun ev => ev.Tagged

/-! ## One event -/

theorem activeStep_of_not_tagged (h : ¬ ev.Tagged) : activeStep sessions ev = sessions :=
  if_neg h

theorem get?_activeStep_of_ne (h : ev.session_tag ≠ tag) :
    (activeStep sessions ev).get? tag = sessions.get? tag := by
  unfold activeStep
  split
  · rw [Dict.get?_set, if_neg h]
  · rfl

/-- What an event does to the session of its tag depends on that session. -/
theorem get?_activeStep_congr (h : sessions.get? ev.session_tag = sessions'.get? ev.session_tag) :
    (activeStep sessions ev).get? ev.session_tag =
      (activeStep sessions' ev).get? ev.session_tag := by
  unfold activeStep
  split
  · rw [Dict.get?_set, Dict.get?_set, if_pos rfl, if_pos rfl, Dict.getD, Dict.getD, h]
  · exact h

/-! ## All events -/

theorem get?_foldl_eventsOf (events : List OpcEvent)
    (h : sessions.get? tag = sessions'.get? tag) :
    (events.foldl activeStep sessions).get? tag =
      ((eventsOf tag events).foldl activeStep sessions').get? tag := by
  induction events generalizing sessions sessions' with
  | nil => exact h
  | cons ev events ih =>
      by_cases htag : ev.session_tag = tag
      · have hof : eventsOf tag (ev :: events) = ev :: eventsOf tag events :=
          List.filter_cons_of_pos (by simpa using htag)
        rw [hof, List.foldl_cons, List.foldl_cons]
        subst htag
        exact ih (get?_activeStep_congr h)
      · have hof : eventsOf tag (ev :: events) = eventsOf tag events :=
          List.filter_cons_of_neg (by simpa using htag)
        rw [hof, List.foldl_cons]
        exact ih ((get?_activeStep_of_ne htag).trans h)

theorem get?_buildActiveMap (events : List OpcEvent) (tag : String) :
    (buildActiveMap events).get? tag = (buildActiveMap (eventsOf tag events)).get? tag :=
  get?_foldl_eventsOf events rfl

/-- Events that name no session can be left out. -/
theorem buildActiveMap_taggedEvents (events : List OpcEvent) :
    buildActiveMap (taggedEvents events) = buildActiveMap events := by
  have hfold : ∀ sessions, (taggedEvents events).foldl activeStep sessions =
      events.foldl activeStep sessions := by
    induction events with
    | nil => exact fun _ => rfl
    | cons ev events ih =>
        intro sessions
        rw [List.foldl_cons, ← ih]
        by_cases htagged : ev.Tagged
        · rw [taggedEvents, List.filter_cons_of_pos (by simpa using htagged)]
          rfl
        · rw [taggedEvents, List.filter_cons_of_neg (by simpa using htagged),
            activeStep_of_not_tagged htagged]
          rfl
  exact hfold ∅

/-- Only a tag that names a session has one. -/
theorem get?_eq_none_of_not_tagged {events : List OpcEvent}
    (h : ∀ ev ∈ events, ev.session_tag = tag → ¬ ev.Tagged) :
    (buildActiveMap events).get? tag = none := by
  have hnone : eventsOf tag (taggedEvents events) = [] := by
    rw [eventsOf, taggedEvents, List.filter_filter, List.filter_eq_nil_iff]
    intro ev hmem
    simp only [Bool.and_eq_true, decide_eq_true_eq, not_and]
    exact h ev hmem
  rw [← buildActiveMap_taggedEvents, get?_buildActiveMap, hnone]
  rfl

/-- The session of a tag is that of the tag's events alone; two logs with the
same events of every tag that names a session, in the same order each, give
the same map; and the tags that name none have no entry and no influence. -/
theorem sessions_of_own_events (events events' : List OpcEvent) :
    (∀ tag, (buildActiveMap events).get? tag =
      (buildActiveMap (eventsOf tag events)).get? tag) ∧
    ((∀ tag, eventsOf tag (taggedEvents events) = eventsOf tag (taggedEvents events')) →
      ∀ tag, (buildActiveMap events).get? tag = (buildActiveMap events').get? tag) ∧
    (∀ ev ∈ events, ¬ ev.Tagged → (buildActiveMap events).get? ev.session_tag = none) ∧
    buildActiveMap (taggedEvents events) = buildActiveMap events := by
  refine ⟨get?_buildActiveMap events, fun hsame tag => ?_, fun ev hmem hskip => ?_,
    buildActiveMap_taggedEvents events⟩
  · rw [← buildActiveMap_taggedEvents events, ← buildActiveMap_taggedEvents events',
      get?_buildActiveMap, get?_buildActiveMap (taggedEvents events'), hsame tag]
  · refine get?_eq_none_of_not_tagged fun ev' _ htag => ?_
    unfold OpcEvent.Tagged at hskip ⊢
    rw [htag]
    exact hskip

def readOn (tag timestamp : String) : OpcEvent := ⟨timestamp, tag, "ReadRequest", ∅⟩

def closeOn (tag timestamp : String) : OpcEvent := ⟨timestamp, tag, "CloseSessionRequest", ∅⟩

/-- Two sessions, one after the other. -/
def apartLog : List OpcEvent :=
  [readOn "1001" "t1", closeOn "1001" "t2", readOn "1002" "t3"]

/-- The same two, mixed with each other and with events of no session. -/
def mixedLog : List OpcEvent :=
  [readOn "1002" "t3", closeOn "NoSession" "t4", readOn "1001" "t1", closeOn "1001" "t2"]

theorem mixedLog_same_sessions :
    ((buildActiveMap mixedLog).get? "1001").map (·.disconnected_at) = some "t2" ∧
      ∀ tag, (buildActiveMap mixedLog).get? tag = (buildActiveMap apartLog).get? tag := by
  refine ⟨by decide, (sessions_of_own_events mixedLog apartLog).2.1 fun tag => ?_⟩
  have hmixed : taggedEvents mixedLog =
      [readOn "1002" "t3", readOn "1001" "t1", closeOn "1001" "t2"] := by decide
  have hapart : taggedEvents apartLog = apartLog := by decide
  rw [hmixed, hapart]
  by_cases h1 : "1001" = tag
  · subst h1
    decide
  · by_cases h2 : "1002" = tag
    · subst h2
      decide
    · simp [eventsOf, apartLog, readOn, closeOn, h1, h2]

end KepServerLogger.Lib
