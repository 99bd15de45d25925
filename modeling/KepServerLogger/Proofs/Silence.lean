import KepServerLogger.Base.Past
import KepServerLogger.Lib.Subscription
import Mathlib.Data.List.Chain

/-!
# Silence on a subscription

A silence is a period between two notifications. It is reported once, by the
first check that finds it too long. What is kept is only whether the last
check found it so, and a notification does not reset that: the silence after
it could be taken for the one before. Checks that are never further apart than
the limit rule that out. The first of them after a notification finds a
silence that is not too long yet.
-/

namespace KepServerLogger.Lib.NodeSubscription

open KepServerLogger.Py

def notifiedAt : Event → Option Utc
  | .notified _ _ now => some now
  | _ => none

def checkedAt : Event → Option Utc
  | .checked now => some now
  | _ => none

def takenAt : Event → Option Utc
  | .notified _ _ now => some now
  | .statusChanged _ => none
  | .checked now => some now

def badStatus : Event → Option StatusCode
  | .statusChanged status => if status.is_good then none else some status
  | _ => none

/-- It has been started, and no check has found anything yet. -/
structure Started (s : NodeSubscription) (began : Utc) : Prop where
  since : s.silentSince = some began
  failed : s.failed_status = none
  quiet : s.was_stale = false

/-- The server has not ended the subscription, the clock never goes back, and
two consecutive checks are no further apart than the limit. -/
structure Watched (limit : Int) (began : Utc) (events : List Event) : Prop where
  kept : ∀ e ∈ events, badStatus e = none
  clock : (began :: events.filterMap takenAt).Pairwise fun u v => 0 ≤ v.since u
  spacing : (events.filterMap checkedAt).IsChain fun u v => v.since u ≤ limit

/-- When the silence began in which these events end. -/
def silenceBegan (began : Utc) (past : List Event) : Utc := (lastValue notifiedAt past).getD began

/-- The checks in that silence. -/
def silenceChecks (past : List Event) : List Utc :=
  (past.reverse.takeWhile fun e => (notifiedAt e).isNone).reverse.filterMap checkedAt

/-- A check at this instant finds the silence too long. -/
def FindsSilence (limit : Int) (began : Utc) (past : List Event) (now : Utc) : Prop :=
  limit < now.since (silenceBegan began past)

/-- An earlier check has found the silence too long. -/
def FoundSilence (limit : Int) (began : Utc) (past : List Event) : Prop :=
  ∃ u ∈ silenceChecks past, FindsSilence limit began past u

instance (limit : Int) (began : Utc) (past : List Event) (now : Utc) :
    Decidable (FindsSilence limit began past now) :=
  inferInstanceAs (Decidable (_ < _))

instance (limit : Int) (began : Utc) (past : List Event) :
    Decidable (FoundSilence limit began past) :=
  inferInstanceAs (Decidable (∃ u ∈ _, FindsSilence limit began past u))

/-- What a check has to answer. -/
def report (secondsText : Int → String) (s : NodeSubscription) (began : Utc) (past : List Event)
    (now : Utc) : Option String :=
  if FindsSilence s.config.stale_after began past now ∧
      ¬ FoundSilence s.config.stale_after began past then
    some (noChanges secondsText s.label (now.since (silenceBegan began past)))
  else none

variable {secondsText : Int → String} {s s₀ : NodeSubscription} {e : Event}
  {past events : List Event} {limit : Int} {began now u : Utc} {status : StatusCode}

/-! ## One more event -/

theorem silenceBegan_snoc (began : Utc) (past : List Event) (e : Event) :
    silenceBegan began (past ++ [e]) = (notifiedAt e).getD (silenceBegan began past) := by
  unfold silenceBegan
  rw [lastValue_snoc]
  cases notifiedAt e <;> rfl

theorem silenceChecks_snoc (past : List Event) (e : Event) :
    silenceChecks (past ++ [e]) =
      if (notifiedAt e).isNone then silenceChecks past ++ (checkedAt e).toList else [] := by
  unfold silenceChecks
  rw [reverse_takeWhile_snoc]
  split
  · rw [List.filterMap_append]
    cases hchecked : checkedAt e with
    | none => rw [List.filterMap_cons_none hchecked]; rfl
    | some u => rw [List.filterMap_cons_some hchecked]; rfl
  · rfl

theorem after_snoc (secondsText : Int → String) (s : NodeSubscription) (past : List Event)
    (e : Event) :
    s.after secondsText (past ++ [e]) = step secondsText (s.after secondsText past) e := by
  unfold after
  rw [List.foldl_append]
  rfl

theorem mem_filterMap_of_mem_silenceChecks (h : u ∈ silenceChecks past) :
    u ∈ past.filterMap checkedAt := by
  obtain ⟨e, he, hu⟩ := List.mem_filterMap.mp h
  exact List.mem_filterMap.mpr
    ⟨e, List.mem_reverse.mp (List.takeWhile_subset _ (List.mem_reverse.mp he)), hu⟩

/-! ## The clock -/

theorem Watched.of_append {l : List Event} (h : Watched limit began (past ++ l)) :
    Watched limit began past := by
  obtain ⟨hkept, hclock, hspacing⟩ := h
  rw [List.filterMap_append] at hclock hspacing
  refine ⟨fun e he => hkept e (List.mem_append_left _ he), ?_, hspacing.left_of_append⟩
  rw [← List.cons_append] at hclock
  exact (List.pairwise_append.mp hclock).1

/-- An event is not earlier than the beginning or an event before it. -/
theorem Watched.since_nonneg (h : Watched limit began (past ++ [e])) (he : takenAt e = some now)
    (hu : u = began ∨ u ∈ past.filterMap takenAt) : 0 ≤ now.since u := by
  have hclock := h.clock
  rw [List.filterMap_append, ← List.cons_append] at hclock
  refine (List.pairwise_append.mp hclock).2.2 u (List.mem_cons.mpr hu) now ?_
  rw [List.filterMap_cons_some he]
  exact List.mem_cons_self

theorem mem_takenAt_of_checkedAt (h : u ∈ past.filterMap checkedAt) :
    u ∈ past.filterMap takenAt := by
  obtain ⟨e, he, hu⟩ := List.mem_filterMap.mp h
  refine List.mem_filterMap.mpr ⟨e, he, ?_⟩
  cases e with
  | checked now => exact hu
  | _ => cases hu

/-- Nor is it further from the last check than the limit. -/
theorem Watched.since_le (h : Watched limit began (past ++ [.checked now]))
    (hu : (past.filterMap checkedAt).getLast? = some u) : now.since u ≤ limit := by
  have hspacing := h.spacing
  rw [List.filterMap_append] at hspacing
  exact (List.isChain_append.mp hspacing).2.2 u hu now rfl

theorem Watched.is_good (h : Watched limit began (past ++ [.statusChanged status])) :
    status.is_good = true := by
  have hkept := h.kept _ (List.mem_append_right _ (List.mem_singleton_self _))
  dsimp only [badStatus] at hkept
  split at hkept
  · assumption
  · cases hkept

/-! ## What checks have found -/

theorem foundSilence_snoc (h : notifiedAt e = none) :
    FoundSilence limit began (past ++ [e]) ↔
      FoundSilence limit began past ∨ ∃ now ∈ checkedAt e, FindsSilence limit began past now := by
  unfold FoundSilence FindsSilence
  rw [silenceBegan_snoc, silenceChecks_snoc, h]
  cases checkedAt e <;> simp

theorem not_foundSilence_notified {node : String} {value : DataValue} :
    ¬ FoundSilence limit began (past ++ [.notified node value now]) := by
  rintro ⟨u, hu, -⟩
  rw [silenceChecks_snoc] at hu
  cases hu

/-- What has been found by an earlier check is found by a later one. -/
theorem Watched.findsSilence (h : Watched limit began (past ++ [.checked now]))
    (hfound : FoundSilence limit began past) : FindsSilence limit began past now := by
  obtain ⟨u, hu, hfinds⟩ := hfound
  have hlater : 0 ≤ now.since u := h.since_nonneg rfl
    (.inr (mem_takenAt_of_checkedAt (mem_filterMap_of_mem_silenceChecks hu)))
  unfold FindsSilence Utc.since at *
  omega

/-! ## What is kept -/

/-- What is kept along the events. Where the last check found a silence that
is over, it was not later than the notification that ended it. -/
structure Tracks (s₀ : NodeSubscription) (began : Utc) (past : List Event) (s : NodeSubscription) :
    Prop where
  label : s.label = s₀.label
  config : s.config = s₀.config
  failed : s.failed_status = none
  since : s.silentSince = some (silenceBegan began past)
  found : FoundSilence s₀.config.stale_after began past → s.was_stale = true
  stale : s.was_stale = true → FoundSilence s₀.config.stale_after began past ∨
    ∃ u, (past.filterMap checkedAt).getLast? = some u ∧ 0 ≤ (silenceBegan began past).since u

theorem checkHealth_of_silentSince (hfailed : s.failed_status = none)
    (hsince : s.silentSince = some u) (now : Utc) :
    s.checkHealth secondsText now =
      ({ s with was_stale := decide (s.config.stale_after < now.since u) },
        .ok (if decide (s.config.stale_after < now.since u) && !s.was_stale then
          some (noChanges secondsText s.label (now.since u)) else none)) := by
  unfold checkHealth
  rw [hfailed, hsince]

/-- A check changes nothing else. -/
theorem checkHealth_keeps (secondsText : Int → String) (s : NodeSubscription) (now : Utc) :
    ∃ stale, (s.checkHealth secondsText now).1 = { s with was_stale := stale } := by
  unfold checkHealth
  split
  · exact ⟨s.was_stale, rfl⟩
  · split
    · exact ⟨s.was_stale, rfl⟩
    · exact ⟨_, rfl⟩

/-- Only a silence that an earlier check has found does not count as new. -/
theorem Tracks.stale_iff_found (h : Tracks s₀ began past s)
    (hwatched : Watched s₀.config.stale_after began (past ++ [.checked now]))
    (hfinds : FindsSilence s₀.config.stale_after began past now) :
    s.was_stale = true ↔ FoundSilence s₀.config.stale_after began past := by
  refine ⟨fun hstale => ?_, h.found⟩
  rcases h.stale hstale with hfound | ⟨u, hu, hended⟩
  · exact hfound
  · have hspacing := hwatched.since_le hu
    unfold FindsSilence Utc.since at *
    omega

theorem Tracks.report_eq (h : Tracks s₀ began past s)
    (hwatched : Watched s₀.config.stale_after began (past ++ [.checked now])) :
    (s.checkHealth secondsText now).2 = .ok (report secondsText s₀ began past now) := by
  rw [checkHealth_of_silentSince h.failed h.since, h.config, h.label]
  have hnew : (decide (s₀.config.stale_after < now.since (silenceBegan began past)) &&
      !s.was_stale) = true ↔ FindsSilence s₀.config.stale_after began past now ∧
        ¬ FoundSilence s₀.config.stale_after began past := by
    rw [Bool.and_eq_true, decide_eq_true_eq, Bool.not_eq_true', ← Bool.not_eq_true]
    exact and_congr_right fun hfinds => not_congr (h.stale_iff_found hwatched hfinds)
  unfold report
  exact congrArg Except.ok (if_congr hnew rfl rfl)

/-- A check keeps what it finds. -/
theorem Tracks.checked (h : Tracks s₀ began past s)
    (hwatched : Watched s₀.config.stale_after began (past ++ [.checked now])) :
    Tracks s₀ began (past ++ [.checked now]) (s.checkHealth secondsText now).1 := by
  have hstale : (s.checkHealth secondsText now).1.was_stale = true ↔
      FoundSilence s₀.config.stale_after began (past ++ [.checked now]) := by
    rw [checkHealth_of_silentSince h.failed h.since, foundSilence_snoc rfl, ← h.config]
    constructor
    · intro hfinds
      exact .inr ⟨now, rfl, of_decide_eq_true hfinds⟩
    · rintro (hfound | ⟨u, ⟨⟩, hfinds⟩)
      · refine decide_eq_true ?_
        rw [h.config]
        rw [h.config] at hfound
        exact hwatched.findsSilence hfound
      · exact decide_eq_true hfinds
  obtain ⟨stale, hkeeps⟩ := checkHealth_keeps secondsText s now
  rw [hkeeps] at hstale ⊢
  refine ⟨h.label, h.config, h.failed, ?_, hstale.mpr, fun h => .inl (hstale.mp h)⟩
  rw [silenceBegan_snoc]
  exact h.since

/-- A notification ends the silence that was found. -/
theorem Tracks.notified (h : Tracks s₀ began past s) {node : String} {value : DataValue}
    (hwatched : Watched s₀.config.stale_after began (past ++ [.notified node value now])) :
    Tracks s₀ began (past ++ [.notified node value now])
      (s.datachangeNotification node value now).1 := by
  refine ⟨h.label, h.config, h.failed, ?_, fun hfound => absurd hfound not_foundSilence_notified,
    fun hstale => .inr ?_⟩
  · rw [silenceBegan_snoc]
    rfl
  · have hlast : ∃ u, (past.filterMap checkedAt).getLast? = some u := by
      rcases h.stale hstale with ⟨u, hu, -⟩ | ⟨u, hu, -⟩
      · exact ⟨_, List.getLast?_eq_some_getLast
          (List.ne_nil_of_mem (mem_filterMap_of_mem_silenceChecks hu))⟩
      · exact ⟨u, hu⟩
    obtain ⟨u, hu⟩ := hlast
    refine ⟨u, ?_, ?_⟩
    · rw [List.filterMap_append]
      simpa [checkedAt] using hu
    · rw [silenceBegan_snoc]
      exact hwatched.since_nonneg rfl (.inr (mem_takenAt_of_checkedAt (List.mem_of_getLast? hu)))

/-- A good status changes nothing. -/
theorem Tracks.statusChanged (h : Tracks s₀ began past s) (hgood : status.is_good = true) :
    Tracks s₀ began (past ++ [.statusChanged status]) (s.statusChangeNotification status) := by
  unfold statusChangeNotification
  rw [if_pos hgood]
  refine ⟨h.label, h.config, h.failed, ?_, ?_, ?_⟩
  · rw [silenceBegan_snoc]
    exact h.since
  · rw [foundSilence_snoc rfl]
    rintro (hfound | ⟨u, ⟨⟩, -⟩)
    exact h.found hfound
  · rw [foundSilence_snoc rfl, silenceBegan_snoc, List.filterMap_append]
    intro hstale
    rcases h.stale hstale with hfound | hended
    · exact .inl (.inl hfound)
    · exact .inr (by simpa [checkedAt, notifiedAt] using hended)

theorem Tracks.step (h : Tracks s₀ began past s)
    (hwatched : Watched s₀.config.stale_after began (past ++ [e])) :
    Tracks s₀ began (past ++ [e]) (step secondsText s e) := by
  cases e with
  | notified node value now => exact h.notified hwatched
  | statusChanged status => exact h.statusChanged hwatched.is_good
  | checked now => exact h.checked hwatched

theorem tracks (hstarted : s₀.Started began)
    (hwatched : Watched s₀.config.stale_after began past) :
    Tracks s₀ began past (s₀.after secondsText past) := by
  induction past using List.reverseRecOn with
  | nil =>
      refine ⟨rfl, rfl, hstarted.failed, hstarted.since, ?_, fun hstale => ?_⟩
      · rintro ⟨u, ⟨⟩, -⟩
      · exact absurd hstale (Bool.eq_false_iff.mp hstarted.quiet)
  | append_singleton past e ih =>
      rw [after_snoc]
      exact (ih hwatched.of_append).step hwatched

/-! ## What checks answer -/

/-- Nothing resets a bad status but a worse one. -/
theorem failed_status_after (secondsText : Int → String) (s₀ : NodeSubscription)
    (past : List Event) :
    (s₀.after secondsText past).failed_status =
      (lastValue badStatus past).or s₀.failed_status ∧
      (s₀.after secondsText past).label = s₀.label := by
  induction past using List.reverseRecOn with
  | nil => exact ⟨rfl, rfl⟩
  | append_singleton past e ih =>
      obtain ⟨hfailed, hlabel⟩ := ih
      rw [after_snoc, lastValue_snoc]
      cases e with
      | notified node value now => exact ⟨hfailed, hlabel⟩
      | statusChanged status =>
          unfold step statusChangeNotification badStatus
          dsimp only
          split
          · exact ⟨hfailed, hlabel⟩
          · exact ⟨rfl, hlabel⟩
      | checked now =>
          obtain ⟨stale, hkeeps⟩ := checkHealth_keeps secondsText (s₀.after secondsText past) now
          unfold step
          dsimp only
          rw [hkeeps]
          exact ⟨hfailed, hlabel⟩

/-- However notifications and checks follow each other, as long as the checks
are close enough together each silence that some check finds too long is
reported by the first such check and by no other. After a bad status every
check raises, whatever else comes. -/
theorem checkHealth_reports (secondsText : Int → String) (s₀ : NodeSubscription)
    (events : List Event) :
    (∀ began, s₀.Started began → Watched s₀.config.stale_after began events →
      EachWithPast (fun past e => ∀ now ∈ checkedAt e,
        ((s₀.after secondsText past).checkHealth secondsText now).2 =
          .ok (report secondsText s₀ began past now)) events) ∧
      EachWithPast (fun past e => ∀ now ∈ checkedAt e, ∀ status ∈ lastValue badStatus past,
        ((s₀.after secondsText past).checkHealth secondsText now).2 =
          .error (subscriptionFailed s₀.label status)) events := by
  constructor
  · intro began hstarted hwatched past e rest heq now hnow
    cases e with
    | checked u =>
        obtain rfl : u = now := Option.some.inj hnow
        rw [heq, List.append_cons] at hwatched
        have hpast := hwatched.of_append
        exact (tracks hstarted hpast.of_append).report_eq hpast
    | _ => cases hnow
  · intro past e rest heq now hnow status hstatus
    obtain ⟨hfailed, hlabel⟩ := failed_status_after secondsText s₀ past
    rw [Option.mem_def.mp hstatus, Option.some_or] at hfailed
    unfold checkHealth
    rw [hfailed, hlabel]

def atMinute (minute : Nat) : Utc :=
  ⟨⟨2026, 3, 4, 8, minute % 60, 0, 0, by decide, by decide, by decide, by decide,
    Nat.mod_lt _ (by decide), by decide, by decide⟩⟩

def inSeconds (micros : Int) : String := String.ofList (intStr (micros / 1000000))

/-- One tag, subscribed to at eight, and a minute of silence allowed. -/
def oneTag : NodeSubscription :=
  { NodeSubscription.new "[plant]" (Dict.ofList [("tank", "ns=2;s=tank")]) {} with
    started_at := some (atMinute 0) }

/-- Two silences of more than a minute. -/
def twoSilences : List Event :=
  [.checked (atMinute 1), .checked (atMinute 2), .checked (atMinute 3),
    .notified "ns=2;s=tank" (.good (.int 3)) (atMinute 3),
    .checked (atMinute 4), .statusChanged ⟨"Good", true⟩, .checked (atMinute 5)]

theorem started_oneTag : oneTag.Started (atMinute 0) := ⟨rfl, rfl, rfl⟩

theorem watched_twoSilences : Watched oneTag.config.stale_after (atMinute 0) twoSilences :=
  ⟨by decide, by decide, by decide⟩

/-- The first check that finds the second silence too long reports it. -/
theorem twoSilences_reported :
    ((oneTag.after inSeconds twoSilences.dropLast).checkHealth inSeconds (atMinute 5)).2 =
      .ok (some "[plant] No changes received for 120s") := by
  have hreport := ((checkHealth_reports inSeconds oneTag twoSilences).1 (atMinute 0) started_oneTag
    watched_twoSilences).getLast (by decide) (atMinute 5) rfl
  rw [hreport]
  decide

end KepServerLogger.Lib.NodeSubscription
