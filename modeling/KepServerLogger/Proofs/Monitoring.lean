import KepServerLogger.Base.Raising
import KepServerLogger.Base.Run
import KepServerLogger.Ingestor.Monitoring
import KepServerLogger.Proofs.Subscribing

/-!
# Monitoring the subscriptions of a session

Each subscription goes through events of its own: what the server sends it and
the checks of the rounds that come to it. What a round logs and whether it
raises is said of these, one subscription at a time, and of the order of the
subscriptions, since a round does not come to those behind one that raises.
-/

namespace KepServerLogger.Ingestor.Subscriptions

open KepServerLogger.Py KepServerLogger.Lib
open KepServerLogger.Lib.NodeSubscription (takenAt checkedAt badStatus report atMinute inSeconds
  serverWithout)

variable {secondsText : Int → String} {built : List (NodeSubscription × OnData)}
  {s s' : Subscriptions} {e : Event} {tr : List (Subscriptions × Event)} {i : Nat}

/-! ## One step -/

/-- What each event asks of the state, and what it changes. -/
inductive Stepped (secondsText : Int → String) (s : Subscriptions) : Event → Subscriptions → Prop
    where
  | start {subscription : NodeSubscription} {on_data : OnData}
      {waiting : List (NodeSubscription × OnData)} {server : SubscriptionServer} {now : Utc}
      {failure : Option Exc} (hfailure : s.failure = none)
      (hwaiting : s.waiting = (subscription, on_data) :: waiting)
      (houtcome : failure = none → (subscription.start server now).2.2 = .ok ()) :
      Stepped secondsText s (.start server now)
        { begun := s.begun ++ [((subscription.start server now).1, on_data)], waiting, failure }
  | notified {i : Nat} {node : String} {value : DataValue} {now : Utc}
      {p : NodeSubscription × OnData} (hbegun : s.begun[i]? = some p) :
      Stepped secondsText s (.notified i node value now)
        { s with
          begun := s.begun.set i
            (p.1.step secondsText (.notified node value now), p.2) }
  | statusChanged {i : Nat} {status : StatusCode} {p : NodeSubscription × OnData}
      (hbegun : s.begun[i]? = some p) :
      Stepped secondsText s (.statusChanged i status)
        { s with begun := s.begun.set i (p.1.step secondsText (.statusChanged status), p.2) }
  | round {clock : Nat → Utc} {log_event : Nat → String → Except Exc Unit}
      (hfailure : s.failure = none) (hwaiting : s.waiting = []) :
      Stepped secondsText s (.round clock log_event)
        { s with
          begun := (monitorSubscriptions secondsText clock log_event s.begun).1
          failure := (monitorSubscriptions secondsText clock log_event s.begun).2.2 }

theorem step_cases (hs : step secondsText s e = some s') : Stepped secondsText s e s' := by
  cases e with
  | start server now =>
      simp only [step] at hs
      split at hs
      · next subscription on_data waiting hfailure hwaiting =>
          cases hs
          refine .start hfailure hwaiting fun houtcome => ?_
          split at houtcome
          · assumption
          · cases houtcome
      · cases hs
  | notified i node value now =>
      obtain ⟨p, hp, rfl⟩ := Option.map_eq_some_iff.mp hs
      exact .notified hp
  | statusChanged i status =>
      obtain ⟨p, hp, rfl⟩ := Option.map_eq_some_iff.mp hs
      exact .statusChanged hp
  | round clock log_event =>
      simp only [step] at hs
      split at hs
      · next hfailure hwaiting =>
          cases hs
          exact .round hfailure hwaiting
      · cases hs

theorem getElem?_monitorSubscriptions (secondsText : Int → String) (clock : Nat → Utc)
    (log_event : Nat → String → Except Exc Unit) (l : List (NodeSubscription × OnData)) (i : Nat) :
    (monitorSubscriptions secondsText clock log_event l).1[i]? = l[i]?.map fun p =>
      (if i < swept (checkAndLog secondsText clock log_event) 0 l then
          p.1.step secondsText (.checked (clock i))
        else p.1, p.2) := by
  rw [monitorSubscriptions, getElem?_sweep, Nat.zero_add]
  congr 1
  funext p
  split <;> rfl

theorem map_after_nil (secondsText : Int → String) (p : Option (NodeSubscription × OnData)) :
    p.map (fun p => (p.1.after secondsText [], p.2)) = p := by
  cases p <;> rfl

/-- A step is to each subscription what it is to it alone. -/
theorem Stepped.getElem?_begun (hs : Stepped secondsText s e s') (hi : i < s.begun.length) :
    s'.begun[i]? =
      s.begun[i]?.map fun p => (p.1.after secondsText (own secondsText i (s, e)), p.2) := by
  cases hs with
  | start => exact (List.getElem?_append_left hi).trans (map_after_nil secondsText _).symm
  | @notified j node value now p hbegun =>
      rw [List.getElem?_set]
      by_cases hj : j = i
      · subst hj
        rw [if_pos rfl, if_pos hi, hbegun, own, if_pos rfl]
        rfl
      · rw [if_neg hj, own, if_neg hj]
        exact (map_after_nil secondsText _).symm
  | @statusChanged j status p hbegun =>
      rw [List.getElem?_set]
      by_cases hj : j = i
      · subst hj
        rw [if_pos rfl, if_pos hi, hbegun, own, if_pos rfl]
        rfl
      · rw [if_neg hj, own, if_neg hj]
        exact (map_after_nil secondsText _).symm
  | round =>
      refine (getElem?_monitorSubscriptions _ _ _ _ _).trans ?_
      rw [own]
      split <;> rfl

theorem Stepped.length_begun (hs : Stepped secondsText s e s') :
    s'.begun.length = s.begun.length + (startedBy (s, e)).toList.length := by
  cases hs with
  | start => exact List.length_append
  | notified | statusChanged => exact List.length_set
  | round => exact length_sweep _ _ _

/-- Nothing happens to those that have not begun. -/
theorem Stepped.own_eq_nil (hs : Stepped secondsText s e s') (hi : s.begun.length ≤ i) :
    own secondsText i (s, e) = [] := by
  cases hs with
  | start => rfl
  | @notified j _ _ _ _ hbegun | @statusChanged j _ _ hbegun =>
      have hj : j < s.begun.length := (List.getElem?_eq_some_iff.mp hbegun).1
      rw [own, if_neg (by omega)]
  | round =>
      rw [own]
      refine if_neg fun h => ?_
      have hlt := (lt_swept_iff.mp h).1
      omega

/-! ## A run -/

/-- What is known of the subscriptions after these steps. -/
structure Kept (secondsText : Int → String) (built : List (NodeSubscription × OnData))
    (tr : List (Subscriptions × Event)) (s : Subscriptions) : Prop where
  waiting : s.waiting = built.drop s.begun.length
  le : s.begun.length ≤ built.length
  length : (tr.filterMap startedBy).length = s.begun.length
  begun : ∀ (i : Nat) (p : NodeSubscription × OnData) server now, built[i]? = some p →
    (tr.filterMap startedBy)[i]? = some (server, now) →
    s.begun[i]? = some
      ((p.1.start server now).1.after secondsText (tr.flatMap (own secondsText i)), p.2)
  untouched : ∀ i, s.begun.length ≤ i → tr.flatMap (own secondsText i) = []
  returned : s.failure = none → ∀ (i : Nat) (p : NodeSubscription × OnData) server now,
    built[i]? = some p → (tr.filterMap startedBy)[i]? = some (server, now) →
    (p.1.start server now).2.2 = .ok ()

theorem flatMap_snoc {α β : Type*} (f : α → List β) (l : List α) (a : α) :
    (l ++ [a]).flatMap f = l.flatMap f ++ f a := by
  rw [List.flatMap_append, List.flatMap_singleton]

theorem after_append (secondsText : Int → String) (s : NodeSubscription)
    (past events : List NodeSubscription.Event) :
    s.after secondsText (past ++ events) = (s.after secondsText past).after secondsText events :=
  List.foldl_append

/-- A step that starts none. -/
theorem Kept.step_of_none (hkept : Kept secondsText built tr s)
    (hs : Stepped secondsText s e s') (hstarted : startedBy (s, e) = none)
    (hwaiting : s'.waiting = s.waiting) (hfailure : s'.failure = none → s.failure = none) :
    Kept secondsText built (tr ++ [(s, e)]) s' := by
  have hstarts : (tr ++ [(s, e)]).filterMap startedBy = tr.filterMap startedBy := by
    rw [List.filterMap_append, List.filterMap_cons_none hstarted, List.filterMap_nil,
      List.append_nil]
  have hlength : s'.begun.length = s.begun.length := by
    rw [hs.length_begun, hstarted]
    rfl
  refine ⟨?_, ?_, ?_, fun i p server now hp hq => ?_, fun i hi => ?_, fun h => ?_⟩
  · rw [hwaiting, hlength, hkept.waiting]
  · rw [hlength]
    exact hkept.le
  · rw [hstarts, hlength, hkept.length]
  · rw [hstarts] at hq
    have hi : i < s.begun.length := by
      rw [← hkept.length]
      exact (List.getElem?_eq_some_iff.mp hq).1
    rw [hs.getElem?_begun hi, hkept.begun i p server now hp hq, Option.map_some, flatMap_snoc,
      after_append]
  · rw [hlength] at hi
    rw [flatMap_snoc, hkept.untouched i hi, hs.own_eq_nil hi, List.append_nil]
  · rw [hstarts]
    exact hkept.returned (hfailure h)

theorem Kept.step (hkept : Kept secondsText built tr s) (hs : Stepped secondsText s e s') :
    Kept secondsText built (tr ++ [(s, e)]) s' := by
  cases hs' : hs with
  | @start subscription on_data waiting server now failure hfailure hwaiting houtcome =>
      have hnth : built[s.begun.length]? = some (subscription, on_data) ∧
          built.drop (s.begun.length + 1) = waiting := by
        have hdrop := hkept.waiting.symm.trans hwaiting
        refine ⟨?_, ?_⟩
        · rw [← List.head?_drop, hdrop]
          rfl
        · rw [← List.tail_drop, hdrop]
          rfl
      have hstarts : (tr ++ [(s, Event.start server now)]).filterMap startedBy =
          tr.filterMap startedBy ++ [(server, now)] := List.filterMap_append
      -- Either one of those before, or the one that is started.
      have hcases : ∀ {i p server' now'}, built[i]? = some p →
          ((tr ++ [(s, Event.start server now)]).filterMap startedBy)[i]? = some (server', now') →
          (i < s.begun.length ∧ (tr.filterMap startedBy)[i]? = some (server', now')) ∨
          i = s.begun.length ∧ p = (subscription, on_data) ∧ server' = server ∧ now' = now := by
        intro i p server' now' hp hq
        rw [hstarts, List.getElem?_append, hkept.length] at hq
        split at hq
        · next hi => exact .inl ⟨hi, hq⟩
        · next hi =>
            obtain ⟨hlt, heq⟩ := List.getElem?_eq_some_iff.mp hq
            rw [List.length_singleton] at hlt
            obtain rfl : i = s.begun.length := by omega
            rw [hnth.1] at hp
            cases hp
            simp only [List.getElem_singleton, Prod.mk.injEq] at heq
            exact .inr ⟨rfl, rfl, heq.1.symm, heq.2.symm⟩
      refine ⟨?_, ?_, ?_, fun i p server' now' hp hq => ?_, fun i hi => ?_,
        fun h i p server' now' hp hq => ?_⟩
      · rw [List.length_append]
        exact hnth.2.symm
      · rw [List.length_append]
        exact (List.getElem?_eq_some_iff.mp hnth.1).1
      · rw [hstarts, List.length_append, List.length_append, hkept.length]
        rfl
      · have hown : own secondsText i (s, Event.start server now) = [] := rfl
        rw [flatMap_snoc, hown, List.append_nil]
        rcases hcases hp hq with ⟨hi, hq⟩ | ⟨rfl, rfl, rfl, rfl⟩
        · rw [List.getElem?_append_left hi, hkept.begun i p server' now' hp hq]
        · rw [List.getElem?_concat_length, hkept.untouched _ le_rfl]
          rfl
      · rw [List.length_append] at hi
        rw [flatMap_snoc, hkept.untouched i ((Nat.le_add_right _ _).trans hi)]
        rfl
      · rcases hcases hp hq with ⟨-, hq⟩ | ⟨-, rfl, rfl, rfl⟩
        · exact hkept.returned hfailure i p server' now' hp hq
        · exact houtcome h
  | notified | statusChanged => exact hkept.step_of_none hs rfl rfl id
  | round hfailure => exact hkept.step_of_none hs rfl rfl fun _ => hfailure

theorem Run.kept (h : Run (step secondsText) (ofBuilt built) tr s) :
    Kept secondsText built tr s := by
  induction h with
  | nil =>
      exact ⟨rfl, Nat.zero_le _, rfl, (fun _ _ _ _ _ h => by cases h), fun _ _ => rfl,
        fun _ _ _ _ _ _ h => by cases h⟩
  | snoc _ hs ih => exact ih.step (step_cases hs)

/-! ## Time -/

/-- The instants of a step. -/
def instants : Subscriptions × Event → List Utc
  | (_, .start _ now) => [now]
  | (_, .notified _ _ _ now) => [now]
  | (_, .statusChanged _ _) => []
  | (s, .round clock _) => (List.range s.begun.length).map clock

/-- The instants of a round. -/
def roundInstants : Subscriptions × Event → Option (List Utc)
  | (s, .round clock _) => some ((List.range s.begun.length).map clock)
  | _ => none

/-- The clock never goes back, and no subscription has to wait more than a
minute for its next check. -/
structure Timed (tr : List (Subscriptions × Event)) : Prop where
  clock : (tr.flatMap instants).Pairwise fun u v => 0 ≤ v.since u
  often : (tr.filterMap roundInstants).IsChain fun us vs =>
    ∀ p ∈ us.zip vs, p.2.since p.1 ≤ 60000000

/-- The instants of one subscription, among all. -/
structure Ordered (secondsText : Int → String) (built : List (NodeSubscription × OnData))
    (tr : List (Subscriptions × Event)) (s : Subscriptions) : Prop where
  taken : ∀ (i : Nat) server began, (tr.filterMap startedBy)[i]? = some (server, began) →
    List.Sublist (began :: (tr.flatMap (own secondsText i)).filterMap takenAt)
      (tr.flatMap instants)
  rounds : ∀ us ∈ tr.filterMap roundInstants, us.length = built.length
  checks : s.failure = none → ∀ i,
    (tr.flatMap (own secondsText i)).filterMap checkedAt =
      (tr.filterMap roundInstants).filterMap fun us => us[i]?

theorem takenAt_own_sublist (secondsText : Int → String) (i : Nat) (p : Subscriptions × Event) :
    List.Sublist ((own secondsText i p).filterMap takenAt) (instants p) := by
  obtain ⟨s, e⟩ := p
  cases e with
  | start => exact List.nil_sublist _
  | notified j node value now =>
      rw [own]
      split
      · exact List.Sublist.refl _
      · exact List.nil_sublist _
  | statusChanged j status =>
      rw [own]
      split <;> exact List.nil_sublist _
  | round clock log_event =>
      rw [own]
      split
      · next hi =>
          refine List.singleton_sublist.mpr (List.mem_map_of_mem (List.mem_range.mpr ?_))
          exact (lt_swept_iff.mp hi).1
      · exact List.nil_sublist _

theorem checkedAt_own (hs : Stepped secondsText s e s') (hfailure : s'.failure = none) (i : Nat) :
    (own secondsText i (s, e)).filterMap checkedAt =
      (roundInstants (s, e)).toList.filterMap fun us => us[i]? := by
  cases hs with
  | start => rfl
  | notified | statusChanged =>
      rw [own]
      split <;> rfl
  | round =>
      rw [own, swept_of_raised_none hfailure]
      simp only [roundInstants, Option.toList_some, List.filterMap_cons, List.filterMap_nil,
        List.getElem?_map]
      by_cases hi : i < s.begun.length <;> simp [hi, checkedAt]

theorem Run.ordered (h : Run (step secondsText) (ofBuilt built) tr s) :
    Ordered secondsText built tr s := by
  induction h with
  | nil =>
      exact ⟨(fun _ _ _ h => by cases h), fun _ h => absurd h List.not_mem_nil, fun _ _ => rfl⟩
  | @snoc tr s s' e h hs ih =>
      have hkept := Run.kept h
      have hstepped := step_cases hs
      refine ⟨fun i server began hq => ?_, fun us hus => ?_, fun hfailure i => ?_⟩
      · rw [flatMap_snoc, flatMap_snoc, List.filterMap_append, ← List.cons_append]
        rw [List.filterMap_append, List.getElem?_append] at hq
        split at hq
        · exact (ih.taken i server began hq).append (takenAt_own_sublist secondsText i (s, e))
        · next hi =>
            -- It is the one that is started in this step.
            rw [hkept.length] at hi
            rw [hkept.untouched i (by omega), hstepped.own_eq_nil (by omega)]
            cases e with
            | start server' now' =>
                have hmem := List.mem_of_getElem? hq
                cases List.mem_singleton.mp hmem
                exact List.sublist_append_right _ _
            | notified | statusChanged | round => cases hq
      · rw [List.filterMap_append] at hus
        rcases List.mem_append.mp hus with hus | hus
        · exact ih.rounds us hus
        · cases hstepped with
          | start | notified | statusChanged => cases hus
          | round _ hwaiting =>
              have hdrop := List.drop_eq_nil_iff.mp (hkept.waiting.symm.trans hwaiting)
              cases List.mem_singleton.mp hus
              rw [List.length_map, List.length_range]
              exact le_antisymm hkept.le hdrop
      · have hbefore : s.failure = none := by
          cases hstepped with
          | start hnone | round hnone => exact hnone
          | notified | statusChanged => exact hfailure
        rw [flatMap_snoc, List.filterMap_append, ih.checks hbefore i,
          checkedAt_own hstepped hfailure i, List.filterMap_append, List.filterMap_append]
        cases e <;> rfl

theorem isChain_filterMap {α β : Type*} {R : α → α → Prop} {R' : β → β → Prop} {f : α → Option β}
    {l : List α} (h : l.IsChain R) (hsome : ∀ a ∈ l, (f a).isSome = true)
    (hR : ∀ a a' b b', R a a' → f a = some b → f a' = some b' → R' b b') :
    (l.filterMap f).IsChain R' := by
  induction h with
  | nil => exact .nil
  | singleton a =>
      obtain ⟨b, hb⟩ := Option.isSome_iff_exists.mp (hsome a List.mem_cons_self)
      rw [List.filterMap_cons_some hb]
      exact .singleton b
  | @cons_cons a a' l hrel _ ih =>
      obtain ⟨b, hb⟩ := Option.isSome_iff_exists.mp (hsome a List.mem_cons_self)
      obtain ⟨b', hb'⟩ := Option.isSome_iff_exists.mp
        (hsome a' (List.mem_cons_of_mem _ List.mem_cons_self))
      have hrest := ih fun c hc => hsome c (List.mem_cons_of_mem _ hc)
      rw [List.filterMap_cons_some hb'] at hrest
      rw [List.filterMap_cons_some hb, List.filterMap_cons_some hb']
      exact .cons_cons (hR a a' b b' hrel hb hb') hrest

/-- A round that is on time checks each subscription on time. -/
theorem Ordered.watched {clock : Nat → Utc} {log_event : Nat → String → Except Exc Unit}
    {server : SubscriptionServer} {began : Utc} {limit : Int}
    (hordered : Ordered secondsText built tr s) (hfailure : s.failure = none)
    (hlength : s.begun.length = built.length) (hi : i < built.length)
    (hstarted : (tr.filterMap startedBy)[i]? = some (server, began)) (hlimit : 60000000 ≤ limit)
    (hgood : lastValue badStatus (tr.flatMap (own secondsText i)) = none)
    (htimed : Timed (tr ++ [(s, .round clock log_event)])) :
    NodeSubscription.Watched limit began
      (tr.flatMap (own secondsText i) ++ [.checked (clock i)]) := by
  obtain ⟨hclock, hoften⟩ := htimed
  refine ⟨fun e he => ?_, hclock.sublist ?_, ?_⟩
  · rcases List.mem_append.mp he with he | he
    · rw [lastValue, List.getLast?_eq_none_iff, List.filterMap_eq_nil_iff] at hgood
      exact hgood e he
    · cases List.mem_singleton.mp he
      rfl
  · rw [flatMap_snoc, List.filterMap_append, ← List.cons_append]
    refine (hordered.taken i server began hstarted).append (List.singleton_sublist.mpr ?_)
    exact List.mem_map_of_mem (List.mem_range.mpr (hlength ▸ hi))
  · have hchecks : (tr.flatMap (own secondsText i) ++
          [NodeSubscription.Event.checked (clock i)]).filterMap checkedAt =
        ((tr ++ [(s, Event.round clock log_event)]).filterMap roundInstants).filterMap
          fun us => us[i]? := by
      rw [List.filterMap_append, List.filterMap_append, List.filterMap_append,
        hordered.checks hfailure i]
      simp [roundInstants, checkedAt, hlength, hi]
    rw [hchecks]
    refine isChain_filterMap hoften (fun us hus => ?_) fun us vs u v hrel hu hv => ?_
    · have hus' : us.length = built.length := by
        rw [List.filterMap_append] at hus
        rcases List.mem_append.mp hus with hus | hus
        · exact hordered.rounds us hus
        · cases List.mem_singleton.mp hus
          rw [List.length_map, List.length_range, hlength]
      rw [List.getElem?_eq_getElem (hus' ▸ hi)]
      rfl
    · refine le_trans (hrel (u, v) (List.mem_of_getElem? (i := i) ?_)) hlimit
      rw [List.getElem?_zip_eq_some]
      exact ⟨hu, hv⟩

/-! ## A round -/

/-- What the check of a subscription has to come to, going by what has
happened to it since it was started. -/
def outcome (secondsText : Int → String) (log_event : String → Except Exc Unit)
    (s : NodeSubscription) (began : Utc) (events : List NodeSubscription.Event) (now : Utc) :
    Except Exc (Option String) :=
  match lastValue badStatus events with
  | some status => .error (NodeSubscription.subscriptionFailed s.label status)
  | none =>
      match report secondsText s began events now with
      | some message => (log_event message).map fun () => some message
      | none => .ok none

/-- The same of the subscriptions of a session, by their position. -/
def verdict (secondsText : Int → String) (built : List (NodeSubscription × OnData))
    (past : List (Subscriptions × Event)) (clock : Nat → Utc)
    (log_event : Nat → String → Except Exc Unit) (i : Nat) : Except Exc (Option String) :=
  match built[i]?, (past.filterMap startedBy)[i]? with
  | some p, some began =>
      outcome secondsText (log_event i) p.1 began.2 (past.flatMap (own secondsText i)) (clock i)
  | _, _ => .ok none

/-- What the constructor of a subscription and `_build_subscriptions` leave. -/
structure Fresh (s : NodeSubscription) : Prop where
  received : s.last_received_at = none
  failed : s.failed_status = none
  quiet : s.was_stale = false
  stale_after : 60000000 ≤ s.config.stale_after

theorem start_keeps (server : SubscriptionServer) (s : NodeSubscription) (now : Utc) :
    (s.start server now).1.label = s.label ∧ (s.start server now).1.config = s.config := by
  unfold NodeSubscription.start
  split
  · exact ⟨rfl, rfl⟩
  · dsimp only
    split
    · exact ⟨rfl, rfl⟩
    · split
      · exact ⟨rfl, rfl⟩
      · split <;> exact ⟨rfl, rfl⟩

theorem verdict_eq {clock : Nat → Utc} {log_event : Nat → String → Except Exc Unit}
    {p : NodeSubscription × OnData} {server : SubscriptionServer} {began : Utc}
    (hp : built[i]? = some p) (hstarted : (tr.filterMap startedBy)[i]? = some (server, began)) :
    verdict secondsText built tr clock log_event i =
      outcome secondsText (log_event i) p.1 began (tr.flatMap (own secondsText i)) (clock i) := by
  rw [verdict, hp, hstarted]

theorem outcome_of_bad {log_event : String → Except Exc Unit} {s : NodeSubscription}
    {began now : Utc} {events : List NodeSubscription.Event} {status : StatusCode}
    (hbad : lastValue badStatus events = some status) :
    outcome secondsText log_event s began events now =
      .error (NodeSubscription.subscriptionFailed s.label status) := by
  rw [outcome, hbad]

theorem outcome_of_good {log_event : String → Except Exc Unit} {s : NodeSubscription}
    {began now : Utc} {events : List NodeSubscription.Event} {answer : Option String}
    (hgood : lastValue badStatus events = none)
    (hreport : report secondsText s began events now = answer) :
    outcome secondsText log_event s began events now =
      answer.elim (.ok none) fun message => (log_event message).map fun () => some message := by
  rw [outcome, hreport, hgood]
  cases answer <;> rfl

theorem checkAndLog_of_error {clock : Nat → Utc} {log_event : Nat → String → Except Exc Unit}
    {p : NodeSubscription × OnData} {exc : Exc}
    (h : (p.1.checkHealth secondsText (clock i)).2 = .error exc) :
    (checkAndLog secondsText clock log_event i p).2 = .error exc := by
  simp only [checkAndLog, h]

theorem checkAndLog_of_ok {clock : Nat → Utc} {log_event : Nat → String → Except Exc Unit}
    {p : NodeSubscription × OnData} {answer : Option String}
    (h : (p.1.checkHealth secondsText (clock i)).2 = .ok answer) :
    (checkAndLog secondsText clock log_event i p).2 =
      answer.elim (.ok none) fun message => (log_event i message).map fun () => some message := by
  cases answer <;> simp only [checkAndLog, h, Option.elim_none, Option.elim_some]

/-- The turn of a round for a subscription comes to what it has to. -/
theorem checkAndLog_eq {p : NodeSubscription × OnData} {server : SubscriptionServer} {began : Utc}
    {clock : Nat → Utc} {log_event : Nat → String → Except Exc Unit} (hfresh : Fresh p.1)
    (hp : built[i]? = some p) (hstarted : (tr.filterMap startedBy)[i]? = some (server, began))
    (hok : (p.1.start server began).2.2 = .ok ())
    (hwatched : lastValue badStatus (tr.flatMap (own secondsText i)) = none →
      NodeSubscription.Watched p.1.config.stale_after began
        (tr.flatMap (own secondsText i) ++ [.checked (clock i)])) :
    (checkAndLog secondsText clock log_event i
        ((p.1.start server began).1.after secondsText (tr.flatMap (own secondsText i)), p.2)).2 =
      verdict secondsText built tr clock log_event i := by
  obtain ⟨hlabel, hconfig⟩ := start_keeps server p.1 began
  rw [verdict_eq hp hstarted]
  cases hbad : lastValue badStatus (tr.flatMap (own secondsText i)) with
  | some status =>
      obtain ⟨hfailed, hlabel'⟩ := NodeSubscription.failed_status_after secondsText
        (p.1.start server began).1 (tr.flatMap (own secondsText i))
      rw [hbad, Option.some_or] at hfailed
      rw [outcome_of_bad hbad, ← hlabel, ← hlabel']
      refine checkAndLog_of_error ?_
      rw [NodeSubscription.checkHealth, hfailed]
  | none =>
      have hbegan :=
        NodeSubscription.started_of_start hfresh.received hfresh.failed hfresh.quiet hok
      have hwatched := hwatched hbad
      rw [← hconfig] at hwatched
      have hreport : report secondsText p.1 began (tr.flatMap (own secondsText i)) (clock i) =
          report secondsText (p.1.start server began).1 began
            (tr.flatMap (own secondsText i)) (clock i) := by
        rw [report, report, hconfig, hlabel]
      rw [outcome_of_good hbad hreport]
      refine checkAndLog_of_ok ?_
      exact (NodeSubscription.tracks hbegan hwatched.of_append).report_eq hwatched

/-- Each metric has a subscription of its own, and so has each channel with tags. -/
theorem mem_built {upper : String → String} {settings : Settings} {server_name : String}
    {channel_tags : Dict String (Dict String String)}
    (h : buildSubscriptions upper settings server_name channel_tags = .ok built)
    {p : NodeSubscription × OnData} (hp : p ∈ built) :
    (∃ name ∈ settings.metrics, ∃ metric, metrics.get? name = some metric ∧
      p = (metricSubscription upper settings server_name metric, .onMetric)) ∨
    ∃ channel ∈ channel_tags.items,
      p = (channelSubscription upper server_name channel.1 channel.2, .onTag) := by
  obtain ⟨ofMetrics, hmetrics, h⟩ := ok_of_bind h
  cases h
  rcases List.mem_append.mp hp with hp | hp
  · obtain ⟨name, hname, hok⟩ := mem_of_mapM_ok hmetrics p hp
    obtain ⟨metric, hmetric, hok⟩ := ok_of_bind hok
    cases hok
    refine .inl ⟨name, hname, metric, ?_, rfl⟩
    unfold metricNamed at hmetric
    split at hmetric
    · next hget =>
        cases hmetric
        exact hget
    · cases hmetric
  · obtain ⟨channel, hchannel, rfl⟩ := List.mem_map.mp hp
    exact .inr ⟨channel, (List.mem_filter.mp hchannel).1, rfl⟩

/-- The subscriptions that are built are new, and none has less than a minute. -/
theorem fresh_of_build {upper : String → String} {settings : Settings} {server_name : String}
    {channel_tags : Dict String (Dict String String)}
    (h : buildSubscriptions upper settings server_name channel_tags = .ok built) :
    ∀ p ∈ built, Fresh p.1 := by
  intro p hp
  rcases mem_built h hp with ⟨_, -, metric, -, rfl⟩ | ⟨channel, -, rfl⟩
  · exact ⟨rfl, rfl, rfl, le_max_left _ _⟩
  · exact ⟨rfl, rfl, rfl, le_rfl⟩

/-- What a step made the session end with. -/
def raised (secondsText : Int → String) (p : Subscriptions × Event) : Option Exc :=
  (step secondsText p.1 p.2).bind failure

theorem Timed.of_append {tr' : List (Subscriptions × Event)} (h : Timed (tr ++ tr')) :
    Timed tr := by
  obtain ⟨hclock, hoften⟩ := h
  rw [List.flatMap_append] at hclock
  rw [List.filterMap_append] at hoften
  exact ⟨(List.pairwise_append.mp hclock).1, hoften.left_of_append⟩

/-- Each turn of a round comes to what it has to. -/
theorem answering_verdict {clock : Nat → Utc} {log_event : Nat → String → Except Exc Unit}
    (hfresh : ∀ p ∈ built, Fresh p.1) (h : Run (step secondsText) (ofBuilt built) tr s)
    (hfailure : s.failure = none) (hlength : s.begun.length = built.length)
    (htimed : Timed (tr ++ [(s, .round clock log_event)])) :
    Answering (checkAndLog secondsText clock log_event) s.begun
      (verdict secondsText built tr clock log_event) := by
  intro i p hp
  have hkept := Run.kept h
  have hi : i < s.begun.length := (List.getElem?_eq_some_iff.mp hp).1
  obtain ⟨q, hq⟩ : ∃ q, built[i]? = some q := ⟨_, List.getElem?_eq_getElem (hlength ▸ hi)⟩
  obtain ⟨⟨server, began⟩, hstarted⟩ : ∃ x, (tr.filterMap startedBy)[i]? = some x :=
    ⟨_, List.getElem?_eq_getElem (hkept.length.symm ▸ hi)⟩
  have hfresh := hfresh q (List.mem_of_getElem? hq)
  rw [hkept.begun i q server began hq hstarted] at hp
  cases hp
  refine checkAndLog_eq hfresh hq hstarted (hkept.returned hfailure i q server began hq hstarted) ?_
  exact fun hgood => (Run.ordered h).watched hfailure hlength (hlength ▸ hi) hstarted
    hfresh.stale_after hgood htimed

/-- A subscription that the server has ended is one that raises. -/
theorem not_isOk_verdict {clock : Nat → Utc} {log_event : Nat → String → Except Exc Unit}
    (hi : i < built.length) (hi' : i < (tr.filterMap startedBy).length)
    (hbad : (lastValue badStatus (tr.flatMap (own secondsText i))).isSome) :
    ¬ IsOk (verdict secondsText built tr clock log_event i) := by
  rintro ⟨message, hmessage⟩
  obtain ⟨p, hp⟩ : ∃ p, built[i]? = some p := ⟨_, List.getElem?_eq_getElem hi⟩
  obtain ⟨q, hq⟩ : ∃ q, (tr.filterMap startedBy)[i]? = some q := ⟨_, List.getElem?_eq_getElem hi'⟩
  obtain ⟨status, hstatus⟩ := Option.isSome_iff_exists.mp hbad
  rw [verdict_eq hp hq, outcome_of_bad hstatus] at hmessage
  cases hmessage

/-- With any number of subscriptions, whatever the server sends and whenever
it ends one: a round logs the messages of the subscriptions up to the first
whose turn raises, and ends the session with what that raises. A subscription
that the server has ended raises, and one that is silent for too long has a
message if no check before has found the same silence too long. -/
theorem rounds_report {upper : String → String} {settings : Settings} {server_name : String}
    {channel_tags : Dict String (Dict String String)}
    (hbuilt : buildSubscriptions upper settings server_name channel_tags = .ok built)
    (h : Run (step secondsText) (ofBuilt built) tr s) (htimed : Timed tr) :
    EachWithPast (fun past p => ∀ clock log_event, p.2 = .round clock log_event →
      let verdict := verdict secondsText built past clock log_event
      (∀ i message, (i, message) ∈ logged secondsText p ↔
        i < built.length ∧ (∀ j < i, IsOk (verdict j)) ∧ verdict i = .ok (some message)) ∧
      (∀ exc, raised secondsText p = some exc ↔
        ∃ i < built.length, (∀ j < i, IsOk (verdict j)) ∧ verdict i = .error exc) ∧
      ((∃ i < built.length, (lastValue badStatus (past.flatMap (own secondsText i))).isSome) →
        (raised secondsText p).isSome)) tr := by
  rintro past ⟨t, e⟩ rest rfl clock log_event rfl
  obtain ⟨t', hpast, hs, -⟩ := h.split
  have hkept := Run.kept hpast
  have htimed' : Timed (past ++ [(t, .round clock log_event)]) := by
    rw [List.append_cons] at htimed
    exact htimed.of_append
  have hraised : raised secondsText (t, .round clock log_event) = t'.failure := by
    rw [raised, hs, Option.bind_some]
  cases hstep : step_cases hs with
  | round hfailure hwaiting =>
      have hlength : t.begun.length = built.length := le_antisymm hkept.le
        (List.drop_eq_nil_iff.mp (hkept.waiting.symm.trans hwaiting))
      have hanswering :=
        answering_verdict (fresh_of_build hbuilt) hpast hfailure hlength htimed'
      rw [hraised, ← hlength]
      refine ⟨fun i message => ?_, fun exc => hanswering.raised_iff, ?_⟩
      · rw [← hanswering.mem_answers_iff]
        simp [logged, monitorSubscriptions]
      · rintro ⟨i, hi, hbad⟩
        by_contra hnone
        rw [Option.not_isSome_iff_eq_none] at hnone
        refine not_isOk_verdict (hlength ▸ hi) (hkept.length.symm ▸ hi) hbad
          (hanswering.raised_none hnone hi)

/-! ## A metric and a channel -/

def onlyCpu : Settings := { metrics := ["cpu"] }

def twoTags : Dict String (Dict String String) :=
  Dict.ofList [("Line1", Dict.ofList [("tank", "ns=2;s=tank"), ("pump", "ns=2;s=pump")])]

def cpuMetric : Metric :=
  { name := "cpu", node_name := "CPU", model := .cpuUsage, table_name := "cpu_usage" }

def cpuSubscription : NodeSubscription := metricSubscription String.toUpper onlyCpu "plant" cpuMetric

def cpuAndTags : List (NodeSubscription × OnData) :=
  [(cpuSubscription, .onMetric),
    (channelSubscription String.toUpper "plant" "Line1"
      (Dict.ofList [("tank", "ns=2;s=tank"), ("pump", "ns=2;s=pump")]), .onTag)]

theorem build_cpuAndTags :
    buildSubscriptions String.toUpper onlyCpu "plant" twoTags = .ok cpuAndTags := by
  have hcpu : metricNamed "cpu" = .ok cpuMetric := rfl
  have hmetrics : onlyCpu.metrics = ["cpu"] := rfl
  rw [buildSubscriptions, hmetrics, List.mapM_cons, List.mapM_nil, hcpu]
  rfl

/-- The metric is silent when the server ends the subscription to the tags. -/
def endedByServer : List Event :=
  [.start (serverWithout []) (atMinute 0), .start (serverWithout ["ns=2;s=pump"]) (atMinute 0),
    .round (fun _ => atMinute 1) fun _ _ => .ok (),
    .notified 1 "ns=2;s=tank" (.good (.int 3)) (atMinute 1),
    .statusChanged 1 ⟨"BadTimeout", false⟩,
    .round (fun _ => atMinute 2) fun _ _ => .ok ()]

theorem execute_endedByServer :
    (execute (step inSeconds) (ofBuilt cpuAndTags) endedByServer).isSome = true := by
  decide

theorem timed_endedByServer : Timed (executed (step inSeconds) (ofBuilt cpuAndTags) endedByServer
    execute_endedByServer).1 :=
  ⟨by decide, by decide⟩

theorem report_cpuSubscription :
    report inSeconds cpuSubscription (atMinute 0) [.checked (atMinute 1)] (atMinute 2) =
      some (NodeSubscription.noChanges inSeconds (subscriptionLabel String.toUpper "plant" "cpu")
        120000000) := by
  have hlabel : cpuSubscription.label = subscriptionLabel String.toUpper "plant" "cpu" := rfl
  have hsince : (atMinute 2).since (NodeSubscription.silenceBegan (atMinute 0)
      [.checked (atMinute 1)]) = 120000000 := by decide
  rw [report, if_pos (by decide), hlabel, hsince]

theorem rounds_report_endedByServer :
    let run := executed (step inSeconds) (ofBuilt cpuAndTags) endedByServer execute_endedByServer
    ∀ hne : run.1 ≠ [],
      (0, NodeSubscription.noChanges inSeconds (subscriptionLabel String.toUpper "plant" "cpu")
          120000000) ∈
        logged inSeconds (run.1.getLast hne) ∧
        (raised inSeconds (run.1.getLast hne)).isSome := by
  intro run hne
  obtain ⟨hlogged, -, hended⟩ := (rounds_report build_cpuAndTags
    (Run.executed execute_endedByServer) timed_endedByServer).getLast hne _ _ rfl
  have hcpu : cpuAndTags[0]? = some (cpuSubscription, .onMetric) := rfl
  have hstarted : (run.1.dropLast.filterMap startedBy)[0]? =
      some (serverWithout [], atMinute 0) := rfl
  have hown : run.1.dropLast.flatMap (own inSeconds 0) = [.checked (atMinute 1)] := by decide
  have hgood : lastValue badStatus [NodeSubscription.Event.checked (atMinute 1)] = none := rfl
  refine ⟨(hlogged 0 _).mpr ⟨by decide, fun j hj => absurd hj (Nat.not_lt_zero j), ?_⟩,
    hended ⟨1, by decide, by decide⟩⟩
  rw [verdict_eq hcpu hstarted, hown, outcome_of_good hgood report_cpuSubscription]
  rfl

end KepServerLogger.Ingestor.Subscriptions
