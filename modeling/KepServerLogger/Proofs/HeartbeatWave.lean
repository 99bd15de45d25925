import KepServerLogger.Base.TriangleWave
import KepServerLogger.Lib.Heartbeat
import Mathlib.Data.Int.Interval

/-!
# The values that are sent

The value of the n-th send depends on n only, not on what comes back: it is a
triangle wave of the height that the handler is built with. So there are only
so many values, and the table of the sends that have not come back holds no
more than the last of each, however long the handler runs.
-/

namespace KepServerLogger.Lib.SystemHeartbeatHandler

open KepServerLogger.Py

variable {millis : Int → PyFloat} {pair : String} {m max_rtt : Int} {events : List Event}
  {times : List Int} {h : SystemHeartbeatHandler}

/-- What happens to a handler that sends. -/
inductive Event where
  /-- `send_heartbeat`. The table and the value are set before its first
  await, so whether the write is made or fails leaves no trace in them. -/
  | send (monotonic : Int) (written : Bool)
  | notified (val : Int) (now : Utc) (monotonic : Int)

def handle (millis : Int → PyFloat) (h : SystemHeartbeatHandler) : Event → SystemHeartbeatHandler
  | .send monotonic _ => h.sendHeartbeat monotonic
  | .notified val now monotonic => (h.datachangeNotification millis val now monotonic).1

def handleAll (millis : Int → PyFloat) (h : SystemHeartbeatHandler) (events : List Event) :
    SystemHeartbeatHandler := events.foldl (handle millis) h

def sendTime : Event → Option Int
  | .send monotonic _ => some monotonic
  | .notified _ _ _ => none

/-- When each send was made, in their order. -/
def sendTimes (events : List Event) : List Int := events.filterMap sendTime

/-- The time of the last send of a value, where the k-th send is of the k-th
value of the wave. -/
def LastSendOf (m : Int) (times : List Int) (v t : Int) : Prop :=
  ∃ k : Nat, times[k]? = some t ∧ triangleWave m (k + 1) = v ∧
    ∀ j : Nat, k < j → j < times.length → triangleWave m (j + 1) ≠ v

/-! ## One step -/

theorem keeps_notified (h : SystemHeartbeatHandler) (val monotonic : Int) (now : Utc) :
    let h' := (h.datachangeNotification millis val now monotonic).1
    h'.max_heartbeat = h.max_heartbeat ∧ h'.increasing = h.increasing ∧
      h'.heartbeat = h.heartbeat ∧
      ∀ v t, h'.sent_at_map.get? v = some t → h.sent_at_map.get? v = some t := by
  unfold datachangeNotification
  dsimp only
  split
  · refine ⟨rfl, rfl, rfl, fun v t hv => ?_⟩
    dsimp only at hv
    rw [Dict.get?_erase] at hv
    split at hv
    · cases hv
    · exact hv
  · exact ⟨rfl, rfl, rfl, fun v t hv => hv⟩

/-- The value is on the wave, and the direction is that of the step that led
to it. -/
structure OnWave (m n : Int) (h : SystemHeartbeatHandler) : Prop where
  height : h.max_heartbeat = m
  value : h.heartbeat = triangleWave m n
  rising : 0 < n % (2 * m) → n % (2 * m) ≤ m → h.increasing = true
  falling : m < n % (2 * m) → h.increasing = false

theorem OnWave.updateHeartbeat {n : Int} (hm : 1 ≤ m) (hwave : OnWave m n h) :
    OnWave m (n + 1) h.updateHeartbeat := by
  obtain ⟨hheight, hvalue, hrising, hfalling⟩ := hwave
  have hlt := Int.emod_lt_of_pos n (show 0 < 2 * m by omega)
  have hnonneg := Int.emod_nonneg n (show 2 * m ≠ 0 by omega)
  have hnext := triangleWave.succ_emod hm n
  have hincreasing : h.updateHeartbeat.increasing = decide (n % (2 * m) < m) := by
    simp only [SystemHeartbeatHandler.updateHeartbeat]
    rw [hheight, hvalue]
    unfold triangleWave
    rcases Int.lt_trichotomy (n % (2 * m)) m with hup | htop | hdown
    · rw [if_pos hup.le, if_neg (by omega), decide_eq_true hup]
      by_cases hzero : n % (2 * m) = 0
      · cases h.increasing <;> simp [hzero]
      · rw [hrising (by omega) hup.le]
        simp
    · rw [hrising (by omega) htop.le, if_pos ⟨by rw [if_pos htop.le, htop], rfl⟩]
      exact (decide_eq_false (by omega)).symm
    · rw [hfalling hdown, if_neg (by simp), if_neg (by rw [if_neg hdown.not_ge]; omega)]
      exact (decide_eq_false (by omega)).symm
  refine ⟨hheight, ?_, fun hpos hle => ?_, fun hgt => ?_⟩
  · have hstep : h.updateHeartbeat.heartbeat =
        h.heartbeat + if h.updateHeartbeat.increasing then 1 else -1 := rfl
    rw [hstep, hincreasing, hvalue, triangleWave.succ hm]
    simp only [decide_eq_true_eq]
  · rw [hincreasing, decide_eq_true_eq]
    split at hnext <;> omega
  · rw [hincreasing, decide_eq_false_iff_not]
    split at hnext <;> omega

/-! ## Runs -/

/-- What holds after any run. -/
structure Sends (m : Int) (times : List Int) (h : SystemHeartbeatHandler) : Prop where
  wave : OnWave m times.length h
  sent_at : ∀ v t, h.sent_at_map.get? v = some t → LastSendOf m times v t

theorem Sends.send (hm : 1 ≤ m) (hsends : Sends m times h) (monotonic : Int) :
    Sends m (times ++ [monotonic]) (h.sendHeartbeat monotonic) := by
  have hwave : OnWave m (times ++ [monotonic]).length h.updateHeartbeat := by
    rw [List.length_append, List.length_singleton, Nat.cast_add, Nat.cast_one]
    exact hsends.wave.updateHeartbeat hm
  refine ⟨⟨hwave.height, hwave.value, hwave.rising, hwave.falling⟩, fun v t hv => ?_⟩
  have hvalue : h.updateHeartbeat.heartbeat = triangleWave m (times.length + 1) := by
    have hlast := hwave.value
    rw [List.length_append, List.length_singleton, Nat.cast_add, Nat.cast_one] at hlast
    exact hlast
  dsimp only [sendHeartbeat] at hv
  rw [Dict.get?_set] at hv
  split at hv
  · next hsame =>
      cases hv
      refine ⟨times.length, List.getElem?_concat_length, hvalue.symm.trans hsame, ?_⟩
      intro j hj hlength
      rw [List.length_append, List.length_singleton] at hlength
      omega
  · next hother =>
      obtain ⟨k, hk, hkv, hlater⟩ := hsends.sent_at v t hv
      obtain ⟨hklt, -⟩ := List.getElem?_eq_some_iff.mp hk
      refine ⟨k, by rw [List.getElem?_append_left hklt]; exact hk, hkv, ?_⟩
      intro j hj hlength
      rw [List.length_append, List.length_singleton] at hlength
      rcases Nat.lt_succ_iff_lt_or_eq.mp hlength with hlt | rfl
      · exact hlater j hj hlt
      · rw [← hvalue]
        exact hother

theorem Sends.handle (hm : 1 ≤ m) (hsends : Sends m (sendTimes events) h) (e : Event) :
    Sends m (sendTimes (events ++ [e])) (h.handle millis e) := by
  rw [sendTimes, List.filterMap_append]
  cases e with
  | send monotonic written => exact hsends.send hm monotonic
  | notified val now monotonic =>
      rw [List.filterMap_cons_none rfl, List.filterMap_nil, List.append_nil]
      obtain ⟨hheight, hincreasing, hvalue, hmap⟩ := @keeps_notified millis h val monotonic now
      obtain ⟨hwave, hsent⟩ := hsends
      refine ⟨⟨hheight.trans hwave.height, hvalue.trans hwave.value, ?_, ?_⟩, ?_⟩
      · exact fun hpos hle => hincreasing.trans (hwave.rising hpos hle)
      · exact fun hgt => hincreasing.trans (hwave.falling hgt)
      · exact fun v t hv => hsent v t (hmap v t hv)

theorem sends_handleAll (hm : 1 ≤ m) (events : List Event) :
    Sends m (sendTimes events) (handleAll millis (new pair m max_rtt) events) := by
  induction events using List.reverseRecOn with
  | nil =>
      refine ⟨⟨rfl, ?_, fun _ _ => ?_, fun hgt => ?_⟩, fun v t hv => (by cases hv)⟩
      · show (0 : Int) = triangleWave m 0
        rw [triangleWave, Int.zero_emod, if_pos (by omega)]
      · rfl
      · change m < 0 % (2 * m) at hgt
        rw [Int.zero_emod] at hgt
        omega
  | append_singleton events e ih =>
      rw [handleAll, List.foldl_append]
      exact ih.handle hm e

/-! ## The law -/

/-- The value is that of the wave at the number of sends, the table holds the
time of the last send of each value in it, and is no larger than the number of
values. -/
structure FollowsWave (millis : Int → PyFloat) (m : Int) (times : List Int)
    (h : SystemHeartbeatHandler) : Prop where
  value : h.heartbeat = triangleWave m times.length
  range : 0 ≤ h.heartbeat ∧ h.heartbeat ≤ m
  consecutive : ∀ monotonic written,
    |(h.handle millis (.send monotonic written)).heartbeat - h.heartbeat| = 1
  keys : ∀ v ∈ h.sent_at_map.keys, 0 ≤ v ∧ v ≤ m
  distinct : h.sent_at_map.keys.Nodup
  latest : ∀ v t, h.sent_at_map.get? v = some t → LastSendOf m times v t
  bounded : h.sent_at_map.keys.length ≤ m + 1

theorem LastSendOf.mem_range (hm : 1 ≤ m) {v t : Int} (hlast : LastSendOf m times v t) :
    0 ≤ v ∧ v ≤ m := by
  obtain ⟨k, -, rfl, -⟩ := hlast
  exact triangleWave.mem_range hm (k + 1)

theorem length_le_of_mem_range {l : List Int} (hm : 1 ≤ m) (hnodup : l.Nodup)
    (hrange : ∀ v ∈ l, 0 ≤ v ∧ v ≤ m) : l.length ≤ m + 1 := by
  have hsubset : l.toFinset ⊆ Finset.Icc 0 m := fun v hv =>
    Finset.mem_Icc.mpr (hrange v (List.mem_toFinset.mp hv))
  have hcard := Finset.card_le_card hsubset
  rw [List.toFinset_card_of_nodup hnodup, Int.card_Icc] at hcard
  omega

theorem followsWave (hm : 1 ≤ m) (events : List Event) :
    FollowsWave millis m (sendTimes events)
      (handleAll millis (new pair m max_rtt) events) := by
  have hsends : Sends m (sendTimes events) (handleAll millis (new pair m max_rtt) events) :=
    sends_handleAll hm events
  have hvalue := hsends.wave.value
  have hkeys : ∀ v ∈ (handleAll millis (new pair m max_rtt) events).sent_at_map.keys,
      0 ≤ v ∧ v ≤ m := by
    intro v hv
    obtain ⟨⟨_, t⟩, hmem, rfl⟩ := List.mem_map.mp hv
    exact (hsends.sent_at _ t (Dict.get?_eq_some.mpr hmem)).mem_range hm
  refine ⟨hvalue, ?_, fun monotonic written => ?_, hkeys, Dict.nodup _, hsends.sent_at,
    length_le_of_mem_range hm (Dict.nodup _) hkeys⟩
  · rw [hvalue]
    exact triangleWave.mem_range hm _
  · have hnext : (handleAll millis (new pair m max_rtt) events).updateHeartbeat.heartbeat =
        triangleWave m ((sendTimes events).length + 1) := (hsends.wave.updateHeartbeat hm).value
    show |(handleAll millis (new pair m max_rtt) events).updateHeartbeat.heartbeat - _| = 1
    rw [hnext, hvalue, triangleWave.succ hm, add_sub_cancel_left]
    split <;> rfl

/-- Up to the top of the smallest wave and down again, with an echo between. -/
def threeSends : List Event :=
  [.send 1000 true, .notified 1 ⟨⟨2026, 2, 5, 12, 0, 0, 0, by decide⟩⟩ 1500, .send 6000 false,
    .send 11000 true]

theorem followsWave_threeSends :
    FollowsWave (fun _ => ⟨"0.5"⟩) 1 [1000, 6000, 11000]
      (handleAll (fun _ => ⟨"0.5"⟩) (new "collector" 1 2000) threeSends) :=
  followsWave (by decide) threeSends

end KepServerLogger.Lib.SystemHeartbeatHandler
