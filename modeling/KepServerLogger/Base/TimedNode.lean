import Mathlib.Order.Basic
import KepServerLogger.Base.MonitoredNode
import KepServerLogger.Base.Run

/-!
# A monitored node in time

The server samples a node that has an item at least every `sampling` units of
time and sends what it has queued at least every `sending`, and whoever writes
to the node leaves at least `spacing` between two writes. If both of the
server's intervals are shorter than that, a write finds the value before
sampled, and there are never more than two values in the queue: after a
sending one value may still be unseen, and before the next sending at most one
more is written.
-/

namespace KepServerLogger

structure Intervals where
  sampling : Nat
  sending : Nat
  spacing : Nat
  deriving DecidableEq

structure TimedNode (α : Type*) where
  node : MonitoredNode α
  now : Nat
  writtenAt : Option Nat
  sampledAt : Nat
  sentAt : Nat
  deriving DecidableEq

namespace TimedNode

inductive Event (α : Type*) where
  | elapse (d : Nat)
  | write (value : α)
  | subscribe
  | sample
  | send
  | receive
  | unsubscribe

variable {α : Type*}

/-- Time does not pass a sampling or a sending that is due. -/
def step [DecidableEq α] (i : Intervals) (size : Nat) (s : TimedNode α) :
    Event α → Option (TimedNode α)
  | .elapse d =>
      if s.node.item.isSome →
          s.now + d ≤ s.sampledAt + i.sampling ∧ s.now + d ≤ s.sentAt + i.sending then
        some { s with now := s.now + d }
      else none
  | .write value =>
      if ∀ t ∈ s.writtenAt, t + i.spacing ≤ s.now then
        some { s with node := s.node.write value, writtenAt := some s.now }
      else none
  | .subscribe => some { s with node := s.node.subscribe, sampledAt := s.now, sentAt := s.now }
  | .sample => some { s with node := s.node.sample size, sampledAt := s.now }
  | .send => some { s with node := s.node.send, sentAt := s.now }
  | .receive => s.node.receive?.map fun p => { s with node := p.2 }
  | .unsubscribe => some { s with node := s.node.unsubscribe }

def start (value : α) : TimedNode α := ⟨.fresh value, 0, none, 0, 0⟩

/-- A write destroys nothing that a subscriber should see, and a sampling
drops nothing. -/
def Harmless (size : Nat) : TimedNode α × Event α → Prop
  | (s, .write _) => s.node.item.isSome → s.node.told = true
  | (s, .sample) => s.node.queue.length < size
  | _ => True

/-- The last write was no earlier than the last sending. -/
def Recent (s : TimedNode α) : Prop := ∃ t, s.writtenAt = some t ∧ s.sentAt ≤ t

/-- What holds of a node with an item. -/
structure Monitored (i : Intervals) (s : TimedNode α) : Prop where
  sampling : s.now ≤ s.sampledAt + i.sampling
  sending : s.now ≤ s.sentAt + i.sending
  sampled : s.sampledAt ≤ s.now
  sent : s.sentAt ≤ s.now
  /-- What nobody has been told of was written after the last sampling. -/
  unseen : s.node.told = false → ∃ t, s.writtenAt = some t ∧ s.sampledAt ≤ t
  /-- One value of before the last sending, and one of after it. -/
  few : s.node.queue.length + s.node.untold.length ≤ 2
  old : ¬ s.Recent → s.node.queue.length + s.node.untold.length ≤ 1

structure Paced (i : Intervals) (s : TimedNode α) : Prop where
  written : ∀ t ∈ s.writtenAt, t ≤ s.now
  synced : s.node.Synced
  monitored : s.node.item.isSome → Monitored i s

variable {i : Intervals} {size : Nat} {s s' : TimedNode α} {e : Event α}

/-- A write that keeps its distance finds the value before told of. -/
theorem Paced.told (h : Paced i s) (hsampling : i.sampling < i.spacing)
    (hspacing : ∀ t ∈ s.writtenAt, t + i.spacing ≤ s.now) (hitem : s.node.item.isSome) :
    s.node.told = true := by
  by_contra hnot
  obtain ⟨t, ht, hle⟩ := (h.monitored hitem).unseen (Bool.not_eq_true _ ▸ hnot)
  have hspace := hspacing t ht
  have hnow := (h.monitored hitem).sampling
  omega

theorem Paced.start (i : Intervals) (value : α) : Paced i (start value) where
  written := by rintro t ⟨⟩
  synced := by rintro item ⟨⟩
  monitored := nofun

theorem Paced.send (h : Paced i s) : Paced i { s with node := s.node.send, sentAt := s.now } := by
  refine ⟨h.written, h.synced.send, fun hitem => ?_⟩
  rw [MonitoredNode.send, Option.isSome_map] at hitem
  have hnode := h.monitored hitem
  have huntold := s.node.send.length_untold_le
  have hone : s.node.send.queue.length + s.node.send.untold.length ≤ 1 := by
    rw [MonitoredNode.queue_send]
    simpa using huntold
  exact ⟨hnode.sampling, Nat.le_add_right _ _, hnode.sampled, Nat.le_refl _, hnode.unseen,
    Nat.le_succ_of_le hone, fun _ => hone⟩

theorem Paced.receive (h : Paced i s) {value : α} {node : MonitoredNode α}
    (hreceive : s.node.receive? = some (value, node)) : Paced i { s with node } := by
  obtain ⟨hqueue, htold, hvalue, hitem⟩ := MonitoredNode.receive?_frame hreceive
  obtain ⟨-, -, hsynced⟩ := MonitoredNode.receive?_spec hreceive
  have hnode := h.monitored hitem
  have huntold : node.untold = s.node.untold := by
    rw [MonitoredNode.untold, MonitoredNode.untold, htold, hvalue]
  refine ⟨h.written, hsynced h.synced, fun _ => ⟨hnode.sampling, hnode.sending, hnode.sampled,
    hnode.sent, fun hnot => hnode.unseen (htold ▸ hnot), ?_, fun hold => ?_⟩⟩
  · show node.queue.length + node.untold.length ≤ 2
    rw [hqueue, huntold]
    exact hnode.few
  · show node.queue.length + node.untold.length ≤ 1
    rw [hqueue, huntold]
    exact hnode.old hold

variable [DecidableEq α]

theorem Paced.write (h : Paced i s) (hsampling : i.sampling < i.spacing)
    (hsending : i.sending < i.spacing) (hspacing : ∀ t ∈ s.writtenAt, t + i.spacing ≤ s.now)
    (value : α) :
    Paced i { s with node := s.node.write value, writtenAt := some s.now } := by
  refine ⟨?_, ?_, fun hitem => ?_⟩
  · rintro t ⟨⟩
    exact Nat.le_refl _
  · intro item hitem
    exact h.synced.write (h.told hsampling hspacing (Option.isSome_iff_exists.mpr ⟨item, hitem⟩))
      value item hitem
  · have hnode := h.monitored hitem
    have htold := h.told hsampling hspacing hitem
    -- The write before is older than the last sending.
    have hold : ¬ s.Recent := by
      rintro ⟨t, ht, hle⟩
      have hspace := hspacing t ht
      have hnow := hnode.sending
      omega
    have hone := hnode.old hold
    have huntold := (s.node.write value).length_untold_le
    refine ⟨hnode.sampling, hnode.sending, hnode.sampled, hnode.sent,
      fun _ => ⟨s.now, rfl, hnode.sampled⟩, ?_, fun hnot => absurd ⟨s.now, rfl, hnode.sent⟩ hnot⟩
    show s.node.queue.length + (s.node.write value).untold.length ≤ 2
    omega

theorem Paced.sample (h : Paced i s) (size : Nat) :
    Paced i { s with node := s.node.sample size, sampledAt := s.now } := by
  refine ⟨h.written, h.synced.sample size, fun hitem => ?_⟩
  rw [MonitoredNode.isSome_item_sample] at hitem
  have hnode := h.monitored hitem
  have hle := MonitoredNode.length_sample_le h.synced size
  refine ⟨Nat.le_add_right _ _, hnode.sending, Nat.le_refl _, hnode.sent, fun hnot => ?_,
    Nat.le_trans hle hnode.few, fun hold => Nat.le_trans hle (hnode.old hold)⟩
  rw [MonitoredNode.told_sample h.synced hitem] at hnot
  cases hnot

theorem Paced.step (h : Paced i s) (hsampling : i.sampling < i.spacing)
    (hsending : i.sending < i.spacing) (hs : TimedNode.step i size s e = some s') :
    Paced i s' := by
  cases e with
  | elapse d =>
      simp only [TimedNode.step] at hs
      split at hs
      · next hguard =>
          cases hs
          refine ⟨fun t ht => Nat.le_trans (h.written t ht) (Nat.le_add_right _ _), h.synced,
            fun hitem => ?_⟩
          have hnode := h.monitored hitem
          obtain ⟨hsample, hsend⟩ := hguard hitem
          exact ⟨hsample, hsend, Nat.le_trans hnode.sampled (Nat.le_add_right _ _),
            Nat.le_trans hnode.sent (Nat.le_add_right _ _), hnode.unseen, hnode.few, hnode.old⟩
      · cases hs
  | write value =>
      simp only [TimedNode.step] at hs
      split at hs
      · next hspacing =>
          cases hs
          exact h.write hsampling hsending hspacing value
      · cases hs
  | subscribe =>
      cases hs
      refine ⟨h.written, .subscribe _, fun _ => ⟨Nat.le_add_right _ _, Nat.le_add_right _ _,
        Nat.le_refl _, Nat.le_refl _, (fun h => by cases h), ?_, fun _ => ?_⟩⟩ <;>
        simp [MonitoredNode.subscribe, MonitoredNode.queue, MonitoredNode.untold]
  | sample =>
      cases hs
      exact h.sample size
  | send =>
      cases hs
      exact h.send
  | receive =>
      simp only [TimedNode.step] at hs
      obtain ⟨⟨value, node⟩, hreceive, rfl⟩ := Option.map_eq_some_iff.mp hs
      exact h.receive hreceive
  | unsubscribe =>
      cases hs
      exact ⟨h.written, .unsubscribe _, fun h => by cases h⟩

/-- What one step of a paced node does is harmless. -/
theorem Paced.harmless (h : Paced i s) (hsampling : i.sampling < i.spacing) (hsize : 3 ≤ size)
    (hs : TimedNode.step i size s e = some s') : Harmless size (s, e) := by
  cases e with
  | write value =>
      simp only [TimedNode.step] at hs
      split at hs
      · next hspacing => exact h.told hsampling hspacing
      · cases hs
  | sample =>
      show s.node.queue.length < size
      by_cases hitem : s.node.item.isSome
      · have hfew := (h.monitored hitem).few
        omega
      · rw [Option.not_isSome_iff_eq_none] at hitem
        rw [MonitoredNode.queue, hitem, Option.elim, List.length_nil]
        omega
  | elapse | subscribe | send | receive | unsubscribe => trivial

/-! ## One subscription

Between two intervals that are shorter than the spacing of the writes, a
subscriber receives the value that the node had and after it every change,
in order.
-/

/-- What the subscriber receives in a step. -/
def received : TimedNode α × Event α → List α
  | (s, .receive) => s.node.receive?.elim [] fun p => [p.1]
  | _ => []

/-- The value that a step changes the node to. -/
def changed : TimedNode α × Event α → List α
  | (s, .write value) => if value = s.node.value then [] else [value]
  | _ => []

/-- The step neither begins nor ends a subscription. -/
def Stays : TimedNode α × Event α → Prop
  | (_, .subscribe) | (_, .unsubscribe) => False
  | _ => True

/-- What is on its way loses what is received and gains what is written. -/
theorem ahead_step (h : Paced i s) (hitem : s.node.item.isSome) (hharmless : Harmless size (s, e))
    (hstays : Stays (s, e)) (hs : TimedNode.step i size s e = some s') :
    received (s, e) ++ s'.node.ahead = s.node.ahead ++ changed (s, e) ∧
      s'.node.item.isSome := by
  cases e with
  | elapse d =>
      simp only [TimedNode.step] at hs
      split at hs
      · cases hs
        exact ⟨(List.append_nil _).symm, hitem⟩
      · cases hs
  | write value =>
      simp only [TimedNode.step] at hs
      split at hs
      · cases hs
        exact ⟨MonitoredNode.ahead_write (hharmless hitem) value, hitem⟩
      · cases hs
  | subscribe | unsubscribe => exact hstays.elim
  | sample =>
      cases hs
      refine ⟨?_, (MonitoredNode.isSome_item_sample s.node size).trans hitem⟩
      rw [MonitoredNode.ahead_sample h.synced hharmless]
      exact (List.append_nil _).symm
  | send =>
      cases hs
      refine ⟨?_, ?_⟩
      · show s.node.send.due ++ s.node.untold = _
        rw [MonitoredNode.due_send]
        exact (List.append_nil _).symm
      · simpa [MonitoredNode.send] using hitem
  | receive =>
      simp only [TimedNode.step] at hs
      obtain ⟨⟨value, node⟩, hreceive, rfl⟩ := Option.map_eq_some_iff.mp hs
      obtain ⟨hahead, -, -⟩ := MonitoredNode.receive?_spec hreceive
      refine ⟨?_, MonitoredNode.isSome_item_receive? hreceive⟩
      rw [hahead]
      simp [received, changed, hreceive]

variable {tr : List (TimedNode α × Event α)} {value : α}

theorem Run.paced (h : Run (step i size) (start value) tr s) (hsampling : i.sampling < i.spacing)
    (hsending : i.sending < i.spacing) : Paced i s :=
  h.invariant (.start i value) fun _ _ _ hpaced hs => hpaced.step hsampling hsending hs

/-- No run destroys or drops a value that a subscriber should see. -/
theorem Run.harmless (h : Run (step i size) (start value) tr s) (hsampling : i.sampling < i.spacing)
    (hsending : i.sending < i.spacing) (hsize : 3 ≤ size) : ∀ p ∈ tr, Harmless size p := by
  intro p hp
  obtain ⟨_, _, _, hbefore, hs⟩ := h.of_mem hp
  exact (Run.paced hbefore hsampling hsending).harmless hsampling hsize hs

theorem Run.delivered {t : TimedNode α} {pre post : List (TimedNode α × Event α)}
    (h : Run (step i size) (start value) (pre ++ (t, .subscribe) :: post) s)
    (hsampling : i.sampling < i.spacing) (hsending : i.sending < i.spacing) (hsize : 3 ≤ size)
    (hstays : ∀ p ∈ post, Stays p) :
    post.flatMap received ++ s.node.ahead = t.node.value :: post.flatMap changed := by
  obtain ⟨t', hpre, ht, hpost⟩ := h.split
  cases ht
  have hstart : Run (step i size) (start value) (pre ++ [(t, .subscribe)]) _ := hpre.snoc rfl
  suffices hall : post.flatMap received ++ s.node.ahead = t.node.value :: post.flatMap changed ∧
      s.node.item.isSome from hall.1
  clear h
  induction hpost with
  | nil => exact ⟨rfl, rfl⟩
  | @snoc post s s' e hpost hs ih =>
      rw [List.forall_mem_append, List.forall_mem_singleton] at hstays
      obtain ⟨heq, hitem⟩ := ih hstays.1
      have hpaced := Run.paced (hstart.append hpost) hsampling hsending
      obtain ⟨hstep, hitem'⟩ := ahead_step hpaced hitem
        (hpaced.harmless hsampling hsize hs) hstays.2 hs
      refine ⟨?_, hitem'⟩
      rw [List.flatMap_append, List.flatMap_append, List.flatMap_singleton, List.flatMap_singleton,
        List.append_assoc, hstep, ← List.append_assoc, heq]
      rfl

end TimedNode

end KepServerLogger
