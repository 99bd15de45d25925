import Mathlib.Data.List.Basic

/-!
# A node and the item that monitors it

A server samples a monitored node from time to time and queues its value when
that is not the one it sampled last; a value that comes and goes between two
samplings is never seen. The first thing queued is the value that the node has
when the item is created. A full queue drops its oldest value for a new one.
From time to time the server sends what is queued, and the subscriber receives
what was sent one by one. When the subscription ends, both are gone.

Next to what the server knows, a node carries whether its present value has
been queued, now or in an earlier subscription; that is what decides whether
a write destroys something.
-/

namespace KepServerLogger

structure MonitoredItem (α : Type*) where
  /-- The value sampled last. -/
  sampled : α
  /-- What the server has not sent yet, the oldest first. -/
  queue : List α
  /-- What the subscriber has not received yet, the oldest first. -/
  sent : List α
  deriving DecidableEq

structure MonitoredNode (α : Type*) where
  value : α
  /-- The present value has been queued for a subscriber. -/
  told : Bool
  item : Option (MonitoredItem α)
  deriving DecidableEq

namespace MonitoredNode

variable {α : Type*}

/-- A node that nobody has written to or subscribed to. -/
def fresh (value : α) : MonitoredNode α := ⟨value, true, none⟩

def write [DecidableEq α] (n : MonitoredNode α) (value : α) : MonitoredNode α :=
  { n with value, told := n.told && value = n.value }

/-- Creates the item. -/
def subscribe (n : MonitoredNode α) : MonitoredNode α :=
  { n with told := true, item := some ⟨n.value, [n.value], []⟩ }

def unsubscribe (n : MonitoredNode α) : MonitoredNode α := { n with item := none }

/-- Queues a value, at most `size` of them. -/
def enqueue (size : Nat) (queue : List α) (value : α) : List α :=
  (queue ++ [value]).drop (queue.length + 1 - size)

/-- The server looks at the node. -/
def sample [DecidableEq α] (size : Nat) (n : MonitoredNode α) : MonitoredNode α :=
  match n.item with
  | some item =>
      if n.value = item.sampled then n
      else
        { n with
          told := true
          item := some { item with
            sampled := n.value
            queue := enqueue size item.queue n.value } }
  | none => n

/-- The server sends what is queued. -/
def send (n : MonitoredNode α) : MonitoredNode α :=
  { n with item := n.item.map fun item =>
      { item with queue := [], sent := item.sent ++ item.queue } }

/-- The subscriber receives the oldest value that was sent. -/
def receive? (n : MonitoredNode α) : Option (α × MonitoredNode α) :=
  match n.item with
  | some ⟨sampled, queue, value :: sent⟩ =>
      some (value, { n with item := some ⟨sampled, queue, sent⟩ })
  | _ => none

def queue (n : MonitoredNode α) : List α := n.item.elim [] (·.queue)

/-- What the subscriber will receive whatever happens to the node. -/
def due (n : MonitoredNode α) : List α := n.item.elim [] fun item => item.sent ++ item.queue

/-- What nobody has been told of. -/
def untold (n : MonitoredNode α) : List α := if n.told then [] else [n.value]

/-! ## What is on its way to the subscriber

What is due, and behind it what nobody has been told of. As long as no write
destroys a value and no queue drops one, it grows at its end by what is
written and shrinks at its front by what is received, and the server's part
does nothing to it; only a subscription to a node whose value was told before
puts one value on its way a second time.
-/

def ahead (n : MonitoredNode α) : List α := n.due ++ n.untold

/-- The server has told of the value that it sampled last. -/
def Synced (n : MonitoredNode α) : Prop :=
  ∀ item, n.item = some item → (n.told = true ↔ item.sampled = n.value)

variable {n n' : MonitoredNode α} {value : α} {size : Nat}

theorem Synced.subscribe (n : MonitoredNode α) : n.subscribe.Synced := by
  rintro item ⟨⟩
  simp [MonitoredNode.subscribe]

theorem Synced.unsubscribe (n : MonitoredNode α) : n.unsubscribe.Synced := by
  rintro item ⟨⟩

theorem Synced.send (h : n.Synced) : n.send.Synced := by
  intro item hitem
  obtain ⟨item', hitem', rfl⟩ := Option.map_eq_some_iff.mp hitem
  exact h item' hitem'

theorem due_send (n : MonitoredNode α) : n.send.due = n.due := by
  obtain ⟨value, told, item⟩ := n
  cases item <;> simp [due, send]

theorem queue_send (n : MonitoredNode α) : n.send.queue = [] := by
  obtain ⟨value, told, item⟩ := n
  cases item <;> rfl

theorem length_untold_le (n : MonitoredNode α) : n.untold.length ≤ 1 := by
  unfold untold
  split <;> simp

/-- Receiving leaves the server's part alone. -/
theorem receive?_frame (hs : n.receive? = some (value, n')) :
    n'.queue = n.queue ∧ n'.told = n.told ∧ n'.value = n.value ∧
      n.item.isSome = true := by
  unfold receive? at hs
  split at hs
  · next sampled queue value sent hitem =>
      cases hs
      simp [MonitoredNode.queue, hitem]
  · cases hs

theorem isSome_item_receive? (hs : n.receive? = some (value, n')) : n'.item.isSome := by
  unfold receive? at hs
  split at hs
  · cases hs
    rfl
  · cases hs

theorem receive?_spec (hs : n.receive? = some (value, n')) :
    n.ahead = value :: n'.ahead ∧ n'.value = n.value ∧ (n.Synced → n'.Synced) := by
  unfold receive? at hs
  split at hs
  · next sampled queue value sent hitem =>
      cases hs
      refine ⟨?_, rfl, fun h => ?_⟩
      · simp [ahead, due, untold, hitem]
      · rintro item ⟨⟩
        exact h ⟨sampled, queue, value :: sent⟩ hitem
  · cases hs

theorem ahead_subscribe (hitem : n.item = none) :
    n.subscribe.ahead = (if n.told then [n.value] else []) ++ n.ahead := by
  simp only [ahead, due, untold, subscribe, hitem, Option.elim]
  cases n.told <;> rfl

theorem ahead_unsubscribe (hdue : n.due = []) : n.unsubscribe.ahead = n.ahead := by
  rw [ahead, ahead, hdue]
  rfl

theorem enqueue_of_lt {l : List α} (h : l.length < size) (value : α) :
    enqueue size l value = l ++ [value] := by
  rw [enqueue, Nat.sub_eq_zero_of_le h, List.drop_zero]

section

variable [DecidableEq α]

theorem Synced.write (h : n.Synced) (htold : n.told = true) (value : α) :
    (n.write value).Synced := by
  intro item hitem
  have hsampled := (h item hitem).mp htold
  simp only [MonitoredNode.write, htold, Bool.true_and, decide_eq_true_eq, hsampled]
  exact eq_comm

theorem ahead_write (htold : n.told = true) (value : α) :
    (n.write value).ahead = n.ahead ++ (if value = n.value then [] else [value]) := by
  have hdue : (n.write value).due = n.due := rfl
  rw [ahead, ahead, hdue, List.append_assoc]
  simp only [untold, write, htold, Bool.true_and, if_true, decide_eq_true_eq, List.nil_append]

theorem Synced.sample (h : n.Synced) (size : Nat) : (n.sample size).Synced := by
  unfold MonitoredNode.sample
  split
  · split
    · exact h
    · rintro item ⟨⟩
      simp
  · exact h

@[simp] theorem value_sample (n : MonitoredNode α) (size : Nat) :
    (n.sample size).value = n.value := by
  unfold sample
  split
  · split <;> rfl
  · rfl

theorem isSome_item_sample (n : MonitoredNode α) (size : Nat) :
    (n.sample size).item.isSome = n.item.isSome := by
  unfold sample
  split
  · next item hitem =>
      split
      · rfl
      · rw [hitem]
        rfl
  · rfl

theorem sample_of_item_none (h : n.item = none) (size : Nat) : n.sample size = n := by
  rw [sample, h]

/-- What a sampling queues was not told of before. -/
theorem length_sample_le (h : n.Synced) (size : Nat) :
    (n.sample size).queue.length + (n.sample size).untold.length ≤
      n.queue.length + n.untold.length := by
  unfold sample
  split
  · next item hitem =>
      split
      · exact Nat.le_refl _
      · next hne =>
          have htold : n.told = false := by
            rw [← Bool.not_eq_true, h _ hitem]
            exact fun heq => hne heq.symm
          simp [queue, untold, hitem, htold, enqueue]
  · exact Nat.le_refl _

theorem told_sample (h : n.Synced) (hitem : n.item.isSome) (size : Nat) :
    (n.sample size).told = true := by
  obtain ⟨item, hitem⟩ := Option.isSome_iff_exists.mp hitem
  simp only [sample, hitem]
  split
  · next heq => exact (h item hitem).mpr heq.symm
  · rfl

/-- Sampling takes nothing from a queue that has room. -/
theorem due_prefix_sample (hroom : n.queue.length < size) : n.due <+: (n.sample size).due := by
  unfold sample
  split
  · next item hitem =>
      split
      · exact List.prefix_rfl
      · have hroom' : item.queue.length < size := by simpa [queue, hitem] using hroom
        simp [due, hitem, enqueue_of_lt hroom']
  · exact List.prefix_rfl

theorem ahead_sample (h : n.Synced) (hroom : n.queue.length < size) :
    (n.sample size).ahead = n.ahead := by
  unfold sample
  split
  · next item hitem =>
      split
      · rfl
      · next hne =>
          have htold : n.told = false := by
            rw [← Bool.not_eq_true, h _ hitem]
            exact fun heq => hne heq.symm
          have hroom' : item.queue.length < size := by simpa [queue, hitem] using hroom
          simp [ahead, due, untold, hitem, htold, enqueue_of_lt hroom']
  · rfl

end

end MonitoredNode

end KepServerLogger
