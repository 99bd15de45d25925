import Mathlib.Data.List.Basic

/-!
# A first-in first-out buffer that may lose its oldest items

The abstract picture of every bounded buffer: items arrive at the back and
leave at the front, and an item that leaves was either delivered or dropped.
Nothing is ever reordered, copied or taken from the middle, so the items that
left followed by the items still waiting are exactly the items that arrived.
The buffer carries that equation as a field; a program refines the picture by
exhibiting, for each of its states, a buffer with the same contents.
-/

namespace KepServerLogger

/-- What became of an item that left the buffer. -/
inductive Fate where
  | delivered
  | dropped
  deriving DecidableEq, Repr

structure LossyFifo (α : Type*) where
  /-- Everything that ever arrived, in order. -/
  arrived : List α
  /-- What has left, in order, with its fate. -/
  settled : List (α × Fate)
  waiting : List α
  conserved : arrived = settled.map Prod.fst ++ waiting

namespace LossyFifo

variable {α : Type*}

def withFate (f : Fate) (l : List (α × Fate)) : List α :=
  (l.filter (·.2 = f)).map Prod.fst

@[simp] theorem withFate_append (f : Fate) (l l' : List (α × Fate)) :
    withFate f (l ++ l') = withFate f l ++ withFate f l' := by
  simp [withFate]

@[simp] theorem withFate_map_self (f : Fate) (l : List α) :
    withFate f (l.map (·, f)) = l := by
  induction l with
  | nil => rfl
  | cons x xs ih => simpa [withFate] using ih

theorem withFate_map_ne {f g : Fate} (h : g ≠ f) (l : List α) :
    withFate f (l.map (·, g)) = [] := by
  simp [withFate, h]

def delivered (q : LossyFifo α) : List α := withFate .delivered q.settled

def dropped (q : LossyFifo α) : List α := withFate .dropped q.settled

def empty : LossyFifo α := ⟨[], [], [], rfl⟩

def push (q : LossyFifo α) (xs : List α) : LossyFifo α where
  arrived := q.arrived ++ xs
  settled := q.settled
  waiting := q.waiting ++ xs
  conserved := by rw [q.conserved, List.append_assoc]

/-- The `n` oldest items leave with one fate. -/
def settle (q : LossyFifo α) (f : Fate) (n : Nat) : LossyFifo α where
  arrived := q.arrived
  settled := q.settled ++ (q.waiting.take n).map (·, f)
  waiting := q.waiting.drop n
  conserved := by
    rw [q.conserved]
    simp [Function.comp_def]

theorem settle_delivered (q : LossyFifo α) (n : Nat) :
    (q.settle .delivered n).delivered = q.delivered ++ q.waiting.take n ∧
      (q.settle .delivered n).dropped = q.dropped := by
  constructor
  · simp only [settle, delivered, withFate_append, withFate_map_self]
  · simp only [settle, dropped, withFate_append]
    rw [withFate_map_ne (by decide), List.append_nil]

theorem settle_dropped (q : LossyFifo α) (n : Nat) :
    (q.settle .dropped n).delivered = q.delivered ∧
      (q.settle .dropped n).dropped = q.dropped ++ q.waiting.take n := by
  constructor
  · simp only [settle, delivered, withFate_append]
    rw [withFate_map_ne (by decide), List.append_nil]
  · simp only [settle, dropped, withFate_append, withFate_map_self]

/-- The ledger a program has to exhibit: what arrived, was delivered, was
dropped and still waits, all of one buffer. -/
def Accounts (arrived delivered dropped waiting : List α) : Prop :=
  ∃ q : LossyFifo α, q.arrived = arrived ∧ q.delivered = delivered ∧
    q.dropped = dropped ∧ q.waiting = waiting

namespace Accounts

variable {arr del dro wai : List α}

theorem empty : Accounts ([] : List α) [] [] [] :=
  ⟨LossyFifo.empty, rfl, rfl, rfl, rfl⟩

theorem push (h : Accounts arr del dro wai) (xs : List α) :
    Accounts (arr ++ xs) del dro (wai ++ xs) := by
  obtain ⟨q, rfl, rfl, rfl, rfl⟩ := h
  exact ⟨q.push xs, rfl, rfl, rfl, rfl⟩

/-- The oldest `xs` are delivered. -/
theorem deliver {xs : List α} (h : Accounts arr del dro (xs ++ wai)) :
    Accounts arr (del ++ xs) dro wai := by
  obtain ⟨q, rfl, rfl, rfl, hw⟩ := h
  have hs := q.settle_delivered xs.length
  refine ⟨q.settle .delivered xs.length, rfl, ?_, hs.2, ?_⟩
  · rw [hs.1, hw, List.take_left]
  · simp [settle, hw]

/-- The oldest `xs` are dropped. -/
theorem drop {xs : List α} (h : Accounts arr del dro (xs ++ wai)) :
    Accounts arr del (dro ++ xs) wai := by
  obtain ⟨q, rfl, rfl, rfl, hw⟩ := h
  have hs := q.settle_dropped xs.length
  refine ⟨q.settle .dropped xs.length, rfl, hs.1, ?_, ?_⟩
  · rw [hs.2, hw, List.take_left]
  · simp [settle, hw]

/-- One step of a program: some items arrive, some of the oldest are
delivered and the oldest of the rest are dropped. -/
theorem step {new out lost wai' : List α} (h : Accounts arr del dro wai)
    (hw : wai ++ new = out ++ (lost ++ wai')) :
    Accounts (arr ++ new) (del ++ out) (dro ++ lost) wai' := by
  have hpush := h.push new
  rw [hw] at hpush
  exact hpush.deliver.drop

/-- Only what arrived is delivered. -/
theorem mem_of_delivered (h : Accounts arr del dro wai) {x : α} (hx : x ∈ del) : x ∈ arr := by
  obtain ⟨q, rfl, rfl, rfl, rfl⟩ := h
  obtain ⟨p, hp, rfl⟩ := List.mem_map.mp hx
  rw [q.conserved]
  exact List.mem_append_left _ (List.mem_map_of_mem (List.mem_filter.mp hp).1)

/-- What was delivered and what waits are of what arrived, in order. -/
theorem sublist (h : Accounts arr del dro wai) : List.Sublist (del ++ wai) arr := by
  obtain ⟨q, rfl, rfl, -, rfl⟩ := h
  rw [q.conserved]
  exact (List.filter_sublist.map Prod.fst).append (List.Sublist.refl _)

/-- A buffer that dropped nothing has delivered what arrived, but for what
still waits. -/
theorem arrived_eq (h : Accounts arr del [] wai) : arr = del ++ wai := by
  obtain ⟨q, rfl, rfl, hdropped, rfl⟩ := h
  have hall : ∀ p ∈ q.settled, p.2 = .delivered := by
    intro p hp
    cases hfate : p.2 with
    | delivered => rfl
    | dropped =>
        have hmem : p.1 ∈ q.dropped :=
          List.mem_map_of_mem (List.mem_filter.mpr ⟨hp, decide_eq_true hfate⟩)
        rw [hdropped] at hmem
        cases hmem
  have hfilter : q.settled.filter (·.2 = .delivered) = q.settled :=
    List.filter_eq_self.mpr fun p hp => decide_eq_true (hall p hp)
  have hdelivered : q.delivered = q.settled.map Prod.fst := congrArg (List.map Prod.fst) hfilter
  rw [q.conserved, hdelivered]

/-- An empty one has delivered all of it. -/
theorem delivered_eq (h : Accounts arr del [] []) : del = arr := by
  rw [h.arrived_eq, List.append_nil]

end Accounts

end LossyFifo

end KepServerLogger
