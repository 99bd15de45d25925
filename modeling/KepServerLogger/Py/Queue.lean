import Mathlib.Data.List.Basic

/-!
# asyncio.Queue

A queue with a maximal size, which it carries as a field: putting an item
needs room, so `put_nowait` is only ever written where it cannot raise.
-/

namespace KepServerLogger.Py

structure Queue (maxsize : Nat) (α : Type*) where
  items : List α
  bounded : items.length ≤ maxsize
  deriving DecidableEq

namespace Queue

variable {maxsize : Nat} {α : Type*}

def empty : Queue maxsize α := ⟨[], Nat.zero_le _⟩

instance : EmptyCollection (Queue maxsize α) := ⟨empty⟩

@[simp] theorem items_empty : (∅ : Queue maxsize α).items = [] := rfl

/-- `qsize() >= maxsize`, for a queue that has a bound. -/
def full (q : Queue maxsize α) : Prop := maxsize ≤ q.items.length

instance (q : Queue maxsize α) : Decidable q.full :=
  inferInstanceAs (Decidable (maxsize ≤ q.items.length))

/-- The queue after `get_nowait()`. -/
def dropOldest (q : Queue maxsize α) : Queue maxsize α where
  items := q.items.tail
  bounded := by
    have := q.bounded
    rw [List.length_tail]
    omega

/-- `put_nowait(x)` -/
def put (q : Queue maxsize α) (x : α) (h : ¬ q.full) : Queue maxsize α where
  items := q.items ++ [x]
  bounded := by
    unfold full at h
    rw [List.length_append, List.length_singleton]
    omega

theorem not_full_dropOldest {q : Queue maxsize α} (h : 0 < maxsize) :
    ¬ q.dropOldest.full := by
  have := q.bounded
  unfold full dropOldest
  rw [List.length_tail]
  omega

end Queue

end KepServerLogger.Py
