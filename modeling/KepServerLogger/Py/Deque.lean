import Mathlib.Data.List.Basic

/-!
# collections.deque with a maximal length

Unlike a queue it never refuses an item: appending to a full deque drops the
item at the other end. Each operation is atomic, so threads that share a
deque interleave between operations and not inside one.
-/

namespace KepServerLogger.Py

structure Deque (maxlen : Nat) (α : Type*) where
  items : List α
  bounded : items.length ≤ maxlen

namespace Deque

variable {maxlen : Nat} {α : Type*}

instance [DecidableEq α] : DecidableEq (Deque maxlen α) := fun d d' =>
  decidable_of_iff (d.items = d'.items) (by
    cases d
    cases d'
    simp)

def empty : Deque maxlen α := ⟨[], Nat.zero_le _⟩

instance : EmptyCollection (Deque maxlen α) := ⟨empty⟩

@[simp] theorem items_empty : (∅ : Deque maxlen α).items = [] := rfl

/-- What `append(x)` drops. -/
def dropped (d : Deque maxlen α) (x : α) : List α :=
  (d.items ++ [x]).take ((d.items ++ [x]).length - maxlen)

/-- `append(x)` -/
def append (d : Deque maxlen α) (x : α) : Deque maxlen α where
  items := (d.items ++ [x]).drop ((d.items ++ [x]).length - maxlen)
  bounded := by
    rw [List.length_drop]
    omega

/-- `popleft()`; `none` where Python raises `IndexError`. -/
def popleft (d : Deque maxlen α) : Option (α × Deque maxlen α) :=
  match h : d.items with
  | [] => none
  | x :: rest =>
      some (x, ⟨rest, by
        have hbound := d.bounded
        rw [h, List.length_cons] at hbound
        omega⟩)

theorem append_conserves (d : Deque maxlen α) (x : α) :
    d.dropped x ++ (d.append x).items = d.items ++ [x] :=
  List.take_append_drop _ _

theorem popleft_conserves {d d' : Deque maxlen α} {x : α} (h : d.popleft = some (x, d')) :
    x :: d'.items = d.items := by
  unfold popleft at h
  split at h
  · cases h
  · next heq =>
      cases h
      exact heq.symm

theorem popleft_eq_none {d : Deque maxlen α} : d.popleft = none ↔ d.items = [] := by
  unfold popleft
  split
  · next heq => exact iff_of_true rfl heq
  · next heq => exact iff_of_false (by rintro ⟨⟩) (by rw [heq]; exact List.cons_ne_nil _ _)

/-- Only a full deque drops an item, and it drops its oldest. -/
theorem dropped_eq (hpos : 0 < maxlen) (d : Deque maxlen α) (x : α) :
    d.dropped x = if d.items.length = maxlen then d.items.take 1 else [] := by
  have hbounded := d.bounded
  unfold dropped
  rw [List.length_append, List.length_singleton]
  split
  · next hfull =>
      rw [hfull, Nat.add_sub_cancel_left, List.take_append_of_le_length (by omega)]
  · next hroom =>
      rw [Nat.sub_eq_zero_of_le (by omega), List.take_zero]

theorem items_append {d : Deque maxlen α} (h : d.items.length < maxlen) (x : α) :
    (d.append x).items = d.items ++ [x] := by
  have hroom : (d.items ++ [x]).length - maxlen = 0 := by
    rw [List.length_append, List.length_singleton]
    exact Nat.sub_eq_zero_of_le h
  show (d.items ++ [x]).drop ((d.items ++ [x]).length - maxlen) = _
  rw [hroom, List.drop_zero]

/-- Appending never makes a deque shorter. -/
theorem length_le_append (d : Deque maxlen α) (x : α) :
    d.items.length ≤ (d.append x).items.length := by
  have hbounded := d.bounded
  unfold append
  rw [List.length_drop, List.length_append, List.length_singleton]
  omega

end Deque

end KepServerLogger.Py
