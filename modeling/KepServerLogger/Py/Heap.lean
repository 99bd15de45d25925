import Mathlib.Data.List.Basic

/-!
# Mutable objects

Objects that several containers share are kept once, in the order they were
made, and the containers hold references to them. Changing an object through
one reference is then seen through every other. Nothing is ever freed.
-/

namespace KepServerLogger.Py

abbrev Ref := Nat

structure Heap (α : Type*) where
  objects : List α
  deriving DecidableEq

namespace Heap

variable {α : Type*} {h : Heap α} {r r' : Ref}

def empty : Heap α := ⟨[]⟩

instance : EmptyCollection (Heap α) := ⟨empty⟩

def size (h : Heap α) : Nat := h.objects.length

def get [Inhabited α] (h : Heap α) (r : Ref) : α := h.objects.getD r default

/-- The reference that the next object gets. -/
def next (h : Heap α) : Ref := h.objects.length

def alloc (h : Heap α) (a : α) : Heap α := ⟨h.objects ++ [a]⟩

def modify (h : Heap α) (r : Ref) (f : α → α) : Heap α := ⟨h.objects.modify r f⟩

@[simp] theorem size_alloc (a : α) : (h.alloc a).size = h.size + 1 := by
  simp [size, alloc]

@[simp] theorem size_modify (f : α → α) : (h.modify r f).size = h.size := by
  simp [size, modify]

theorem next_eq : h.next = h.size := rfl

variable [Inhabited α]

theorem get_of_size_le (hr : h.size ≤ r) : h.get r = default := by
  unfold get
  rw [List.getD_eq_getElem?_getD, List.getElem?_eq_none hr]
  rfl

theorem get_alloc_of_lt (a : α) (hr : r < h.size) : (h.alloc a).get r = h.get r := by
  unfold get alloc
  rw [List.getD_eq_getElem?_getD, List.getElem?_append_left hr, List.getD_eq_getElem?_getD]

theorem get_alloc_next (a : α) : (h.alloc a).get h.next = a := by
  simp [get, alloc, next]

theorem get_modify_self (f : α → α) (hr : r < h.size) : (h.modify r f).get r = f (h.get r) := by
  have hget : h.objects[r]? = some h.objects[r] := List.getElem?_eq_getElem hr
  simp [get, modify, List.getD_eq_getElem?_getD, hget]

theorem get_modify_of_ne (f : α → α) (hne : r ≠ r') : (h.modify r f).get r' = h.get r' := by
  simp [get, modify, List.getD_eq_getElem?_getD, hne]

/-- What a change keeps of the object that it changes, it keeps of all. -/
theorem get_modify_keeps {β : Type*} (p : α → β) {f : α → α} (hf : ∀ a, p (f a) = p a) :
    p ((h.modify r f).get r') = p (h.get r') := by
  by_cases hne : r = r'
  · subst hne
    by_cases hr : r < h.size
    · rw [get_modify_self f hr, hf]
    · have hnone : h.objects[r]? = none := List.getElem?_eq_none (by simpa [size] using hr)
      simp [get, modify, List.getD_eq_getElem?_getD, hnone]
  · rw [get_modify_of_ne f hne]

end Heap

end KepServerLogger.Py
