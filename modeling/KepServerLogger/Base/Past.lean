import Mathlib.Data.List.Basic
import Mathlib.Order.Lattice

/-!
# What holds of each entry of a history, given the entries before it

Claims about a history are often of this shape: whenever something happened,
something else had happened before. The past of an entry is a prefix of the
list, so such a property can be followed along a list that grows at its end.

The other notion here is the latest of a list of timestamps, as a program
keeps it: nothing while the list is empty, and then a running maximum.

What a history last said about something is said by the last entry that is
about it, found by its index or by what it says.

A history of a switch with two positions alternates, from the first position
on; what the next entry has to be is then a matter of parity.
-/

namespace KepServerLogger

variable {α : Type*}

/-- `P past x` holds of each entry `x` of the list and the entries before it. -/
def EachWithPast (P : List α → α → Prop) (l : List α) : Prop :=
  ∀ past x rest, l = past ++ x :: rest → P past x

namespace EachWithPast

variable {P : List α → α → Prop} {l l' : List α} {x : α}

theorem nil : EachWithPast P ([] : List α) := by
  intro past x rest h
  simp at h

theorem append (h : EachWithPast P l)
    (h' : EachWithPast (fun past => P (l ++ past)) l') : EachWithPast P (l ++ l') := by
  intro past y rest heq
  rcases List.append_eq_append_iff.mp heq with ⟨mid, hpast, hl'⟩ | ⟨mid, hl, hrest⟩
  · rw [hpast]
    exact h' mid y rest hl'
  · cases mid with
    | nil =>
        rw [List.append_nil] at hl
        rw [List.nil_append] at hrest
        have hy : P (l ++ []) y := h' [] y rest hrest.symm
        rw [List.append_nil] at hy
        rw [← hl]
        exact hy
    | cons z mid =>
        rw [List.cons_append] at hrest
        obtain ⟨rfl, _⟩ := List.cons.inj hrest
        exact h past y mid hl

theorem cons (h : P [] x) (h' : EachWithPast (fun past => P (x :: past)) l) :
    EachWithPast P (x :: l) := by
  refine append (l := [x]) ?_ h'
  intro past y rest heq
  cases past with
  | nil =>
      obtain ⟨rfl, _⟩ := List.cons.inj heq
      exact h
  | cons z past => simp at heq

theorem snoc (h : EachWithPast P l) (hx : P l x) : EachWithPast P (l ++ [x]) := by
  refine h.append (.cons ?_ .nil)
  rw [List.append_nil]
  exact hx

theorem cons_iff :
    EachWithPast P (x :: l) ↔ P [] x ∧ EachWithPast (fun past => P (x :: past)) l := by
  constructor
  · intro h
    refine ⟨h [] x l rfl, fun past y rest heq => h (x :: past) y rest ?_⟩
    rw [heq, List.cons_append]
  · intro h
    exact cons h.1 h.2

theorem snoc_iff : EachWithPast P (l ++ [x]) ↔ EachWithPast P l ∧ P l x := by
  constructor
  · intro h
    refine ⟨fun past y rest heq => h past y (rest ++ [x]) ?_, h l x [] rfl⟩
    rw [heq, List.append_assoc, List.cons_append]
  · intro h
    exact h.1.snoc h.2

/-- A property that can be computed can be checked of a whole history. -/
instance decidable : (P : List α → α → Prop) → [∀ past x, Decidable (P past x)] →
    (l : List α) → Decidable (EachWithPast P l)
  | _, _, [] => isTrue nil
  | P, _, x :: l =>
      have := decidable (fun past => P (x :: past)) l
      decidable_of_iff _ cons_iff.symm

theorem getLast (h : EachWithPast P l) (hne : l ≠ []) : P l.dropLast (l.getLast hne) :=
  h l.dropLast (l.getLast hne) [] (List.dropLast_append_getLast hne).symm

end EachWithPast

/-- The entry has the property, and no entry before it has. -/
def IsFirst (P : List α → α → Prop) (past : List α) (x : α) : Prop :=
  P past x ∧ EachWithPast (fun past x => ¬ P past x) past

/-- The first entry without the property is one entry. -/
theorem first_unique {P : α → Prop} {before before' after after' : List α} {x x' : α}
    (h : before ++ x :: after = before' ++ x' :: after') (hbefore : ∀ y ∈ before, P y)
    (hx : ¬ P x) (hbefore' : ∀ y ∈ before', P y) (hx' : ¬ P x') : x = x' := by
  rcases List.append_eq_append_iff.mp h with ⟨mid, rfl, hrest⟩ | ⟨mid, rfl, hrest⟩
  · cases mid with
    | nil => exact (List.cons.inj hrest).1
    | cons z mid =>
        obtain ⟨rfl, -⟩ := List.cons.inj hrest
        exact absurd (hbefore' x (List.mem_append_right _ List.mem_cons_self)) hx
  · cases mid with
    | nil => exact (List.cons.inj hrest).1.symm
    | cons z mid =>
        obtain ⟨rfl, -⟩ := List.cons.inj hrest
        exact absurd (hbefore x' (List.mem_append_right _ List.mem_cons_self)) hx'

/-! ## The run at the end -/

/-- The entries at the end grow with the list or begin anew. -/
theorem reverse_takeWhile_snoc (p : α → Bool) (l : List α) (x : α) :
    ((l ++ [x]).reverse.takeWhile p).reverse =
      if p x then (l.reverse.takeWhile p).reverse ++ [x] else [] := by
  rw [List.reverse_append, List.reverse_singleton, List.singleton_append, List.takeWhile_cons]
  split
  · rw [List.reverse_cons]
  · rfl

/-- How many entries at the end of the list have the property. -/
def trailing (p : α → Bool) (l : List α) : Nat := (l.reverse.takeWhile p).length

theorem trailing_snoc (p : α → Bool) (l : List α) (x : α) :
    trailing p (l ++ [x]) = if p x then trailing p l + 1 else 0 := by
  unfold trailing
  rw [← List.length_reverse, reverse_takeWhile_snoc]
  split
  · rw [List.length_append, List.length_reverse, List.length_singleton]
  · rfl

/-! ## The latest -/

def IsLatest [LinearOrder α] (l : List α) : Option α → Prop
  | none => l = []
  | some t => t ∈ l ∧ ∀ x ∈ l, x ≤ t

namespace IsLatest

variable [LinearOrder α] {l : List α} {last : Option α} {t x : α}

/-- The running maximum. -/
theorem snoc (h : IsLatest l last) (x : α) : IsLatest (l ++ [x]) (some (last.elim x (max x))) := by
  cases last with
  | none =>
      obtain rfl : l = [] := h
      exact ⟨List.mem_singleton_self x, fun y hy => (List.mem_singleton.mp hy).le⟩
  | some t =>
      obtain ⟨hmem, hle⟩ := h
      refine ⟨?_, fun y hy => ?_⟩
      · show max x t ∈ l ++ [x]
        rcases le_total x t with hxt | htx
        · rw [max_eq_right hxt]
          exact List.mem_append_left _ hmem
        · rw [max_eq_left htx]
          exact List.mem_append_right _ (List.mem_singleton_self x)
      · show y ≤ max x t
        rcases List.mem_append.mp hy with hy | hy
        · exact (hle y hy).trans (le_max_right x t)
        · rw [List.mem_singleton.mp hy]
          exact le_max_left x t

/-- An entry that is not later changes nothing. -/
theorem snoc_of_le (h : IsLatest l (some t)) (hx : x ≤ t) : IsLatest (l ++ [x]) (some t) := by
  refine ⟨List.mem_append_left _ h.1, fun y hy => ?_⟩
  rcases List.mem_append.mp hy with hy | hy
  · exact h.2 y hy
  · rw [List.mem_singleton.mp hy]
    exact hx

end IsLatest

/-! ## The last entry -/

/-- What the last entry says that says something. -/
def lastValue {β : Type*} (f : α → Option β) (l : List α) : Option β := (l.filterMap f).getLast?

theorem lastValue_snoc {β : Type*} (f : α → Option β) (l : List α) (x : α) :
    lastValue f (l ++ [x]) = (f x).or (lastValue f l) := by
  unfold lastValue
  rw [List.filterMap_append]
  cases hx : f x with
  | none => rw [List.filterMap_cons_none hx, List.filterMap_nil, List.append_nil, Option.none_or]
  | some y => rw [List.filterMap_cons_some hx, List.filterMap_nil, List.getLast?_concat,
      Option.some_or]

theorem lastValue_snoc_of_none {β : Type*} {f : α → Option β} {l : List α} {x : α}
    (h : f x = none) : lastValue f (l ++ [x]) = lastValue f l := by
  rw [lastValue_snoc, h, Option.none_or]

theorem mem_of_lastValue {β : Type*} {f : α → Option β} {l : List α} {v : β}
    (h : lastValue f l = some v) : ∃ x ∈ l, f x = some v :=
  List.mem_filterMap.mp (List.mem_of_getLast? h)

/-- The index of the last entry that has the property. -/
def lastIndex (p : α → Bool) : List α → Option Nat
  | [] => none
  | x :: rest =>
      match lastIndex p rest with
      | some i => some (i + 1)
      | none => if p x then some 0 else none

theorem lastIndex_lt {p : α → Bool} {l : List α} {i : Nat} (h : lastIndex p l = some i) :
    i < l.length := by
  induction l generalizing i with
  | nil => cases h
  | cons x rest ih =>
      unfold lastIndex at h
      split at h
      · next j hj =>
          cases h
          exact Nat.succ_lt_succ (ih hj)
      · split at h
        · cases h
          exact Nat.succ_pos _
        · cases h

theorem lastIndex_snoc (p : α → Bool) (l : List α) (x : α) :
    lastIndex p (l ++ [x]) = if p x then some l.length else lastIndex p l := by
  induction l with
  | nil => simp [lastIndex]
  | cons y rest ih =>
      rw [List.cons_append, lastIndex, ih]
      split
      · next h =>
          split at h
          · next hx =>
              cases h
              rw [if_pos hx, List.length_cons]
          · next hx => rw [if_neg hx, lastIndex, h]
      · next h =>
          split at h
          · cases h
          · next hx => rw [if_neg hx, lastIndex, h]

/-! ## Alternation -/

def Alternates (a b : α) (l : List α) : Prop :=
  ∀ i (h : i < l.length), l[i] = if i % 2 = 0 then a else b

instance [DecidableEq α] (a b : α) (l : List α) : Decidable (Alternates a b l) :=
  inferInstanceAs (Decidable (∀ i (_ : i < l.length), _))

theorem alternates_snoc {a b x : α} {l : List α} :
    Alternates a b (l ++ [x]) ↔ Alternates a b l ∧ x = if l.length % 2 = 0 then a else b := by
  constructor
  · intro h
    refine ⟨fun i hi => ?_, ?_⟩
    · rw [← h i (by rw [List.length_append]; omega), List.getElem_append_left hi]
    · rw [← h l.length (by simp)]
      simp
  · intro h i hi
    obtain ⟨h, hx⟩ := h
    rw [List.length_append, List.length_singleton] at hi
    rcases Nat.lt_succ_iff_lt_or_eq.mp hi with hlt | rfl
    · rw [List.getElem_append_left hlt]
      exact h i hlt
    · simpa using hx

end KepServerLogger
