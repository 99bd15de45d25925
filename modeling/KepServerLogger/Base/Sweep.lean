import Mathlib.Data.List.Basic

/-!
# Going over a list of objects

A loop that calls a method of each object in turn changes the objects that it
comes to and collects what they answer, up to the first that raises. What
becomes of one object depends on the others only in whether the loop comes to
it, and it does if all before it answer.
-/

namespace KepServerLogger

variable {α β ε : Type*}

/-- One after the other, the first of them the `i`-th, up to one that raises. -/
def sweep (f : Nat → α → α × Except ε β) : Nat → List α → List α × List (Nat × β) × Option ε
  | _, [] => ([], [], none)
  | i, a :: l =>
      match f i a with
      | (a, .error e) => (a :: l, [], some e)
      | (a, .ok b) =>
          let (l, answers, raised) := sweep f (i + 1) l
          (a :: l, (i, b) :: answers, raised)

/-- How many objects it comes to. -/
def swept (f : Nat → α → α × Except ε β) : Nat → List α → Nat
  | _, [] => 0
  | i, a :: l =>
      match (f i a).2 with
      | .error _ => 1
      | .ok _ => swept f (i + 1) l + 1

variable {f : Nat → α → α × Except ε β} {a : α} {b : β} {e : ε} {i : Nat}

theorem sweep_of_error (h : (f i a).2 = .error e) (l : List α) :
    sweep f i (a :: l) = ((f i a).1 :: l, [], some e) ∧ swept f i (a :: l) = 1 := by
  generalize hfa : f i a = r at h ⊢
  obtain ⟨a', answer⟩ := r
  subst h
  exact ⟨by rw [sweep, hfa], by rw [swept, hfa]⟩

theorem sweep_of_ok (h : (f i a).2 = .ok b) (l : List α) :
    sweep f i (a :: l) =
        ((f i a).1 :: (sweep f (i + 1) l).1, (i, b) :: (sweep f (i + 1) l).2.1,
          (sweep f (i + 1) l).2.2) ∧
      swept f i (a :: l) = swept f (i + 1) l + 1 := by
  generalize hfa : f i a = r at h ⊢
  obtain ⟨a', answer⟩ := r
  subst h
  exact ⟨by rw [sweep, hfa], by rw [swept, hfa]⟩

/-- It comes to an object if all before it answer. -/
theorem lt_swept_iff {l : List α} {k : Nat} :
    k < swept f i l ↔
      k < l.length ∧ ∀ j < k, ∀ a, l[j]? = some a → ∃ b, (f (i + j) a).2 = .ok b := by
  induction l generalizing i k with
  | nil => simp [swept]
  | cons a l ih =>
      cases hfa : (f i a).2 with
      | error e =>
          rw [(sweep_of_error hfa l).2]
          constructor
          · intro hk
            obtain rfl : k = 0 := by omega
            exact ⟨Nat.succ_pos _, fun j hj => absurd hj (Nat.not_lt_zero j)⟩
          · rintro ⟨-, hall⟩
            by_contra hk
            obtain ⟨b, hb⟩ := hall 0 (by omega) a rfl
            rw [Nat.add_zero, hfa] at hb
            cases hb
      | ok b =>
          rw [(sweep_of_ok hfa l).2]
          cases k with
          | zero =>
              exact ⟨fun _ => ⟨Nat.succ_pos _, fun j hj => absurd hj (Nat.not_lt_zero j)⟩,
                fun _ => Nat.succ_pos _⟩
          | succ k =>
              rw [Nat.add_lt_add_iff_right, ih, List.length_cons, Nat.add_lt_add_iff_right]
              refine and_congr_right fun _ => ⟨fun h j hj a' ha' => ?_, fun h j hj a' ha' => ?_⟩
              · cases j with
                | zero =>
                    cases ha'
                    exact ⟨b, hfa⟩
                | succ j =>
                    obtain ⟨b', hb'⟩ := h j (by omega) a' ha'
                    exact ⟨b', by rw [← hb']; congr 2; omega⟩
              · obtain ⟨b', hb'⟩ := h (j + 1) (by omega) a' ha'
                exact ⟨b', by rw [← hb']; congr 2; omega⟩

/-- What becomes of each object. -/
theorem getElem?_sweep (f : Nat → α → α × Except ε β) (i : Nat) (l : List α) (k : Nat) :
    (sweep f i l).1[k]? = l[k]?.map fun a => if k < swept f i l then (f (i + k) a).1 else a := by
  induction l generalizing i k with
  | nil => rfl
  | cons a l ih =>
      cases hfa : (f i a).2 with
      | error e =>
          obtain ⟨hsweep, hswept⟩ := sweep_of_error hfa l
          rw [hsweep, hswept]
          cases k with
          | zero => rfl
          | succ k => simp
      | ok b =>
          obtain ⟨hsweep, hswept⟩ := sweep_of_ok hfa l
          rw [hsweep, hswept]
          cases k with
          | zero => rfl
          | succ k =>
              simp only [List.getElem?_cons_succ, ih, Nat.add_lt_add_iff_right]
              rw [Nat.add_right_comm, Nat.add_assoc]

theorem length_sweep (f : Nat → α → α × Except ε β) (i : Nat) (l : List α) :
    (sweep f i l).1.length = l.length := by
  induction l generalizing i with
  | nil => rfl
  | cons a l ih =>
      cases hfa : (f i a).2 with
      | error e => rw [(sweep_of_error hfa l).1, List.length_cons, List.length_cons]
      | ok b => rw [(sweep_of_ok hfa l).1, List.length_cons, List.length_cons, ih]

/-- The answers are those of the objects that it comes to. -/
theorem mem_answers_iff {l : List α} {k : Nat} :
    (k, b) ∈ (sweep f i l).2.1 ↔
      ∃ j a, k = i + j ∧ l[j]? = some a ∧ j < swept f i l ∧ (f k a).2 = .ok b := by
  induction l generalizing i with
  | nil => simp [sweep]
  | cons a l ih =>
      cases hfa : (f i a).2 with
      | error e =>
          obtain ⟨hsweep, hswept⟩ := sweep_of_error hfa l
          rw [hsweep, hswept]
          refine ⟨fun h => absurd h List.not_mem_nil, ?_⟩
          rintro ⟨j, a', rfl, ha', hj, hb⟩
          obtain rfl : j = 0 := by omega
          cases ha'
          rw [Nat.add_zero, hfa] at hb
          cases hb
      | ok b' =>
          obtain ⟨hsweep, hswept⟩ := sweep_of_ok hfa l
          rw [hsweep, hswept, List.mem_cons, ih]
          constructor
          · rintro (heq | ⟨j, a', rfl, ha', hj, hb⟩)
            · cases heq
              exact ⟨0, a, rfl, rfl, Nat.succ_pos _, hfa⟩
            · exact ⟨j + 1, a', by omega, ha', by omega, hb⟩
          · rintro ⟨j, a', rfl, ha', hj, hb⟩
            cases j with
            | zero =>
                cases ha'
                rw [Nat.add_zero, hfa] at hb
                cases hb
                exact .inl rfl
            | succ j => exact .inr ⟨j, a', by omega, ha', by omega, hb⟩

/-- It raises what the last object that it comes to raises. -/
theorem raised_iff {l : List α} :
    (sweep f i l).2.2 = some e ↔
      ∃ j a, l[j]? = some a ∧ j < swept f i l ∧ (f (i + j) a).2 = .error e := by
  induction l generalizing i with
  | nil => simp [sweep]
  | cons a l ih =>
      cases hfa : (f i a).2 with
      | error e' =>
          obtain ⟨hsweep, hswept⟩ := sweep_of_error hfa l
          rw [hsweep, hswept]
          constructor
          · intro h
            cases h
            exact ⟨0, a, rfl, Nat.one_pos, hfa⟩
          · rintro ⟨j, a', ha', hj, he⟩
            obtain rfl : j = 0 := by omega
            cases ha'
            rw [Nat.add_zero, hfa] at he
            cases he
            rfl
      | ok b =>
          obtain ⟨hsweep, hswept⟩ := sweep_of_ok hfa l
          rw [hsweep, hswept]
          refine ih.trans ⟨?_, ?_⟩
          · rintro ⟨j, a', ha', hj, he⟩
            exact ⟨j + 1, a', ha', by omega, by rw [← he]; congr 2; omega⟩
          · rintro ⟨j, a', ha', hj, he⟩
            cases j with
            | zero =>
                cases ha'
                rw [Nat.add_zero, hfa] at he
                cases he
            | succ j => exact ⟨j, a', ha', by omega, by rw [← he]; congr 2; omega⟩

/-- It comes to all if nothing is raised. -/
theorem swept_of_raised_none {l : List α} (h : (sweep f i l).2.2 = none) :
    swept f i l = l.length := by
  induction l generalizing i with
  | nil => rfl
  | cons a l ih =>
      cases hfa : (f i a).2 with
      | error e =>
          rw [(sweep_of_error hfa l).1] at h
          cases h
      | ok b =>
          obtain ⟨hsweep, hswept⟩ := sweep_of_ok hfa l
          rw [hsweep] at h
          rw [hswept, ih h, List.length_cons]

/-! ## Where it is known what each object answers -/

def IsOk (answer : Except ε β) : Prop := ∃ b, answer = .ok b

/-- These are the answers of the objects. -/
def Answering (f : Nat → α → α × Except ε β) (l : List α) (answer : Nat → Except ε β) : Prop :=
  ∀ i a, l[i]? = some a → (f i a).2 = answer i

namespace Answering

variable {l : List α} {answer : Nat → Except ε β} {k : Nat}

theorem swept_iff (h : Answering f l answer) :
    k < swept f 0 l ↔ k < l.length ∧ ∀ j < k, IsOk (answer j) := by
  rw [lt_swept_iff]
  refine and_congr_right fun hk => forall₂_congr fun j hj => ?_
  have hget : l[j]? = some (l[j]) := List.getElem?_eq_getElem (Nat.lt_trans hj hk)
  rw [hget, ← h j _ hget]
  simp only [Option.some.injEq, forall_eq', Nat.zero_add, IsOk]

theorem mem_answers_iff (h : Answering f l answer) :
    (k, b) ∈ (sweep f 0 l).2.1 ↔
      k < l.length ∧ (∀ j < k, IsOk (answer j)) ∧ answer k = .ok b := by
  rw [KepServerLogger.mem_answers_iff]
  constructor
  · rintro ⟨j, a, rfl, ha, hj, hb⟩
    rw [Nat.zero_add] at hb ⊢
    rw [h j a ha] at hb
    obtain ⟨hlt, hbefore⟩ := h.swept_iff.mp hj
    exact ⟨hlt, hbefore, hb⟩
  · rintro ⟨hk, hbefore, hb⟩
    have hget : l[k]? = some l[k] := List.getElem?_eq_getElem hk
    exact ⟨k, l[k], (Nat.zero_add k).symm, hget, h.swept_iff.mpr ⟨hk, hbefore⟩,
      (h k _ hget).trans hb⟩

theorem raised_iff (h : Answering f l answer) :
    (sweep f 0 l).2.2 = some e ↔
      ∃ k < l.length, (∀ j < k, IsOk (answer j)) ∧ answer k = .error e := by
  rw [KepServerLogger.raised_iff]
  constructor
  · rintro ⟨k, a, ha, hk, he⟩
    rw [Nat.zero_add, h k a ha] at he
    obtain ⟨hlt, hbefore⟩ := h.swept_iff.mp hk
    exact ⟨k, hlt, hbefore, he⟩
  · rintro ⟨k, hk, hbefore, he⟩
    have hget : l[k]? = some l[k] := List.getElem?_eq_getElem hk
    refine ⟨k, l[k], hget, h.swept_iff.mpr ⟨hk, hbefore⟩, ?_⟩
    rw [Nat.zero_add, h k _ hget, he]

/-- Nothing is raised if all answer. -/
theorem raised_none (h : Answering f l answer) (hnone : (sweep f 0 l).2.2 = none)
    (hk : k < l.length) : IsOk (answer k) := by
  have hbefore := (h.swept_iff.mp (by rw [swept_of_raised_none hnone]; exact hk)).2
  cases hanswer : answer k with
  | ok b => exact ⟨b, rfl⟩
  | error e => cases hnone.symm.trans (h.raised_iff.mpr ⟨k, hk, hbefore, hanswer⟩)

end Answering

end KepServerLogger
