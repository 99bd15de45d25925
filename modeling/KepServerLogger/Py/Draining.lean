import KepServerLogger.Base.LossyFifo
import KepServerLogger.Base.Run
import KepServerLogger.Py.Deque

/-!
# A deque that is drained while others append to it

A drain reads how long the deque is, makes of it a number of items to take,
and takes so many off the left, each with an operation of its own. Others may
append at any time in between, and a full deque then drops from the end that
is being drained. It does not get shorter by that, so as long as there is one
drain at a time, what it has counted is still there.
-/

namespace KepServerLogger.Py

/-- Where a drain stands. -/
inductive Draining (α : Type*) where
  /-- It has not read the length. -/
  | started
  /-- It has to call `popleft` this often. -/
  | taking (remaining : Nat) (taken : List α)
  deriving DecidableEq

namespace Draining

variable {maxlen : Nat} {α : Type*}

def taken : Draining α → List α
  | started => []
  | taking _ taken => taken

/-- One operation on the deque, `none` when there is none left, and an error
where `popleft` finds the deque empty. Of a deque with `n` items `count n` are
to be taken. -/
def step (count : Nat → Nat) (d : Deque maxlen α) :
    Draining α → Option (Except Unit (Deque maxlen α × Draining α))
  | started => some (.ok (d, taking (count d.items.length) []))
  | taking 0 _ => none
  | taking (remaining + 1) taken =>
      match d.popleft with
      | some (x, d) => some (.ok (d, taking remaining (taken ++ [x])))
      | none => some (.error ())

end Draining

/-- A deque and its drains, one after the other. -/
structure Drained (maxlen : Nat) (α : Type*) where
  deque : Deque maxlen α
  drain : Option (Draining α)
  /-- What the drains have returned. -/
  returned : List (List α)
  /-- How many of them have raised. -/
  raised : Nat

namespace Drained

variable {maxlen : Nat} {α : Type*}

inductive Event (α : Type*) where
  | appends (x : α)
  /-- The next drain begins. -/
  | calls
  /-- The drain does one operation. -/
  | operates
  | returns

def start : Drained maxlen α := ⟨∅, none, [], 0⟩

def step (count : Nat → Nat) (s : Drained maxlen α) : Event α → Option (Drained maxlen α)
  | .appends x => some { s with deque := s.deque.append x }
  | .calls =>
      match s.drain with
      | none => some { s with drain := some .started }
      | some _ => none
  | .operates =>
      match s.drain with
      | some drain =>
          match drain.step count s.deque with
          | some (.ok (deque, drain)) => some { s with deque, drain := some drain }
          | some (.error ()) => some { s with drain := none, raised := s.raised + 1 }
          | none => none
      | none => none
  | .returns =>
      match s.drain with
      | some (.taking 0 taken) => some { s with drain := none, returned := s.returned ++ [taken] }
      | _ => none

def taken (s : Drained maxlen α) : List α := s.drain.elim [] Draining.taken

def appended : Drained maxlen α × Event α → List α
  | (_, .appends x) => [x]
  | _ => []

/-- The oldest item of a full deque, where another is appended. -/
def evicted : Drained maxlen α × Event α → List α
  | (s, .appends _) => if s.deque.items.length = maxlen then s.deque.items.take 1 else []
  | _ => []

variable {count : Nat → Nat} {s s' : Drained maxlen α} {e : Event α}
  {tr : List (Drained maxlen α × Event α)}

/-- What a step does, with what it needs. -/
inductive Stepped (count : Nat → Nat) (s : Drained maxlen α) :
    Event α → Drained maxlen α → Prop
  | appends (x : α) : Stepped count s (.appends x) { s with deque := s.deque.append x }
  | calls (hdrain : s.drain = none) : Stepped count s .calls { s with drain := some .started }
  | counts (hdrain : s.drain = some .started) :
      Stepped count s .operates
        { s with drain := some (.taking (count s.deque.items.length) []) }
  | pops {remaining : Nat} {taken : List α} {x : α} {deque : Deque maxlen α}
      (hdrain : s.drain = some (.taking (remaining + 1) taken))
      (hpop : s.deque.popleft = some (x, deque)) :
      Stepped count s .operates
        { s with deque, drain := some (.taking remaining (taken ++ [x])) }
  | raises {remaining : Nat} {taken : List α}
      (hdrain : s.drain = some (.taking (remaining + 1) taken)) (hpop : s.deque.popleft = none) :
      Stepped count s .operates { s with drain := none, raised := s.raised + 1 }
  | returns {taken : List α} (hdrain : s.drain = some (.taking 0 taken)) :
      Stepped count s .returns { s with drain := none, returned := s.returned ++ [taken] }

theorem step_cases (h : step count s e = some s') : Stepped count s e s' := by
  cases e with
  | appends x =>
      cases h
      exact .appends x
  | calls =>
      unfold step at h
      dsimp only at h
      split at h
      · next hdrain =>
          cases h
          exact .calls hdrain
      · cases h
  | operates =>
      unfold step at h
      dsimp only at h
      split at h
      · next drain hdrain =>
          cases drain with
          | started =>
              cases h
              exact .counts hdrain
          | taking remaining taken =>
              cases remaining with
              | zero => cases h
              | succ remaining =>
                  unfold Draining.step at h
                  cases hpop : s.deque.popleft with
                  | some p =>
                      rw [hpop] at h
                      cases h
                      exact .pops hdrain hpop
                  | none =>
                      rw [hpop] at h
                      cases h
                      exact .raises hdrain hpop
      · cases h
  | returns =>
      unfold step at h
      dsimp only at h
      split at h
      · next taken hdrain =>
          cases h
          exact .returns hdrain
      · cases h

/-! ## What was counted is there -/

/-- A drain never takes more than there is, nor more than `cap`. -/
structure Fits (cap : Nat) (s : Drained maxlen α) : Prop where
  raised : s.raised = 0
  there : ∀ remaining taken, s.drain = some (.taking remaining taken) →
    remaining ≤ s.deque.items.length ∧ remaining + taken.length ≤ cap
  capped : ∀ l ∈ s.returned, l.length ≤ cap

/-- The drain finds an item to take. -/
theorem Fits.popleft_ne_none {cap remaining : Nat} {taken : List α} (h : s.Fits cap)
    (hdrain : s.drain = some (.taking (remaining + 1) taken)) : s.deque.popleft ≠ none := by
  intro hpop
  have hle := (h.there _ _ hdrain).1
  rw [Deque.popleft_eq_none.mp hpop] at hle
  exact absurd hle (Nat.not_succ_le_zero remaining)

theorem Fits.step {cap : Nat} (hcount : ∀ n, count n ≤ n) (hcap : ∀ n ≤ maxlen, count n ≤ cap)
    (h : s.Fits cap) (hs : step count s e = some s') : s'.Fits cap := by
  obtain ⟨hraised, hthere, hcapped⟩ := h
  cases step_cases hs with
  | appends x =>
      refine ⟨hraised, fun remaining taken hdrain => ?_, hcapped⟩
      obtain ⟨hle, hsum⟩ := hthere remaining taken hdrain
      exact ⟨Nat.le_trans hle (s.deque.length_le_append x), hsum⟩
  | calls _ => exact ⟨hraised, fun remaining taken hdrain => (by cases hdrain), hcapped⟩
  | counts _ =>
      refine ⟨hraised, fun remaining taken hdrain => ?_, hcapped⟩
      cases hdrain
      exact ⟨hcount _, hcap _ s.deque.bounded⟩
  | @pops remaining taken x deque hdrain hpop =>
      refine ⟨hraised, fun remaining' taken' hdrain' => ?_, hcapped⟩
      cases hdrain'
      obtain ⟨hle, hsum⟩ := hthere _ _ hdrain
      rw [← Deque.popleft_conserves hpop, List.length_cons] at hle
      refine ⟨Nat.le_of_succ_le_succ hle, ?_⟩
      rw [List.length_append, List.length_singleton]
      omega
  | raises hdrain hpop =>
      exact absurd hpop (Fits.popleft_ne_none ⟨hraised, hthere, hcapped⟩ hdrain)
  | returns hdrain =>
      refine ⟨hraised, fun remaining taken hdrain => (by cases hdrain), ?_⟩
      rw [List.forall_mem_append, List.forall_mem_singleton]
      exact ⟨hcapped, Nat.le_trans (Nat.le_add_left _ _) (hthere _ _ hdrain).2⟩

theorem fits {cap : Nat} (hcount : ∀ n, count n ≤ n) (hcap : ∀ n ≤ maxlen, count n ≤ cap)
    (h : Run (step count) start tr s) : s.Fits cap :=
  h.invariant ⟨rfl, fun _ _ hdrain => (by cases hdrain), List.forall_mem_nil _⟩
    fun _ _ _ hfits hs => hfits.step hcount hcap hs

/-! ## The account -/

/-- What was taken, and then what is there, is what was appended without what
a full deque has dropped. -/
theorem accounts (hpos : 0 < maxlen) (hcount : ∀ n, count n ≤ n)
    (h : Run (step count) start tr s) :
    LossyFifo.Accounts (tr.flatMap appended) (s.returned.flatten ++ s.taken)
      (tr.flatMap evicted) s.deque.items := by
  induction h with
  | nil => exact .empty
  | @snoc tr s s' e h hs ih =>
      rw [List.flatMap_append, List.flatMap_append, List.flatMap_singleton, List.flatMap_singleton]
      have hsame : s'.returned.flatten ++ s'.taken = s.returned.flatten ++ s.taken →
          s'.deque = s.deque → appended (s, e) = [] → evicted (s, e) = [] →
          LossyFifo.Accounts (tr.flatMap appended ++ appended (s, e))
            (s'.returned.flatten ++ s'.taken) (tr.flatMap evicted ++ evicted (s, e))
            s'.deque.items := by
        intro hdelivered hdeque happended hevicted
        rw [hdelivered, hdeque, happended, hevicted, List.append_nil, List.append_nil]
        exact ih
      cases step_cases hs with
      | appends x =>
          have hstep : LossyFifo.Accounts (tr.flatMap appended ++ [x])
              (s.returned.flatten ++ s.taken ++ []) (tr.flatMap evicted ++ evicted (s, .appends x))
              (s.deque.append x).items := by
            refine ih.step ?_
            rw [List.nil_append, ← Deque.append_conserves, Deque.dropped_eq hpos]
            rfl
          rw [List.append_nil] at hstep
          exact hstep
      | calls hdrain => exact hsame (by simp [taken, hdrain, Draining.taken]) rfl rfl rfl
      | counts hdrain => exact hsame (by simp [taken, hdrain, Draining.taken]) rfl rfl rfl
      | @pops remaining taken x deque hdrain hpop =>
          rw [← Deque.popleft_conserves hpop] at ih
          have hstep : LossyFifo.Accounts (tr.flatMap appended)
              (s.returned.flatten ++ s.taken ++ [x]) (tr.flatMap evicted) deque.items :=
            ih.deliver
          rw [List.append_assoc, Drained.taken, hdrain] at hstep
          rw [← List.append_nil (tr.flatMap appended), ← List.append_nil (tr.flatMap evicted)] at hstep
          exact hstep
      | raises hdrain hpop =>
          exact absurd hpop ((fits hcount (fun n hn => Nat.le_trans (hcount n) hn) h).popleft_ne_none hdrain)
      | returns hdrain => exact hsame (by simp [taken, hdrain, Draining.taken]) rfl rfl rfl

end Drained

end KepServerLogger.Py
