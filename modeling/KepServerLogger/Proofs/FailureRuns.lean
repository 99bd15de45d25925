import KepServerLogger.Base.Past
import KepServerLogger.Lib.Monitor

/-!
# When a session gives up

The monitor keeps one number for each component, in one dictionary that all
tasks of a session share. The numbers are the failures in a row: as long as
`safe_handle` has not raised, what is kept for a component is how many of its
own last completions failed, whatever the completions of others were and
however they came in between. So the first time that it raises is at the first
`ConnectionError` or at the first failure that makes a component's row full.
-/

namespace KepServerLogger.Lib

open KepServerLogger.Py

/-- One call of `safe_handle`, by how its coroutine ended. -/
structure Completion where
  component : String
  outcome : Except Exc Unit
  hook : Option (Exc → Except Exc Unit)

namespace Completion

/-- It ended in an ordinary exception. -/
def fails (c : Completion) : Bool :=
  match c.outcome with
  | .ok () => false
  | .error e => e.kind ≠ .connectionError

def disconnects (c : Completion) : Bool :=
  match c.outcome with
  | .ok () => false
  | .error e => e.kind = .connectionError

def HookReturns (c : Completion) : Prop :=
  ∀ f ∈ c.hook, ∀ e, c.outcome = .error e → f e = .ok ()

end Completion

def monitorStep (monitor : OPCUAMonitor) (c : Completion) : OPCUAMonitor :=
  (safeHandleWith c.hook c.component monitor c.outcome).1

/-- The monitor of a session after these completions. -/
def monitorAfter (past : List Completion) : OPCUAMonitor := past.foldl monitorStep .new

/-- `safe_handle` raises. -/
def Raises (past : List Completion) (c : Completion) : Prop :=
  ∃ e, (safeHandleWith c.hook c.component (monitorAfter past) c.outcome).2 = .error e

/-- How many of the last completions of a component failed. -/
def failuresInARow (component : String) (past : List Completion) : Nat :=
  trailing Completion.fails (past.filter (·.component = component))

/-- A `ConnectionError`, or the failure that fills its component's row. -/
def Triggers (past : List Completion) (c : Completion) : Prop :=
  c.disconnects = true ∨
    c.fails = true ∧ failuresInARow c.component (past ++ [c]) = maxConsecutiveMetricFailures

instance (past : List Completion) (c : Completion) : Decidable (Triggers past c) :=
  inferInstanceAs (Decidable (_ ∨ _))

variable {past l : List Completion} {c : Completion} {component : String}

/-! ## One completion -/

theorem failuresInARow_snoc_self (past : List Completion) (c : Completion) :
    failuresInARow c.component (past ++ [c]) =
      if c.fails then failuresInARow c.component past + 1 else 0 := by
  unfold failuresInARow
  rw [List.filter_append, List.filter_cons_of_pos (by simp), List.filter_nil, trailing_snoc]

/-- The completions of others are not seen. -/
theorem failuresInARow_snoc_of_ne (h : c.component ≠ component) :
    failuresInARow component (past ++ [c]) = failuresInARow component past := by
  unfold failuresInARow
  rw [List.filter_append, List.filter_cons_of_neg (by simpa using h), List.filter_nil,
    List.append_nil]

theorem monitorAfter_snoc (past : List Completion) (c : Completion) :
    monitorAfter (past ++ [c]) = monitorStep (monitorAfter past) c := by
  unfold monitorAfter
  rw [List.foldl_append]
  rfl

/-- The count of a component. -/
def OPCUAMonitor.count (monitor : OPCUAMonitor) (component : String) : Nat :=
  monitor.consecutive_failures.getD component 0

theorem OPCUAMonitor.count_onSuccess (monitor : OPCUAMonitor) (c component : String) :
    (monitor.onSuccess c).count component = if c = component then 0 else monitor.count component := by
  unfold count onSuccess Dict.getD
  rw [Dict.get?_erase]
  split <;> rfl

theorem OPCUAMonitor.count_onFailure (monitor : OPCUAMonitor) (c component : String) :
    (monitor.onFailure c).1.count component =
      if c = component then monitor.count c + 1 else monitor.count component := by
  unfold count onFailure
  exact Dict.getD_set _ _ _ _ _

/-- What `safe_handle` does with each of the three outcomes. -/
theorem raises_iff (hhook : c.HookReturns) :
    Raises past c ↔ c.disconnects = true ∨ c.fails = true ∧
      maxConsecutiveMetricFailures ≤ (monitorAfter past).count c.component + 1 := by
  unfold Raises
  rw [safeHandleWith_of_returns hhook]
  obtain ⟨component, outcome, hook⟩ := c
  cases outcome with
  | ok => simp [safeHandle, Completion.disconnects, Completion.fails]
  | error e =>
      by_cases hconn : e.kind = .connectionError
      · simp [safeHandle, Completion.disconnects, hconn]
      · simp only [safeHandle, Completion.disconnects, Completion.fails, hconn, if_false,
          decide_false, Bool.false_eq_true, false_or, ne_eq, not_false_eq_true, decide_true,
          true_and, OPCUAMonitor.onFailure, OPCUAMonitor.count]
        split
        · next hfull => exact iff_of_true ⟨_, rfl⟩ hfull
        · next hfull => exact iff_of_false (by rintro ⟨_, ⟨⟩⟩) hfull

theorem count_monitorStep (hhook : c.HookReturns) (monitor : OPCUAMonitor)
    (hconn : c.disconnects = false) :
    (monitorStep monitor c).count component =
      if c.component = component then if c.fails then monitor.count component + 1 else 0
      else monitor.count component := by
  unfold monitorStep
  rw [safeHandleWith_of_returns hhook]
  obtain ⟨component', outcome, hook⟩ := c
  cases outcome with
  | ok => exact OPCUAMonitor.count_onSuccess _ _ _
  | error e =>
      simp only [Completion.disconnects, decide_eq_false_iff_not] at hconn
      simp only [safeHandle, hconn, if_false, OPCUAMonitor.count_onFailure, Completion.fails,
        ne_eq, not_false_eq_true, decide_true, if_true]
      split
      · next h => rw [h]
      · rfl

/-! ## A session until it raises -/

/-- What is kept for each component is its failures in a row, which are not
yet too many. -/
def Counts (past : List Completion) : Prop :=
  ∀ component, (monitorAfter past).count component = failuresInARow component past ∧
    failuresInARow component past < maxConsecutiveMetricFailures

theorem Counts.snoc (h : Counts past) (hhook : c.HookReturns) (hquiet : ¬ Raises past c) :
    Counts (past ++ [c]) := by
  rw [raises_iff hhook, not_or] at hquiet
  obtain ⟨hconn, hrow⟩ := hquiet
  intro component
  obtain ⟨hcount, hlt⟩ := h component
  rw [monitorAfter_snoc, count_monitorStep hhook _ (by simpa using hconn)]
  by_cases hsame : c.component = component
  · subst hsame
    rw [failuresInARow_snoc_self, if_pos rfl, hcount]
    refine ⟨rfl, ?_⟩
    split
    · next hfails =>
        rw [hcount] at hrow
        exact Nat.lt_of_not_le fun hle => hrow ⟨hfails, hle⟩
    · decide
  · rw [failuresInARow_snoc_of_ne hsame, if_neg hsame]
    exact ⟨hcount, hlt⟩

theorem counts_of_quiet (hhooks : ∀ c ∈ past, c.HookReturns)
    (hquiet : EachWithPast (fun past c => ¬ Raises past c) past) : Counts past := by
  induction past using List.reverseRecOn with
  | nil => exact fun _ => ⟨rfl, Nat.succ_pos 2⟩
  | append_singleton past c ih =>
      rw [EachWithPast.snoc_iff] at hquiet
      rw [List.forall_mem_append, List.forall_mem_singleton] at hhooks
      exact (ih hhooks.1 hquiet.1).snoc hhooks.2 hquiet.2

/-- Until the first time, raising and filling a row are the same. -/
theorem Counts.raises_iff_triggers (h : Counts past) (hhook : c.HookReturns) :
    Raises past c ↔ Triggers past c := by
  obtain ⟨hcount, hlt⟩ := h c.component
  rw [raises_iff hhook, hcount]
  unfold Triggers
  rw [failuresInARow_snoc_self]
  refine or_congr_right (and_congr_right fun hfails => ?_)
  rw [if_pos hfails]
  omega

theorem quiet_iff (hhooks : ∀ c ∈ past, c.HookReturns) :
    EachWithPast (fun past c => ¬ Raises past c) past ↔
      EachWithPast (fun past c => ¬ Triggers past c) past := by
  induction past using List.reverseRecOn with
  | nil => exact iff_of_true .nil .nil
  | append_singleton past c ih =>
      rw [List.forall_mem_append, List.forall_mem_singleton] at hhooks
      rw [EachWithPast.snoc_iff, EachWithPast.snoc_iff, ← ih hhooks.1]
      refine and_congr_right fun hquiet => not_congr ?_
      exact (counts_of_quiet hhooks.1 hquiet).raises_iff_triggers hhooks.2

/-- In every sequence of completions whose hooks return, `safe_handle` raises
for the first time at the first completion that is a `ConnectionError` or
fills its component's row; and until then what the monitor keeps for a
component is the number of its own failures in a row. -/
theorem raises_first_iff (hhooks : ∀ c ∈ l, c.HookReturns) :
    EachWithPast (fun past c => (IsFirst Raises past c ↔ IsFirst Triggers past c) ∧
      (EachWithPast (fun past c => ¬ Raises past c) past → ∀ component,
        (monitorAfter past).count component = failuresInARow component past)) l := by
  intro past c rest heq
  subst heq
  have hpast : ∀ c ∈ past, c.HookReturns := fun c hc => hhooks c (List.mem_append_left _ hc)
  have hc : c.HookReturns := hhooks c (List.mem_append_right _ List.mem_cons_self)
  refine ⟨?_, fun hquiet component => (counts_of_quiet hpast hquiet component).1⟩
  unfold IsFirst
  rw [← quiet_iff hpast]
  exact and_congr_left fun hquiet => (counts_of_quiet hpast hquiet).raises_iff_triggers hc

def completed (component : String) (outcome : Except Exc Unit) : Completion :=
  ⟨component, outcome, none⟩

/-- Two components that fail in turn, one of them with a success in between. -/
def interleavedFailures : List Completion :=
  let failure : Except Exc Unit := .error ⟨.runtimeError, "no such node"⟩
  [completed "CPU" failure, completed "RAM" failure, completed "RAM" (.ok ()),
    completed "CPU" failure, completed "RAM" failure, completed "RAM" failure,
    completed "CPU" failure]

/-- The third failure of the first component raises, and nothing before it. -/
theorem interleavedFailures_raises_last :
    IsFirst Raises interleavedFailures.dropLast (interleavedFailures.getLast (by decide)) := by
  have hhooks : ∀ c ∈ interleavedFailures, c.HookReturns := by
    intro c hc f hf
    have hnone : ∀ c ∈ interleavedFailures, c.hook.isNone = true := by decide
    have hsome := hnone c hc
    rw [Option.mem_def.mp hf] at hsome
    cases hsome
  exact ((raises_first_iff hhooks).getLast (by decide)).1.mpr ⟨by decide, by decide⟩

end KepServerLogger.Lib
