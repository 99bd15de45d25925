import KepServerLogger.Lib.Drains

/-!
# What drains take

Both buffers are deques that are drained, and what was proved of these holds
of them: nothing is popped from an empty deque, whatever is appended between
two operations of a drain, and what the drains have returned is what was
appended, in order, without what a full buffer has dropped.
-/

namespace KepServerLogger.Lib

open KepServerLogger.Py

namespace ErrorDrains

variable {s s' : ErrorDrains} {e : Event} {tr : List (ErrorDrains × Event)}

/-- `count = min(len(self._errors), MAX_ERRORS_PER_PUBLISH)` -/
def count (length : Nat) : Nat := min length maxErrorsPerPublish

def abstractDrain : Drain → Draining AgentError
  | .queued => .started
  | .started => .started
  | .taking remaining taken => .taking remaining taken

def abstract (s : ErrorDrains) : Drained maxBufferedErrors AgentError where
  deque := s.errors
  drain := s.drain.map abstractDrain
  returned := s.returned
  raised := s.raised.length

/-- Only the begin of the thread is nothing to the deque. -/
def act : ErrorDrains × Event → Option (Drained.Event AgentError)
  | (_, .emit record) => some (.appends record.agentError)
  | (_, .calls) => some .calls
  | (s, .operates) =>
      match s.drain with
      | some .queued => none
      | _ => some .operates
  | (_, .returns) => some .returns

/-- The buffer of errors is a deque that is drained. -/
theorem step_abstract (h : step s e = some s') :
    (act (s, e)).elim (s'.abstract = s.abstract) fun d =>
      Drained.step count s.abstract d = some s'.abstract := by
  cases e with
  | emit record =>
      simp only [step, Option.some.injEq] at h
      subst h
      simp only [act, Option.elim_some, Drained.step, abstract, ErrorBuffer.emit]
  | calls =>
      unfold step at h
      dsimp only at h
      split at h
      · next hdrain =>
          cases h
          simp only [act, Option.elim_some, Drained.step, abstract, hdrain, Option.map_none,
            Option.map_some, abstractDrain]
      · cases h
  | operates =>
      unfold step at h
      dsimp only at h
      split at h
      · next drain hdrain =>
          have hact : act (s, .operates) = match s.drain with
            | some .queued => none
            | _ => some .operates := rfl
          rw [hdrain] at hact
          cases drain with
          | queued =>
              cases h
              simp only [hact, Option.elim_none, abstract, hdrain, Option.map_some, abstractDrain]
          | started =>
              cases h
              simp only [hact, Option.elim_some, Drained.step, Draining.step, abstract, hdrain,
                Option.map_some, abstractDrain, count]
          | taking remaining taken =>
              cases remaining with
              | zero => cases h
              | succ remaining =>
                  unfold Drain.step at h
                  simp only [hact, Option.elim_some, Drained.step, Draining.step, abstract, hdrain,
                    Option.map_some, abstractDrain]
                  cases hpop : s.errors.popleft with
                  | some p =>
                      rw [hpop] at h
                      cases h
                      rfl
                  | none =>
                      rw [hpop] at h
                      cases h
                      simp
      · cases h
  | returns =>
      unfold step at h
      dsimp only at h
      split at h
      · next taken hdrain =>
          cases h
          simp only [act, Option.elim_some, Drained.step, abstract, hdrain, Option.map_some,
            abstractDrain, Option.map_none]
      · cases h

theorem taken_abstract (s : ErrorDrains) : s.abstract.taken = s.taken := by
  unfold Drained.taken taken abstract
  cases s.drain with
  | none => rfl
  | some drain => cases drain <;> rfl

/-- What the deque is given and what it drops are the same for both. -/
theorem appended_act (p : ErrorDrains × Event) :
    (act p).elim [] (fun d => Drained.appended (p.1.abstract, d)) = appended p ∧
      (act p).elim [] (fun d => Drained.evicted (p.1.abstract, d)) = evicted p := by
  obtain ⟨s, e⟩ := p
  cases e with
  | operates =>
      unfold act
      dsimp only
      split <;> exact ⟨rfl, rfl⟩
  | _ => exact ⟨rfl, rfl⟩

theorem drained (h : Run step start tr s) :
    s.raised = [] ∧
      LossyFifo.Accounts (tr.flatMap appended) (s.returned.flatten ++ s.taken)
        (tr.flatMap evicted) s.errors.items ∧
      ∀ errors ∈ s.returned, errors.length ≤ maxErrorsPerPublish := by
  have hrun := h.simulate abstract act fun _ _ _ => step_abstract
  have hfits := Drained.fits (fun n => Nat.min_le_left n _)
    (fun n _ => Nat.min_le_right n maxErrorsPerPublish) hrun
  have haccounts := Drained.accounts (by decide) (fun n => Nat.min_le_left n _) hrun
  rw [Run.flatMap_simulated fun p => (appended_act p).1,
    Run.flatMap_simulated fun p => (appended_act p).2, taken_abstract] at haccounts
  exact ⟨List.eq_nil_of_length_eq_zero hfits.raised, haccounts, hfits.capped⟩

end ErrorDrains

namespace RttDrains

variable {millis : Int → PyFloat} {s s' : RttDrains} {e : Event} {tr : List (RttDrains × Event)}

/-- The handler appends what it measures, and nothing else. -/
theorem rtts_datachangeNotification (millis : Int → PyFloat) (h : SystemHeartbeatHandler) (val : Int)
    (now : Utc) (monotonic : Int) :
    (h.datachangeNotification millis val now monotonic).1.rtts =
      (h.datachangeNotification millis val now monotonic).2.1.elim h.rtts h.rtts.append := by
  unfold SystemHeartbeatHandler.datachangeNotification SystemHeartbeatHandler.receive
  dsimp only
  split <;> rfl

def abstract (s : RttDrains) : Drained maxBufferedRtts HeartbeatRTT where
  deque := s.handler.rtts
  drain := s.drain
  returned := s.returned
  raised := s.raised.length

/-- Sending is nothing to the deque, nor is a notification that measures nothing. -/
def act (millis : Int → PyFloat) : RttDrains × Event → Option (Drained.Event HeartbeatRTT)
  | (_, .sends _) => none
  | (s, .notified val now monotonic) =>
      (appended? millis (s, .notified val now monotonic)).map .appends
  | (_, .calls) => some .calls
  | (_, .operates) => some .operates
  | (_, .returns) => some .returns

theorem step_abstract (h : step millis s e = some s') :
    (act millis (s, e)).elim (s'.abstract = s.abstract) fun d =>
      Drained.step (fun length => length) s.abstract d = some s'.abstract := by
  cases e with
  | sends monotonic =>
      simp only [step, Option.some.injEq] at h
      subst h
      rfl
  | notified val now monotonic =>
      simp only [step, Option.some.injEq] at h
      subst h
      have hrtts := rtts_datachangeNotification millis s.handler val now monotonic
      unfold act appended?
      dsimp only
      cases hrtt : (s.handler.datachangeNotification millis val now monotonic).2.1 with
      | none =>
          rw [hrtt] at hrtts
          simp only [Option.map_none, Option.elim_none, abstract, hrtts]
      | some rtt =>
          rw [hrtt] at hrtts
          simp only [Option.map_some, Option.elim_some, abstract, hrtts, Drained.step]
  | calls =>
      unfold step at h
      dsimp only at h
      split at h
      · next hdrain =>
          simp only [Option.some.injEq] at h
          subst h
          simp only [act, Option.elim_some, Drained.step, abstract, hdrain]
      · cases h
  | operates =>
      unfold step SystemHeartbeatHandler.drainRtts at h
      dsimp only at h
      split at h
      · next drain hdrain =>
          simp only [act, Option.elim_some, Drained.step, abstract, hdrain]
          cases hstep : drain.step (fun length => length) s.handler.rtts with
          | none =>
              rw [hstep] at h
              cases h
          | some outcome =>
              rw [hstep] at h
              cases outcome with
              | ok p =>
                  simp only [Option.some.injEq] at h
                  subst h
                  rfl
              | error e =>
                  simp only [Option.some.injEq] at h
                  subst h
                  simp
      · cases h
  | returns =>
      unfold step at h
      dsimp only at h
      split at h
      · next taken hdrain =>
          simp only [Option.some.injEq] at h
          subst h
          simp only [act, Option.elim_some, Drained.step, abstract, hdrain]
      · cases h

theorem appended_act (p : RttDrains × Event) :
    (act millis p).elim [] (fun d => Drained.appended (p.1.abstract, d)) = appended millis p ∧
      (act millis p).elim [] (fun d => Drained.evicted (p.1.abstract, d)) = evicted millis p := by
  obtain ⟨s, e⟩ := p
  cases e with
  | notified val now monotonic =>
      unfold act appended evicted
      dsimp only
      cases appended? millis (s, .notified val now monotonic) <;> exact ⟨rfl, rfl⟩
  | _ => exact ⟨rfl, rfl⟩

theorem drained {pair : String} {max_heartbeat max_rtt : Int}
    (h : Run (step millis) (start pair max_heartbeat max_rtt) tr s) :
    s.raised = [] ∧
      LossyFifo.Accounts (tr.flatMap (appended millis)) (s.returned.flatten ++ s.taken)
        (tr.flatMap (evicted millis)) s.handler.rtts.items := by
  have hrun := h.simulate abstract (act millis) fun _ _ _ => step_abstract
  have hfits := Drained.fits (fun n => Nat.le_refl n) (fun n hn => hn) hrun
  have haccounts := Drained.accounts (by decide) (fun n => Nat.le_refl n) hrun
  rw [Run.flatMap_simulated fun p => (appended_act p).1,
    Run.flatMap_simulated fun p => (appended_act p).2] at haccounts
  exact ⟨List.eq_nil_of_length_eq_zero hfits.raised, haccounts⟩

end RttDrains

/-- However appends fall between the operations of the drains, no `popleft`
raises, what was drained and then what is buffered is what was appended, in
order and each item once, without those that were the oldest of a full buffer
when another was appended, and no drain returns more errors than one publish
may have. -/
theorem drains_account (millis : Int → PyFloat) :
    (∀ tr s, Run ErrorDrains.step .start tr s →
      s.raised = [] ∧
        LossyFifo.Accounts (tr.flatMap ErrorDrains.appended) (s.returned.flatten ++ s.taken)
          (tr.flatMap ErrorDrains.evicted) s.errors.items ∧
        ∀ errors ∈ s.returned, errors.length ≤ maxErrorsPerPublish) ∧
      ∀ pair max_heartbeat max_rtt tr s,
        Run (RttDrains.step millis) (.start pair max_heartbeat max_rtt) tr s →
        s.raised = [] ∧
          LossyFifo.Accounts (tr.flatMap (RttDrains.appended millis))
            (s.returned.flatten ++ s.taken) (tr.flatMap (RttDrains.evicted millis))
            s.handler.rtts.items :=
  ⟨fun _ _ h => ErrorDrains.drained h, fun _ _ _ _ _ h => RttDrains.drained h⟩

def slowDisk (second : Nat) : LogRecord where
  name := "src.main"
  levelname := "WARNING"
  message := "[METRICS] slow disk"
  exc_info := none
  created := ⟨⟨2026, 5, 6, 7, 8, second % 60, 0, by decide, by decide, by decide, by decide,
    by decide, Nat.mod_lt _ (by decide), by decide⟩⟩

/-- One record more while the drain is taking the first two. -/
def emitWhileDraining : List ErrorDrains.Event :=
  [.emit (slowDisk 1), .emit (slowDisk 2), .calls, .operates, .operates, .operates,
    .emit (slowDisk 3), .operates, .returns]

theorem execute_emitWhileDraining :
    (execute ErrorDrains.step .start emitWhileDraining).isSome = true := by
  decide

/-- It stays for the next drain. -/
theorem drains_account_emitWhileDraining :
    let run := executed ErrorDrains.step .start emitWhileDraining execute_emitWhileDraining
    LossyFifo.Accounts ([slowDisk 1, slowDisk 2, slowDisk 3].map LogRecord.agentError)
      ([slowDisk 1, slowDisk 2].map LogRecord.agentError) [] [(slowDisk 3).agentError] ∧
      run.2.raised = [] := by
  have haccount := (drains_account fun _ => ⟨"0.0"⟩).1 _ _
    (Run.executed execute_emitWhileDraining)
  exact ⟨haccount.2.1, haccount.1⟩

end KepServerLogger.Lib
