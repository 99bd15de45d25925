import KepServerLogger.Proofs.Atomicity

/-!
# Every operation ends

The lock is taken before the first statement and kept until the commit or the
rollback is over, and either may raise. What could go wrong is that an
operation never lets go of it, or that two wait for each other. Neither
happens: a thread in an operation can take its next step, or waits for the
thread that holds the lock, which can take its own; and no operation takes
more steps than its work, whatever raises, and whether the link breaks or the
connection is closed meanwhile.
-/

namespace KepServerLogger.Lib.ProjectDatabase

open KepServerLogger.Py

variable {τ ρ ω : Type*}

/-- The thread whose step it is. -/
def Event.thread : Event τ ρ → Option τ
  | .call th _ | .build th | .acquire th | .enter th | .execute th _ | .commit th _
  | .rollback th | .release th => some th
  | .linkBreaks | .close => none

/-- The most steps that a call still takes. -/
def Call.work (plan : ρ → Except Exc (List (List ω))) (c : Call ρ ω) : Nat :=
  match c.stage with
  | .build =>
      match plan c.request with
      | .ok statements => statements.length + 6
      | .error _ => 1
  | .acquire statements => statements.length + 5
  | .enter statements => statements.length + 4
  | .execute remaining => remaining.length + 3
  | .rollback _ => 2
  | .release _ => 1

variable [DecidableEq τ] {plan : ρ → Except Exc (List (List ω))} {s s' : ProjectDatabase τ ρ ω}
  {e : Event τ ρ} {th : τ} {c : Call ρ ω}

/-- The call goes on with less work to do. -/
def GoesOn (plan : ρ → Except Exc (List (List ω))) (c : Call ρ ω) (th : τ)
    (s' : ProjectDatabase τ ρ ω) : Prop :=
  ∃ c', s'.calls th = some c' ∧ c'.op = c.op ∧ c'.work plan < c.work plan

theorem goesOn_goTo {stage : Stage ω}
    (hwork : ({ c with stage } : Call ρ ω).work plan < c.work plan) :
    GoesOn plan c th (s.goTo th c stage) :=
  ⟨{ c with stage }, Function.update_self .., rfl, hwork⟩

/-- A step of its own brings a call nearer to its end. -/
theorem own_step (hs : step plan s e = some s') (he : e.thread = some th)
    (hc : s.calls th = some c) :
    (∃ f ∈ s'.finished, f.op = c.op) ∨ GoesOn plan c th s' := by
  cases step_cases hs with
  | call request hidle =>
      cases he
      rw [hidle] at hc
      cases hc
  | buildRaises hc' hplan | builtNothing hc' hplan =>
      cases he
      rw [hc'] at hc
      cases hc
      exact .inl ⟨_, List.mem_append_right _ (List.mem_singleton_self _), rfl⟩
  | built hc' hplan hne =>
      cases he
      rw [hc'] at hc
      cases hc
      refine .inr (goesOn_goTo ?_)
      simp [Call.work, hplan]
  | acquired hc' hlock =>
      cases he
      rw [hc'] at hc
      cases hc
      exact .inr ⟨_, Function.update_self .., rfl, Nat.lt_succ_self _⟩
  | entered hc' hattached =>
      cases he
      rw [hc'] at hc
      cases hc
      exact .inr (goesOn_goTo (Nat.lt_succ_self _))
  | notConnected hc' hattached =>
      cases he
      rw [hc'] at hc
      cases hc
      refine .inr (goesOn_goTo ?_)
      simp [Call.work]
  | execute failure hc' =>
      cases he
      rw [hc'] at hc
      cases hc
      unfold runStatement
      split
      · exact .inr (goesOn_goTo (by simp [Call.work]))
      · split
        · exact .inr (goesOn_goTo (by simp [Call.work]))
        · split
          · exact .inr ⟨_, Function.update_self .., rfl, by simp [Call.work]⟩
          · exact .inr ⟨_, Function.update_self .., rfl, by simp [Call.work]⟩
  | commit failure hc' =>
      cases he
      rw [hc'] at hc
      cases hc
      unfold runCommit
      split
      · exact .inr (goesOn_goTo (by simp [Call.work]))
      · split
        · exact .inr ⟨_, Function.update_self .., rfl, by simp [Call.work]⟩
        · exact .inr (goesOn_goTo (by simp [Call.work]))
  | rollback hc' =>
      cases he
      rw [hc'] at hc
      cases hc
      unfold runRollback
      split
      · exact .inr ⟨_, Function.update_self .., rfl, by simp [Call.work]⟩
      · exact .inr (goesOn_goTo (by simp [Call.work]))
  | release hc' =>
      cases he
      rw [hc'] at hc
      cases hc
      exact .inl ⟨_, List.mem_append_right _ (List.mem_singleton_self _), rfl⟩
  | linkBreaks | close => cases he

/-- The other threads do not touch it. -/
theorem other_step (hs : step plan s e = some s') (he : e.thread ≠ some th) :
    s'.calls th = s.calls th := by
  have hne : ∀ th', e.thread = some th' → th ≠ th' := by
    rintro th' he' rfl
    exact he he'
  cases step_cases hs with
  | call | buildRaises | builtNothing | built | acquired | entered | notConnected | release =>
      exact Function.update_of_ne (hne _ rfl) ..
  | execute failure hc =>
      unfold runStatement
      split
      · exact Function.update_of_ne (hne _ rfl) ..
      · split
        · exact Function.update_of_ne (hne _ rfl) ..
        · split <;> exact Function.update_of_ne (hne _ rfl) ..
  | commit failure hc =>
      unfold runCommit
      split
      · exact Function.update_of_ne (hne _ rfl) ..
      · split <;> exact Function.update_of_ne (hne _ rfl) ..
  | rollback hc =>
      unfold runRollback
      split <;> exact Function.update_of_ne (hne _ rfl) ..
  | linkBreaks | close => rfl

theorem finished_prefix_step (hs : step plan s e = some s') : s.finished <+: s'.finished := by
  cases step_cases hs with
  | buildRaises | builtNothing | release => exact List.prefix_append _ _
  | call | built | acquired | entered | notConnected | linkBreaks | close => exact List.prefix_rfl
  | execute failure hc =>
      unfold runStatement
      split
      · exact List.prefix_rfl
      · split
        · exact List.prefix_rfl
        · split <;> exact List.prefix_rfl
  | commit failure hc =>
      unfold runCommit
      split
      · exact List.prefix_rfl
      · split <;> exact List.prefix_rfl
  | rollback hc =>
      unfold runRollback
      split <;> exact List.prefix_rfl

/-- The thread has a step to take. -/
def Enabled (plan : ρ → Except Exc (List (List ω))) (s : ProjectDatabase τ ρ ω) (th : τ) : Prop :=
  ∃ e, Event.thread e = some th ∧ (step plan s e).isSome

/-- Only the lock can keep a call from its next step. -/
theorem enabled_of_call (hc : s.calls th = some c)
    (hlock : ∀ statements, c.stage = .acquire statements → lockAcquire th s.lock ≠ none) :
    Enabled plan s th := by
  obtain ⟨op, request, stage⟩ := c
  cases stage with
  | build =>
      cases hplan : plan request with
      | error e => exact ⟨.build th, rfl, by simp [step, hc, hplan]⟩
      | ok statements =>
          cases statements with
          | nil => exact ⟨.build th, rfl, by simp [step, hc, hplan]⟩
          | cons st rest => exact ⟨.build th, rfl, by simp [step, hc, hplan]⟩
  | acquire statements =>
      obtain ⟨lock, hlock⟩ := Option.ne_none_iff_exists'.mp (hlock statements rfl)
      exact ⟨.acquire th, rfl, by simp [step, hc, hlock]⟩
  | enter statements => exact ⟨.enter th, rfl, by simp [step, hc]⟩
  | execute remaining =>
      cases remaining with
      | nil => exact ⟨.commit th none, rfl, by simp [step, hc]⟩
      | cons st rest => exact ⟨.execute th none, rfl, by simp [step, hc]⟩
  | rollback e => exact ⟨.rollback th, rfl, by simp [step, hc]⟩
  | release result => exact ⟨.release th, rfl, by simp [step, hc]⟩

/-- A call can go on, or waits for the one that holds the lock, which can. -/
theorem Inv.enabled (h : Inv plan s) (hc : s.calls th = some c) :
    Enabled plan s th ∨ ∃ owner, owner ≠ th ∧ s.lock = some (owner, 1) ∧ Enabled plan s owner := by
  cases hlock : s.lock with
  | none => exact .inl (enabled_of_call hc fun _ _ => by simp [hlock, lockAcquire])
  | some held =>
      obtain ⟨owner, n⟩ := held
      obtain ⟨rfl, c', hc', hin, -⟩ := h.held owner n hlock
      by_cases howner : owner = th
      · exact .inl (enabled_of_call hc fun _ _ => by simp [hlock, lockAcquire, howner])
      · refine .inr ⟨owner, howner, rfl, enabled_of_call hc' fun statements hstage => ?_⟩
        rw [hstage] at hin
        cases hin

/-- The steps of a thread. -/
def ownSteps (th : τ) (tr : List (ProjectDatabase τ ρ ω × Event τ ρ)) : Nat :=
  tr.countP fun p => p.2.thread = some th

/-- What a call has taken of its work by the end of a run. -/
theorem Run.work {s₀ s : ProjectDatabase τ ρ ω}
    {tr : List (ProjectDatabase τ ρ ω × Event τ ρ)} (h : Run (step plan) s₀ tr s)
    (hc : s₀.calls th = some c) :
    (∃ f ∈ s.finished, f.op = c.op) ∨
      ∃ c', s.calls th = some c' ∧ c'.op = c.op ∧ ownSteps th tr + c'.work plan ≤ c.work plan := by
  induction h with
  | nil => exact .inr ⟨c, hc, rfl, by simp [ownSteps]⟩
  | @snoc tr s s' e _ hs ih =>
      rcases ih with ⟨f, hf, hop⟩ | ⟨c', hc', hop, hle⟩
      · exact .inl ⟨f, (finished_prefix_step hs).subset hf, hop⟩
      · by_cases he : e.thread = some th
        · rcases own_step hs he hc' with ⟨f, hf, hop'⟩ | ⟨c₂, hc₂, hop₂, hlt⟩
          · exact .inl ⟨f, hf, hop'.trans hop⟩
          · refine .inr ⟨c₂, hc₂, hop₂.trans hop, ?_⟩
            simp only [ownSteps, List.countP_append, List.countP_singleton, he] at hle ⊢
            simp only [decide_true, if_true]
            omega
        · refine .inr ⟨c', (other_step hs he).trans hc', hop, ?_⟩
          simp only [ownSteps, List.countP_append, List.countP_singleton] at hle ⊢
          simpa [he] using hle

/-- However the threads interleave and whatever raises: an operation is over,
or has taken no more steps than its work, and its thread can take the next
one or waits for the lock in the hands of one that can. -/
theorem operations_end {s₀ s : ProjectDatabase τ ρ ω}
    {tr₀ tr : List (ProjectDatabase τ ρ ω × Event τ ρ)}
    (h₀ : Run (step plan) ProjectDatabase.start tr₀ s₀) (h : Run (step plan) s₀ tr s)
    (hc : s₀.calls th = some c) :
    (∃ f ∈ s.finished, f.op = c.op) ∨
      ∃ c', s.calls th = some c' ∧ c'.op = c.op ∧
        ownSteps th tr + c'.work plan ≤ c.work plan ∧
        (Enabled plan s th ∨
          ∃ owner, owner ≠ th ∧ s.lock = some (owner, 1) ∧ Enabled plan s owner) := by
  rcases Run.work h hc with hdone | ⟨c', hc', hop, hle⟩
  · exact .inl hdone
  · exact .inr ⟨c', hc', hop, hle, (Run.inv (h₀.append h)).enabled hc'⟩

end KepServerLogger.Lib.ProjectDatabase

namespace KepServerLogger.Ingestor

open KepServerLogger.Py KepServerLogger.Lib KepServerLogger.Lib.ProjectDatabase

/-- `insert_many` comes to the lock just before `log_status` does, and is
still there when that commits. -/
def comesFirst : List (Event Bool Request) := someOperations.take 4

def waitsMeanwhile : List (Event Bool Request) := (someOperations.drop 4).take 4

theorem execute_comesFirst :
    (execute (step Request.plan) ProjectDatabase.start comesFirst).isSome = true := by
  decide

def cameFirst : ProjectDatabase Bool Request Write :=
  (executed (step Request.plan) ProjectDatabase.start comesFirst execute_comesFirst).2

theorem execute_waitsMeanwhile :
    (execute (step Request.plan) cameFirst waitsMeanwhile).isSome = true := by
  decide

theorem operations_end_waiting :
    let s := (executed (step Request.plan) cameFirst waitsMeanwhile execute_waitsMeanwhile).2
    ∃ c, cameFirst.calls true = some c ∧
      ((∃ f ∈ s.finished, f.op = c.op) ∨
        ∃ c', s.calls true = some c' ∧ c'.op = c.op ∧
          c'.work Request.plan ≤ c.work Request.plan ∧
          (Enabled Request.plan s true ∨ ∃ owner, owner ≠ true ∧ s.lock = some (owner, 1) ∧
            Enabled Request.plan s owner)) := by
  have hsome : (cameFirst.calls true).isSome = true := by decide
  refine ⟨(cameFirst.calls true).get hsome, (Option.some_get hsome).symm, ?_⟩
  refine (operations_end (Run.executed execute_comesFirst) (Run.executed execute_waitsMeanwhile)
    (Option.some_get hsome).symm).imp_right ?_
  rintro ⟨c', hc', hop, hle, henabled⟩
  exact ⟨c', hc', hop, (Nat.le_add_left _ _).trans hle, henabled⟩

end KepServerLogger.Ingestor
