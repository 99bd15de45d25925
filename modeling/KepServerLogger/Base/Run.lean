import Mathlib.Data.List.Induction

/-!
# Runs of a transition system

Everything the project says about "every run" is said about one notion: a
partial step function, a starting state, and the list of the steps taken,
each with the state it was taken in. Keeping the state next to the event is
what lets a history — what was put on a queue, which calls were made, what a
step reported — be read off a run afterwards instead of being threaded
through the program as ghost state.

The rules here are the ones the proofs use: an invariant that every step
preserves holds at the end of every run; a step of a run splits it into the
run before and the run after; a system that simulates another step by step does so
run by run; and a list of events that executes is a run, which is how a
concrete run is exhibited.
-/

namespace KepServerLogger

variable {σ ε : Type*}

/-- `Run step s₀ tr s`: the steps `tr`, each a state and the event taken in
it, lead from `s₀` to `s`. -/
inductive Run (step : σ → ε → Option σ) (s₀ : σ) : List (σ × ε) → σ → Prop
  | nil : Run step s₀ [] s₀
  | snoc {tr : List (σ × ε)} {s s' : σ} {e : ε} :
      Run step s₀ tr s → step s e = some s' → Run step s₀ (tr ++ [(s, e)]) s'

namespace Run

variable {step : σ → ε → Option σ} {s₀ s s' : σ} {tr tr' : List (σ × ε)}

/-- The invariant rule. -/
theorem invariant {P : σ → Prop} (h : Run step s₀ tr s) (h₀ : P s₀)
    (hstep : ∀ s e s', P s → step s e = some s' → P s') : P s := by
  induction h with
  | nil => exact h₀
  | snoc _ hs ih => exact hstep _ _ _ ih hs

/-- The invariant rule where the steps meet a condition. -/
theorem invariant_of {P : σ → Prop} {A : σ × ε → Prop} (h : Run step s₀ tr s)
    (hall : ∀ p ∈ tr, A p) (h₀ : P s₀)
    (hstep : ∀ s e s', P s → A (s, e) → step s e = some s' → P s') : P s := by
  induction h with
  | nil => exact h₀
  | snoc _ hs ih =>
      rw [List.forall_mem_append, List.forall_mem_singleton] at hall
      exact hstep _ _ _ (ih hall.1) hall.2 hs

theorem append (h : Run step s₀ tr s) (h' : Run step s tr' s') :
    Run step s₀ (tr ++ tr') s' := by
  induction h' with
  | nil => simpa using h
  | snoc _ hs ih => rw [← List.append_assoc]; exact ih.snoc hs

theorem snoc_inv {e : ε} (h : Run step s₀ (tr ++ [(s, e)]) s') :
    Run step s₀ tr s ∧ step s e = some s' := by
  generalize htr : tr ++ [(s, e)] = tr' at h
  cases h with
  | nil => simp at htr
  | snoc h hs =>
      obtain ⟨rfl, hlast⟩ := List.append_inj' htr rfl
      simp only [List.cons.injEq, Prod.mk.injEq, and_true] at hlast
      obtain ⟨rfl, rfl⟩ := hlast
      exact ⟨h, hs⟩

/-- A step of a run splits it: a run reaches the state it is taken in, and
the rest runs on from the state it leads to. -/
theorem split {pre post : List (σ × ε)} {t : σ} {e : ε}
    (h : Run step s₀ (pre ++ (t, e) :: post) s) :
    ∃ t', Run step s₀ pre t ∧ step t e = some t' ∧ Run step t' post s := by
  induction post using List.reverseRecOn generalizing s with
  | nil =>
      obtain ⟨hpre, hs⟩ := snoc_inv h
      exact ⟨s, hpre, hs, .nil⟩
  | append_singleton post p ih =>
      obtain ⟨q, e'⟩ := p
      have h' : Run step s₀ ((pre ++ (t, e) :: post) ++ [(q, e')]) s := by
        simpa using h
      obtain ⟨hrun, hs⟩ := snoc_inv h'
      obtain ⟨t', hpre, ht, hpost⟩ := ih hrun
      exact ⟨t', hpre, ht, hpost.snoc hs⟩

/-- What a property of single steps needs: the step happened in a state that
a run reaches. -/
theorem of_mem {p : σ × ε} (h : Run step s₀ tr s) (hp : p ∈ tr) :
    ∃ pre t', pre <+: tr ∧ Run step s₀ pre p.1 ∧ step p.1 p.2 = some t' := by
  obtain ⟨pre, post, rfl⟩ := List.append_of_mem hp
  obtain ⟨t', hpre, hs, _⟩ := split h
  exact ⟨pre, t', List.prefix_append _ _, hpre, hs⟩

/-- A system that does in each step what another does in one step, or nothing,
runs as the other does. -/
theorem simulate {τ δ : Type*} {step' : τ → δ → Option τ} (abs : σ → τ) (act : σ × ε → Option δ)
    (hstep : ∀ s e s', step s e = some s' →
      (act (s, e)).elim (abs s' = abs s) fun d => step' (abs s) d = some (abs s'))
    (h : Run step s₀ tr s) :
    Run step' (abs s₀) (tr.filterMap fun p => (act p).map fun d => (abs p.1, d)) (abs s) := by
  induction h with
  | nil => exact .nil
  | @snoc tr s s' e _ hs ih =>
      have habs := hstep s e s' hs
      rw [List.filterMap_append]
      cases hact : act (s, e) with
      | none =>
          rw [hact, Option.elim_none] at habs
          rw [List.filterMap_cons_none (by rw [hact]; rfl), List.filterMap_nil, List.append_nil,
            habs]
          exact ih
      | some d =>
          rw [hact, Option.elim_some] at habs
          rw [List.filterMap_cons_some (by rw [hact]; rfl)]
          exact ih.snoc habs

/-- Simulation under an invariant, where the steps meet a condition. -/
theorem simulate_invariant {τ δ : Type*} {step' : τ → δ → Option τ} {P : σ → Prop}
    {A : σ × ε → Prop} (abs : σ → τ) (act : σ × ε → Option δ) (h₀ : P s₀)
    (hP : ∀ s e s', P s → A (s, e) → step s e = some s' → P s')
    (hstep : ∀ s e s', P s → A (s, e) → step s e = some s' →
      (act (s, e)).elim (abs s' = abs s) fun d => step' (abs s) d = some (abs s'))
    (h : Run step s₀ tr s) (hall : ∀ p ∈ tr, A p) :
    Run step' (abs s₀) (tr.filterMap fun p => (act p).map fun d => (abs p.1, d)) (abs s) := by
  classical
  -- The same run, of a system that stops where one of the two fails.
  have hchecked : Run (fun s e => if P s ∧ A (s, e) then step s e else none) s₀ tr s := by
    induction h with
    | nil => exact .nil
    | snoc h hs ih =>
        rw [List.forall_mem_append, List.forall_mem_singleton] at hall
        exact (ih hall.1).snoc ((if_pos ⟨h.invariant_of hall.1 h₀ hP, hall.2⟩).trans hs)
  refine hchecked.simulate abs act fun s e s' hs => ?_
  split at hs
  · next hs₀ => exact hstep s e s' hs₀.1 hs₀.2 hs
  · cases hs

/-- What is read off each step can be read off the steps of the other. -/
theorem flatMap_simulated {τ δ γ : Type*} {abs : σ → τ} {act : σ × ε → Option δ}
    {f : τ × δ → List γ} {g : σ × ε → List γ}
    (h : ∀ p, (act p).elim [] (fun d => f (abs p.1, d)) = g p) (tr : List (σ × ε)) :
    (tr.filterMap fun p => (act p).map fun d => (abs p.1, d)).flatMap f = tr.flatMap g := by
  induction tr with
  | nil => rfl
  | cons p tr ih =>
      rw [List.flatMap_cons, ← h p]
      cases hact : act p with
      | none =>
          rw [List.filterMap_cons_none (by rw [hact]; rfl), ih]
          rfl
      | some d =>
          rw [List.filterMap_cons_some (by rw [hact]; rfl), List.flatMap_cons, ih]
          rfl

end Run

/-- Executes a list of events, keeping each step taken; `none` when an event
is not possible where it stands. -/
def execute (step : σ → ε → Option σ) : σ → List ε → Option (List (σ × ε) × σ)
  | s, [] => some ([], s)
  | s, e :: es =>
      match step s e with
      | none => none
      | some s' =>
          match execute step s' es with
          | none => none
          | some (tr, last) => some ((s, e) :: tr, last)

theorem Run.of_execute {step : σ → ε → Option σ} {s s' : σ} {es : List ε}
    {tr : List (σ × ε)} (h : execute step s es = some (tr, s')) :
    Run step s tr s' := by
  induction es generalizing s tr with
  | nil =>
      simp only [execute, Option.some.injEq, Prod.mk.injEq] at h
      obtain ⟨rfl, rfl⟩ := h
      exact .nil
  | cons e es ih =>
      simp only [execute] at h
      split at h
      · cases h
      · next t hs =>
          split at h
          · cases h
          · next tr' last hrest =>
              simp only [Option.some.injEq, Prod.mk.injEq] at h
              obtain ⟨rfl, rfl⟩ := h
              exact (Run.nil.snoc hs).append (ih hrest)

theorem map_snd_execute {step : σ → ε → Option σ} {s s' : σ} {es : List ε}
    {tr : List (σ × ε)} (h : execute step s es = some (tr, s')) : tr.map Prod.snd = es := by
  induction es generalizing s tr with
  | nil =>
      simp only [execute, Option.some.injEq, Prod.mk.injEq] at h
      rw [← h.1]
      rfl
  | cons e es ih =>
      simp only [execute] at h
      split at h
      · cases h
      · next t hs =>
          split at h
          · cases h
          · next tr' last hrest =>
              simp only [Option.some.injEq, Prod.mk.injEq] at h
              obtain ⟨rfl, rfl⟩ := h
              rw [List.map_cons, ih hrest]

/-- The run of events that are all possible where they stand. -/
def executed (step : σ → ε → Option σ) (s : σ) (es : List ε)
    (h : (execute step s es).isSome = true) : List (σ × ε) × σ :=
  (execute step s es).get h

theorem Run.executed {step : σ → ε → Option σ} {s : σ} {es : List ε}
    (h : (execute step s es).isSome = true) :
    Run step s (executed step s es h).1 (executed step s es h).2 :=
  .of_execute (Option.some_get h).symm

theorem map_snd_executed {step : σ → ε → Option σ} {s : σ} {es : List ε}
    (h : (execute step s es).isSome = true) :
    (executed step s es h).1.map Prod.snd = es :=
  map_snd_execute (Option.some_get h).symm

/-- A condition on the events of an executed run is one on the given events. -/
theorem forall_mem_executed {step : σ → ε → Option σ} {s : σ} {es : List ε} {P : ε → Prop}
    (h : (execute step s es).isSome = true) (hP : ∀ e ∈ es, P e) :
    ∀ p ∈ (executed step s es h).1, P p.2 := by
  intro p hp
  have hmap := map_snd_executed h
  exact hP p.2 (hmap ▸ List.mem_map_of_mem hp)

end KepServerLogger
