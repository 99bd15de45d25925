import KepServerLogger.Ingestor.Server
import KepServerLogger.Proofs.Atomicity

/-!
# What an operation comes to

Whether an operation of the shared connection returns or raises does not
depend on the other threads. While the connection can be used, it raises
exactly if its statements cannot be built or the server refuses a row of
theirs; and once it cannot, it raises unless it has no statements to execute.
So the calls of one thread may be taken as single steps that end at once.
-/

namespace KepServerLogger.Lib.ProjectDatabase

open KepServerLogger.Py

variable {τ ρ ω : Type*} [DecidableEq τ]

/-- The request has statements, and if there are any the connection can be
used and the server takes all their rows. -/
def Succeeds (plan : ρ → Except Exc (List (List ω))) (accepts : ω → Bool) (available : Bool)
    (request : ρ) : Prop :=
  ∃ statements, plan request = .ok statements ∧
    (statements = [] ∨ available = true ∧ ∀ w ∈ statements.flatten, accepts w = true)

/-- The connection can be used or not, a statement raises exactly if a row of
it is refused, and a commit that reaches the server does not. -/
def Steady (accepts : ω → Bool) (available : Bool) (p : ProjectDatabase τ ρ ω × Event τ ρ) :
    Prop :=
  (p.1.attached && p.1.usable) = available ∧
    match p.2 with
    | .execute th failure =>
        ∀ op request statement remaining,
          p.1.calls th = some ⟨op, request, .execute (statement :: remaining)⟩ →
          (failure = none ↔ ∀ w ∈ statement, accepts w = true)
    | .commit _ failure => failure = none
    | _ => True

variable {plan : ρ → Except Exc (List (List ω))} {accepts : ω → Bool} {available : Bool}
  {s s' : ProjectDatabase τ ρ ω} {n : Nat}

/-- What a call has been through says what it comes to. -/
def Expected (plan : ρ → Except Exc (List (List ω))) (accepts : ω → Bool) (available : Bool)
    (c : Call ρ ω) : Prop :=
  match c.stage with
  | .build => True
  | .acquire statements | .enter statements =>
      plan c.request = .ok statements ∧ statements ≠ []
  | .execute remaining =>
      ∃ done, plan c.request = .ok (done ++ remaining) ∧ done ++ remaining ≠ [] ∧
        (done ≠ [] → available = true) ∧ ∀ w ∈ done.flatten, accepts w = true
  | .rollback _ => ¬ Succeeds plan accepts available c.request
  | .release result => result = .ok () ↔ Succeeds plan accepts available c.request

/-- Of the calls from the `n`-th on. -/
structure Outcomes (plan : ρ → Except Exc (List (List ω))) (accepts : ω → Bool)
    (available : Bool) (n : Nat) (s : ProjectDatabase τ ρ ω) : Prop where
  calls : ∀ th c, s.calls th = some c → n ≤ c.op → Expected plan accepts available c
  done : ∀ f ∈ s.finished, n ≤ f.op →
    (f.result = .ok () ↔ Succeeds plan accepts available f.request)

theorem Outcomes.update (h : Outcomes plan accepts available n s) {th : τ} {c : Call ρ ω}
    (hcalls : s'.calls = Function.update s.calls th (some c))
    (hfinished : s'.finished = s.finished)
    (hc : n ≤ c.op → Expected plan accepts available c) : Outcomes plan accepts available n s' := by
  refine ⟨fun th' d hd => ?_, hfinished ▸ h.done⟩
  rw [hcalls] at hd
  rcases calls_update hd with ⟨_, he⟩ | ⟨_, hd⟩
  · cases he
    exact hc
  · exact h.calls th' d hd

theorem Outcomes.finish (h : Outcomes plan accepts available n s) {th : τ} {c : Call ρ ω}
    {result : Except Exc Unit} (hcalls : s'.calls = Function.update s.calls th none)
    (hfinished : s'.finished = s.finished ++ [⟨c.op, c.request, result⟩])
    (hresult : n ≤ c.op → (result = .ok () ↔ Succeeds plan accepts available c.request)) :
    Outcomes plan accepts available n s' := by
  refine ⟨fun th' d hd => ?_, fun f hf => ?_⟩
  · rw [hcalls] at hd
    rcases calls_update hd with ⟨_, he⟩ | ⟨_, hd⟩
    · cases he
    · exact h.calls th' d hd
  · rw [hfinished] at hf
    rcases List.mem_append.mp hf with hf | hf
    · exact h.done f hf
    · rw [List.mem_singleton.mp hf]
      exact hresult

theorem not_succeeds_of_unavailable {request : ρ} {statements : List (List ω)}
    (hplan : plan request = .ok statements) (hne : statements ≠ []) :
    ¬ Succeeds plan accepts false request := by
  rintro ⟨statements', hplan', hsucceeds⟩
  rw [hplan] at hplan'
  cases hplan'
  rcases hsucceeds with hnil | ⟨hfalse, _⟩
  · exact hne hnil
  · cases hfalse

theorem Outcomes.runStatement (h : Outcomes plan accepts available n s) {th : τ} {op : Nat}
    {request : ρ} {statement : List ω} {remaining : List (List ω)} {failure : Option (Nat × Exc)}
    (hc : s.calls th = some ⟨op, request, .execute (statement :: remaining)⟩)
    (hsteady : Steady accepts available (s, .execute th failure)) :
    Outcomes plan accepts available n
      (s.runStatement th ⟨op, request, .execute (statement :: remaining)⟩ statement remaining
        failure) := by
  obtain ⟨havailable, hserver⟩ := hsteady
  have hrefused := hserver op request statement remaining hc
  have hexpected := h.calls th _ hc
  -- On a connection that cannot be used nothing is executed.
  have hunavailable : available = false → n ≤ op → ∀ e,
      Expected plan accepts available ⟨op, request, .rollback e⟩ := by
    intro hfalse hn e
    obtain ⟨done, hplan, hne, _⟩ := hexpected hn
    rw [hfalse]
    exact not_succeeds_of_unavailable hplan hne
  unfold ProjectDatabase.runStatement
  split
  · next ha =>
      have hfalse : available = false := by
        rw [Bool.not_eq_true'] at ha
        rw [← havailable, ha, Bool.false_and]
      exact h.update rfl rfl (hunavailable hfalse · _)
  · next ha =>
      split
      · next hu =>
          have hfalse : available = false := by
            rw [Bool.not_eq_true'] at hu
            rw [← havailable, hu, Bool.and_false]
          exact h.update rfl rfl (hunavailable hfalse · _)
      · next hu =>
          have htrue : available = true := by
            rw [Bool.not_eq_true', Bool.not_eq_false] at ha hu
            rw [← havailable, ha, hu, Bool.and_true]
          cases failure with
          | none =>
              refine h.update rfl rfl fun hn => ?_
              obtain ⟨done, hplan, _, _, haccepted⟩ := hexpected hn
              refine ⟨done ++ [statement], ?_, by simp, fun _ => htrue, ?_⟩
              · rw [hplan, List.append_assoc, List.singleton_append]
              · intro w hw
                rw [List.flatten_append, List.flatten_singleton] at hw
                rcases List.mem_append.mp hw with hw | hw
                · exact haccepted w hw
                · exact hrefused.mp rfl w hw
          | some f =>
              refine h.update rfl rfl fun hn => ?_
              obtain ⟨done, hplan, _⟩ := hexpected hn
              rintro ⟨statements, hplan', hsucceeds⟩
              rw [hplan] at hplan'
              cases hplan'
              rcases hsucceeds with hnil | ⟨_, hall⟩
              · simp at hnil
              · have hnone := hrefused.mpr fun w hw => hall w (by simp [hw])
                cases hnone

theorem Outcomes.runCommit (h : Outcomes plan accepts available n s) {th : τ} {op : Nat}
    {request : ρ} {failure : Option Exc}
    (hc : s.calls th = some ⟨op, request, .execute []⟩)
    (hsteady : Steady accepts available (s, .commit th failure)) :
    Outcomes plan accepts available n (s.runCommit th ⟨op, request, .execute []⟩ failure) := by
  obtain ⟨havailable, rfl⟩ := hsteady
  unfold ProjectDatabase.runCommit
  split
  · next hu =>
      refine h.update rfl rfl fun hn => ?_
      obtain ⟨done, hplan, hne, _⟩ := h.calls th _ hc hn
      have hfalse : available = false := by
        rw [Bool.not_eq_true'] at hu
        rw [← havailable, hu, Bool.and_false]
      rw [hfalse]
      exact not_succeeds_of_unavailable hplan hne
  · refine h.update rfl rfl fun hn => ?_
    obtain ⟨done, hplan, hne, htrue, haccepted⟩ := h.calls th _ hc hn
    rw [List.append_nil] at hplan hne
    exact iff_of_true rfl ⟨done, hplan, Or.inr ⟨htrue hne, haccepted⟩⟩

theorem Outcomes.step (h : Outcomes plan accepts available n s) {e : Event τ ρ}
    (hsteady : Steady accepts available (s, e)) (hs : step plan s e = some s') :
    Outcomes plan accepts available n s' := by
  cases step_cases hs with
  | call request hidle => exact h.update rfl rfl fun _ => trivial
  | buildRaises hc hplan =>
      refine h.finish rfl rfl fun _ => iff_of_false (by rintro ⟨⟩) ?_
      rintro ⟨statements, hplan', _⟩
      rw [hplan] at hplan'
      cases hplan'
  | builtNothing hc hplan =>
      exact h.finish rfl rfl fun _ => iff_of_true rfl ⟨[], hplan, Or.inl rfl⟩
  | built hc hplan hne => exact h.update rfl rfl fun _ => ⟨hplan, hne⟩
  | acquired hc hlock =>
      have hexpected := h.calls _ _ hc
      exact h.update rfl rfl hexpected
  | entered hc hattached =>
      refine h.update rfl rfl fun hn => ?_
      obtain ⟨hplan, hne⟩ := h.calls _ _ hc hn
      exact ⟨[], hplan, hne, fun hnil => absurd rfl hnil, by simp⟩
  | notConnected hc hattached =>
      refine h.update rfl rfl fun hn => ?_
      obtain ⟨hplan, hne⟩ := h.calls _ _ hc hn
      have hfalse : available = false := by rw [← hsteady.1, hattached, Bool.false_and]
      rw [hfalse]
      exact iff_of_false (by rintro ⟨⟩) (not_succeeds_of_unavailable hplan hne)
  | execute failure hc => exact h.runStatement hc hsteady
  | commit failure hc => exact h.runCommit hc hsteady
  | rollback hc =>
      have hfails := h.calls _ _ hc
      unfold ProjectDatabase.runRollback
      split <;> exact h.update rfl rfl fun hn => iff_of_false (by rintro ⟨⟩) (hfails hn)
  | release hc => exact h.finish rfl rfl (h.calls _ _ hc)
  | linkBreaks | close => exact ⟨h.calls, h.done⟩

/-- From any reachable state on: what is called later comes to what its
statements, the connection and the server say. -/
theorem Run.outcomes {s₀ : ProjectDatabase τ ρ ω}
    {tr₀ tr : List (ProjectDatabase τ ρ ω × Event τ ρ)}
    (h₀ : Run (step plan) ProjectDatabase.start tr₀ s₀) (h : Run (step plan) s₀ tr s)
    (hsteady : ∀ p ∈ tr, Steady accepts available p) :
    Outcomes plan accepts available s₀.next s := by
  have hids := (Run.inv h₀).ids
  induction h with
  | nil =>
      exact ⟨fun th c hc hn => absurd (hids.below th c hc) (Nat.not_lt.mpr hn),
        fun f hf hn => absurd (hids.past f hf).1 (Nat.not_lt.mpr hn)⟩
  | @snoc tr s s' e _ hs ih =>
      exact (ih fun p hp => hsteady p (List.mem_append_left _ hp)).step
        (hsteady (s, e) (by simp)) hs

end KepServerLogger.Lib.ProjectDatabase

namespace KepServerLogger.Ingestor

open KepServerLogger.Lib KepServerLogger.Lib.ProjectDatabase

theorem succeeds_iff_returns {accepts : Write → Bool} {available : Bool} {request : Request} :
    Succeeds Request.plan accepts available request ↔ request.returns accepts available = true := by
  unfold Succeeds Request.plan Request.returns
  cases request.statements with
  | error e =>
      refine iff_of_false ?_ nofun
      rintro ⟨_, hplan, _⟩
      cases hplan
  | ok statements =>
      have hflat : (statements.map Statement.writes).flatten =
          statements.flatMap Statement.writes := List.flatMap_def.symm
      cases statements with
      | nil => exact iff_of_true ⟨[], rfl, Or.inl rfl⟩ rfl
      | cons st rest =>
          show _ ↔ (available && (List.flatMap Statement.writes (st :: rest)).all accepts) = true
          rw [Bool.and_eq_true, List.all_eq_true, ← hflat]
          constructor
          · rintro ⟨_, hplan, hsucceeds⟩
            cases hplan
            exact hsucceeds.resolve_left (by simp)
          · exact fun hsucceeds => ⟨_, rfl, Or.inr hsucceeds⟩

/-- However the threads interleave: an operation that is called while the
connection can be used, or after it no longer can, returns exactly if it is
expected to. -/
theorem operations_return_iff {τ : Type*} [DecidableEq τ] {accepts : Write → Bool}
    {available : Bool} {s₀ s : ProjectDatabase τ Request Write}
    {tr₀ tr : List (ProjectDatabase τ Request Write × Event τ Request)}
    (h₀ : Run (step Request.plan) ProjectDatabase.start tr₀ s₀)
    (h : Run (step Request.plan) s₀ tr s) (hsteady : ∀ p ∈ tr, Steady accepts available p) :
    ∀ f ∈ s.finished, s₀.next ≤ f.op →
      (f.result = .ok () ↔ f.request.returns accepts available = true) := by
  intro f hf hn
  rw [← succeeds_iff_returns]
  exact (Run.outcomes h₀ h hsteady).done f hf hn

/-- `insert_many` of a row with NUL in it, which the server refuses, and a
`log_status` of the other thread, which waits for the lock meanwhile. -/
def refusedInsert : List (Event Bool Request) :=
  let row : Row := ⟨[("timestamp", .str "t"), ("usage", .str "\x00")], by decide⟩
  let now : Py.Datetime := ⟨⟨2026, 4, 17, 21, 43, 58, 125000, by decide⟩, some .utc⟩
  [.call true (.insertMany ⟨[("cpu_usage", [row])], by decide⟩), .build true, .acquire true,
    .call false (.logStatus "inactive" (.str "plant") none none now), .enter true, .build false,
    .execute true (some (0, connectionLost)), .rollback true, .release true, .acquire false,
    .enter false, .execute false none, .commit false none, .release false]

theorem execute_refusedInsert :
    (execute (step Request.plan) ProjectDatabase.start refusedInsert).isSome = true := by
  decide

theorem operations_return_iff_refusedInsert :
    let s := (executed (step Request.plan) ProjectDatabase.start refusedInsert
      execute_refusedInsert).2
    s.finished.map (fun f => f.request.returns acceptsNoNul true) = [false, true] ∧
      ∀ f ∈ s.finished, (f.result = .ok () ↔ f.request.returns acceptsNoNul true = true) := by
  refine ⟨by decide, fun f hf => operations_return_iff .nil (Run.executed execute_refusedInsert)
    ?_ f hf (Nat.zero_le _)⟩
  iterate 6 refine List.forall_mem_cons.mpr ⟨⟨rfl, trivial⟩, ?_⟩
  refine List.forall_mem_cons.mpr ⟨⟨rfl, fun op request statement remaining hc => ?_⟩, ?_⟩
  · cases hc
    decide
  iterate 4 refine List.forall_mem_cons.mpr ⟨⟨rfl, trivial⟩, ?_⟩
  refine List.forall_mem_cons.mpr ⟨⟨rfl, fun op request statement remaining hc => ?_⟩, ?_⟩
  · cases hc
    decide
  refine List.forall_mem_cons.mpr ⟨⟨rfl, rfl⟩, ?_⟩
  refine List.forall_mem_cons.mpr ⟨⟨rfl, trivial⟩, List.forall_mem_nil _⟩

end KepServerLogger.Ingestor
