import KepServerLogger.Ingestor.Db

/-!
# Operations on the shared connection are atomic

A commit ends whatever transaction is open, so that an operation commits only
its own rows has to follow from where the open transaction can come from. It
is empty while nobody holds the lock, and while somebody does it holds rows
of that operation only: nobody else can reach a statement. The holder always
ends it, by a commit or a rollback, before it gives the lock back, and where
the rollback raises the link is gone and the server has ended it already.

An operation that raises has not committed, because the commit is its last
step that can raise, and its rows leave the connection with the rollback that
follows.
-/

namespace KepServerLogger.Lib.ProjectDatabase

open KepServerLogger.Py

variable {τ ρ ω : Type*}

/-! ## Rows of one operation -/

theorem rowsOf_append (op : Nat) (l l' : List (Commit ω)) :
    rowsOf op (l ++ l') = rowsOf op l ++ rowsOf op l' := by
  simp [rowsOf]

theorem rowsOf_tag (op : Nat) (rows : List ω) (n : Nat) :
    rowsOf op [⟨n, tag op rows⟩] = rows := by
  induction rows with
  | nil => rfl
  | cons r rs ih => simpa [rowsOf, tag] using ih

theorem rowsOf_eq_nil {op : Nat} {l : List (Commit ω)}
    (h : ∀ k ∈ l, ∀ p ∈ k.entries, p.1 ≠ op) : rowsOf op l = [] := by
  simp only [rowsOf, List.map_eq_nil_iff, List.filter_eq_nil_iff, List.mem_flatMap,
    decide_eq_true_eq]
  rintro p ⟨k, hk, hp⟩
  exact h k hk p hp

theorem fst_of_mem_tag {op : Nat} {rows : List ω} : ∀ p ∈ tag op rows, p.1 = op := by
  simp [tag]

theorem tag_append (op : Nat) (a b : List ω) : tag op (a ++ b) = tag op a ++ tag op b :=
  List.map_append

/-! ## Numbers

Every call has a number of its own, also among the calls that are over. -/

structure Numbered (s : ProjectDatabase τ ρ ω) : Prop where
  below : ∀ th c, s.calls th = some c → c.op < s.next
  distinct : ∀ th th' c c', s.calls th = some c → s.calls th' = some c' →
    c.op = c'.op → th = th'
  past : ∀ f ∈ s.finished, f.op < s.next ∧ ∀ th c, s.calls th = some c → c.op ≠ f.op
  once : (s.finished.map Finished.op).Nodup

variable {plan : ρ → Except Exc (List (List ω))} {s s' : ProjectDatabase τ ρ ω}

section

variable [DecidableEq τ]

theorem calls_update {calls : τ → Option (Call ρ ω)} {th th' : τ} {c' : Option (Call ρ ω)}
    {c : Call ρ ω} (h : Function.update calls th c' th' = some c) :
    (th' = th ∧ c' = some c) ∨ (th' ≠ th ∧ calls th' = some c) := by
  by_cases he : th' = th
  · subst he
    rw [Function.update_self] at h
    exact Or.inl ⟨rfl, h⟩
  · rw [Function.update_of_ne he] at h
    exact Or.inr ⟨he, h⟩

/-- A call that changes its stage keeps its number. -/
theorem Numbered.update (h : Numbered s) {th : τ} {c : Call ρ ω} {stage : Stage ω}
    (hc : s.calls th = some c)
    (hcalls : s'.calls = Function.update s.calls th (some { c with stage }))
    (hnext : s'.next = s.next) (hfinished : s'.finished = s.finished) : Numbered s' := by
  -- Every call of the new state stood under the same number before.
  have hold : ∀ th' d, s'.calls th' = some d → ∃ d', s.calls th' = some d' ∧ d'.op = d.op := by
    intro th' d hd
    rw [hcalls] at hd
    rcases calls_update hd with ⟨rfl, he⟩ | ⟨_, hd⟩
    · cases he
      exact ⟨c, hc, rfl⟩
    · exact ⟨d, hd, rfl⟩
  refine ⟨?_, ?_, ?_, hfinished ▸ h.once⟩
  · intro th' d hd
    obtain ⟨d', hd', he⟩ := hold th' d hd
    rw [hnext, ← he]
    exact h.below th' d' hd'
  · intro t t' d d' hd hd' he
    obtain ⟨e, hte, hed⟩ := hold t d hd
    obtain ⟨e', hte', hed'⟩ := hold t' d' hd'
    exact h.distinct t t' e e' hte hte' (by rw [hed, hed', he])
  · intro f hf
    rw [hfinished] at hf
    obtain ⟨hlt, hne⟩ := h.past f hf
    refine ⟨hnext ▸ hlt, fun th' d hd => ?_⟩
    obtain ⟨d', hd', he⟩ := hold th' d hd
    rw [← he]
    exact hne th' d' hd'

theorem Numbered.call (h : Numbered s) (th : τ) (request : ρ) :
    Numbered { s.setCall th (some ⟨s.next, request, .build⟩) with next := s.next + 1 } := by
  refine ⟨?_, ?_, ?_, h.once⟩
  · intro th' c hc
    rcases calls_update hc with ⟨rfl, hx⟩ | ⟨_, hc⟩
    · cases hx
      exact Nat.lt_succ_self _
    · exact Nat.lt_succ_of_lt (h.below th' c hc)
  · intro t t' d d' hd hd' he
    rcases calls_update hd with ⟨rfl, hx⟩ | ⟨_, hold⟩ <;>
      rcases calls_update hd' with ⟨rfl, hx'⟩ | ⟨_, hold'⟩
    · rfl
    · cases hx
      exact absurd he (Nat.ne_of_gt (h.below t' d' hold'))
    · cases hx'
      exact absurd he (Nat.ne_of_lt (h.below t d hold))
    · exact h.distinct t t' d d' hold hold' he
  · intro f hf
    obtain ⟨hlt, hne⟩ := h.past f hf
    refine ⟨Nat.lt_succ_of_lt hlt, fun th' c hc => ?_⟩
    rcases calls_update hc with ⟨rfl, hx⟩ | ⟨_, hc⟩
    · cases hx
      exact Nat.ne_of_gt hlt
    · exact hne th' c hc

theorem Numbered.finish (h : Numbered s) {th : τ} {c : Call ρ ω} (hc : s.calls th = some c)
    (result : Except Exc Unit) : Numbered (s.finish th c result) := by
  have hold : ∀ th' d, (s.finish th c result).calls th' = some d →
      th' ≠ th ∧ s.calls th' = some d := by
    intro th' d hd
    rcases calls_update hd with ⟨_, hx⟩ | hd
    · cases hx
    · exact hd
  refine ⟨?_, ?_, ?_, ?_⟩
  · intro th' d hd
    exact h.below th' d (hold th' d hd).2
  · intro t t' d d' hd hd' he
    exact h.distinct t t' d d' (hold t d hd).2 (hold t' d' hd').2 he
  · intro f hf
    rcases List.mem_append.mp hf with hf | hf
    · exact ⟨(h.past f hf).1, fun th' d hd => (h.past f hf).2 th' d (hold th' d hd).2⟩
    · rw [List.mem_singleton.mp hf]
      refine ⟨h.below th c hc, fun th' d hd he => ?_⟩
      obtain ⟨hne, hd⟩ := hold th' d hd
      exact hne (h.distinct th' th d c hd hc he)
  · show ((s.finished ++ [Finished.mk c.op c.request result]).map Finished.op).Nodup
    rw [List.map_append, List.nodup_append]
    refine ⟨h.once, List.nodup_singleton _, ?_⟩
    intro n hn m hm
    obtain ⟨f, hf, rfl⟩ := List.mem_map.mp hn
    rw [List.mem_singleton.mp hm]
    exact ((h.past f hf).2 th c hc).symm

end

/-! ## The invariant -/

/-- What the result of an operation says about what it committed. -/
def Settled (plan : ρ → Except Exc (List (List ω))) (committed : List (Commit ω))
    (op : Nat) (request : ρ) : Except Exc Unit → Prop
  | .ok () => ∃ statements, plan request = .ok statements ∧
      rowsOf op committed = statements.flatten
  | .error _ => rowsOf op committed = []

/-- What holds of a call at each of its stages. -/
def StageOk (plan : ρ → Except Exc (List (List ω))) (s : ProjectDatabase τ ρ ω)
    (c : Call ρ ω) : Prop :=
  match c.stage with
  | .build => rowsOf c.op s.committed = []
  | .acquire statements =>
      plan c.request = .ok statements ∧ rowsOf c.op s.committed = []
  | .enter statements =>
      plan c.request = .ok statements ∧ rowsOf c.op s.committed = [] ∧ s.txn = []
  | .execute remaining =>
      rowsOf c.op s.committed = [] ∧ ∃ done, plan c.request = .ok (done ++ remaining) ∧
        (s.usable = true → s.txn = tag c.op done.flatten)
  | .rollback _ => rowsOf c.op s.committed = []
  | .release result => Settled plan s.committed c.op c.request result ∧ s.txn = []

structure Inv (plan : ρ → Except Exc (List (List ω))) (s : ProjectDatabase τ ρ ω) :
    Prop where
  ids : Numbered s
  /-- Without a link the server has ended the transaction. -/
  lost : s.usable = false → s.txn = []
  free : s.lock = none → s.txn = []
  held : ∀ owner n, s.lock = some (owner, n) → n = 1 ∧ ∃ c, s.calls owner = some c ∧
    c.stage.holdsLock = true ∧ ∀ p ∈ s.txn, p.1 = c.op
  holder : ∀ th c, s.calls th = some c → c.stage.holdsLock = true →
    ∃ n, s.lock = some (th, n)
  calls : ∀ th c, s.calls th = some c → StageOk plan s c
  commits : ∀ k ∈ s.committed, k.op < s.next ∧ ∀ p ∈ k.entries, p.1 = k.op
  done : ∀ f ∈ s.finished, Settled plan s.committed f.op f.request f.result

theorem calls_start (th : τ) (c : Call ρ ω) :
    (ProjectDatabase.start : ProjectDatabase τ ρ ω).calls th ≠ some c :=
  fun h => nomatch h

theorem Inv.start : Inv plan (ProjectDatabase.start : ProjectDatabase τ ρ ω) where
  ids :=
    { below := fun th c h => absurd h (calls_start th c)
      distinct := fun th _ c _ h => absurd h (calls_start th c)
      past := fun _ h => absurd h List.not_mem_nil
      once := List.nodup_nil }
  lost _ := rfl
  free _ := rfl
  held _ _ h := nomatch h
  holder th c h := absurd h (calls_start th c)
  calls th c h := absurd h (calls_start th c)
  commits _ h := nomatch h
  done _ h := nomatch h

/-- A call that is not inside the lock sees nothing but its own commits. -/
theorem stageOk_of_not_holdsLock {c : Call ρ ω} (h : StageOk plan s c)
    (hc : c.stage.holdsLock = false)
    (hrows : rowsOf c.op s'.committed = rowsOf c.op s.committed) : StageOk plan s' c := by
  obtain ⟨op, request, stage⟩ := c
  cases stage with
  | build => exact hrows.trans h
  | acquire statements => exact ⟨h.1, hrows.trans h.2⟩
  | enter | execute | rollback | release => cases hc

theorem settled_congr {committed committed' : List (Commit ω)} {op : Nat} {request : ρ}
    {result : Except Exc Unit} (h : Settled plan committed op request result)
    (hrows : rowsOf op committed' = rowsOf op committed) :
    Settled plan committed' op request result := by
  cases result with
  | ok u =>
      obtain ⟨statements, hp, hr⟩ := h
      exact ⟨statements, hp, hrows.trans hr⟩
  | error e => exact hrows.trans h

/-- Nobody else is inside the lock. -/
theorem Inv.alone (h : Inv plan s) {th th' : τ} {c c' : Call ρ ω} (hc : s.calls th = some c)
    (hin : c.stage.holdsLock = true) (hc' : s.calls th' = some c') (hne : th' ≠ th) :
    c'.stage.holdsLock = false := by
  cases hin' : c'.stage.holdsLock with
  | false => rfl
  | true =>
      obtain ⟨n, hn⟩ := h.holder th c hc hin
      obtain ⟨n', hn'⟩ := h.holder th' c' hc' hin'
      rw [hn] at hn'
      cases hn'
      exact absurd rfl hne

/-- The transaction belongs to the call inside the lock. -/
theorem Inv.own (h : Inv plan s) {th : τ} {c : Call ρ ω} (hc : s.calls th = some c)
    (hin : c.stage.holdsLock = true) : ∀ p ∈ s.txn, p.1 = c.op := by
  obtain ⟨n, hn⟩ := h.holder th c hc hin
  obtain ⟨_, c', hc', _, hp⟩ := h.held th n hn
  rw [hc] at hc'
  cases hc'
  exact hp

theorem Inv.rowsOf_next (h : Inv plan s) : rowsOf s.next s.committed = [] := by
  refine rowsOf_eq_nil fun k hk p hp => ?_
  obtain ⟨hlt, hent⟩ := h.commits k hk
  rw [hent p hp]
  exact Nat.ne_of_lt hlt

/-! ## What each kind of step preserves -/

/-- Losing the link loses the open transaction and nothing else. -/
theorem Inv.broken (h : Inv plan s) (attached : Bool) :
    Inv plan { s with attached, usable := false, txn := [] } := by
  refine ⟨⟨h.ids.below, h.ids.distinct, h.ids.past, h.ids.once⟩, fun _ => rfl, fun _ => rfl, ?_, h.holder,
    ?_, h.commits, h.done⟩
  · intro owner n hn
    obtain ⟨hone, c, hc, hin, _⟩ := h.held owner n hn
    exact ⟨hone, c, hc, hin, nofun⟩
  · intro th c hc
    have hok := h.calls th c hc
    obtain ⟨op, request, stage⟩ := c
    cases stage with
    | build | acquire | rollback => exact hok
    | enter => exact ⟨hok.1, hok.2.1, rfl⟩
    | execute remaining =>
        obtain ⟨hrows, done, hplan, _⟩ := hok
        exact ⟨hrows, done, hplan, nofun⟩
    | release => exact ⟨hok.1, rfl⟩

section

variable [DecidableEq τ]

/-- A step of the thread inside the lock that stays inside it: it changes its
own stage and the transaction, and may commit the transaction as its own. -/
theorem Inv.inside (h : Inv plan s) {th : τ} {c : Call ρ ω} {stage : Stage ω}
    (hc : s.calls th = some c) (hin : c.stage.holdsLock = true)
    (hin' : stage.holdsLock = true)
    (hcalls : s'.calls = Function.update s.calls th (some { c with stage }))
    (hlock : s'.lock = s.lock) (hnext : s'.next = s.next)
    (hfinished : s'.finished = s.finished)
    (htxn : ∀ p ∈ s'.txn, p.1 = c.op) (hlost : s'.usable = false → s'.txn = [])
    (hcommitted : s'.committed = s.committed ∨
      s'.committed = s.committed ++ [⟨c.op, s.txn⟩])
    (hstage : StageOk plan s' { c with stage }) : Inv plan s' := by
  obtain ⟨n, hn⟩ := h.holder th c hc hin
  have hrows : ∀ op, op ≠ c.op → rowsOf op s'.committed = rowsOf op s.committed := by
    intro op hop
    rcases hcommitted with he | he
    · rw [he]
    · rw [he, rowsOf_append, rowsOf_eq_nil (l := [_]), List.append_nil]
      intro k hk p hp
      rw [List.mem_singleton.mp hk] at hp
      rw [h.own hc hin p hp]
      exact hop.symm
  refine ⟨h.ids.update hc hcalls hnext hfinished, hlost, ?_, ?_, ?_, ?_, ?_, ?_⟩
  · intro hfree
    rw [hlock, hn] at hfree
    cases hfree
  · intro owner m hm
    rw [hlock] at hm
    obtain ⟨hone, _⟩ := h.held owner m hm
    rw [hn] at hm
    cases hm
    exact ⟨hone, { c with stage }, by rw [hcalls, Function.update_self], hin', htxn⟩
  · intro th' d hd hdin
    rw [hcalls] at hd
    rw [hlock]
    rcases calls_update hd with ⟨rfl, _⟩ | ⟨_, hd'⟩
    · exact ⟨n, hn⟩
    · exact h.holder th' d hd' hdin
  · intro th' d hd
    rw [hcalls] at hd
    rcases calls_update hd with ⟨rfl, he⟩ | ⟨hne, hd'⟩
    · cases he
      exact hstage
    · refine stageOk_of_not_holdsLock (h.calls th' d hd') (h.alone hc hin hd' hne)
        (hrows _ fun he => hne ?_)
      exact h.ids.distinct th' th d c hd' hc he
  · rw [hnext]
    intro k hk
    rcases hcommitted with he | he
    · rw [he] at hk
      exact h.commits k hk
    · rw [he, List.mem_append, List.mem_singleton] at hk
      rcases hk with hk | rfl
      · exact h.commits k hk
      · exact ⟨h.ids.below th c hc, h.own hc hin⟩
  · rw [hfinished]
    intro f hf
    exact settled_congr (h.done f hf) (hrows _ ((h.ids.past f hf).2 th c hc).symm)

/-- While a thread outside the lock moves on, the lock is held as before. -/
theorem Inv.held_update (h : Inv plan s) {th : τ} {c' : Option (Call ρ ω)}
    (hout : ∀ c, s.calls th = some c → c.stage.holdsLock = false) {owner : τ} {n : Nat}
    (hn : s.lock = some (owner, n)) :
    n = 1 ∧ ∃ c, Function.update s.calls th c' owner = some c ∧ c.stage.holdsLock = true ∧
      ∀ p ∈ s.txn, p.1 = c.op := by
  obtain ⟨hone, c, hc, hin, hp⟩ := h.held owner n hn
  refine ⟨hone, c, ?_, hin, hp⟩
  rw [Function.update_of_ne, hc]
  rintro rfl
  rw [hout c hc] at hin
  cases hin

/-- A thread that does not get into the lock leaves it to its holder. -/
theorem Inv.holder_update (h : Inv plan s) {th : τ} {c' : Option (Call ρ ω)}
    (hout : ∀ c, c' = some c → c.stage.holdsLock = false) {th' : τ} {c : Call ρ ω}
    (hc : Function.update s.calls th c' th' = some c) (hin : c.stage.holdsLock = true) :
    ∃ n, s.lock = some (th', n) := by
  rcases calls_update hc with ⟨rfl, hnew⟩ | ⟨_, hold⟩
  · rw [hout c hnew] at hin
    cases hin
  · exact h.holder th' c hold hin

/-- No call is changed but the one of the thread. -/
theorem Inv.calls_update_of (h : Inv plan s) {th : τ} {c' : Option (Call ρ ω)}
    (hnew : ∀ c, c' = some c → StageOk plan s c) {th' : τ} {c : Call ρ ω}
    (hc : Function.update s.calls th c' th' = some c) : StageOk plan s c := by
  rcases calls_update hc with ⟨_, he⟩ | ⟨_, hold⟩
  · exact hnew c he
  · exact h.calls th' c hold

/-- A new call starts outside the lock, under a number nobody has used. -/
theorem Inv.call (h : Inv plan s) {th : τ} (request : ρ) (hidle : s.calls th = none) :
    Inv plan { s.setCall th (some ⟨s.next, request, .build⟩) with next := s.next + 1 } := by
  have hout : ∀ c, s.calls th = some c → c.stage.holdsLock = false := by
    intro c hc
    rw [hidle] at hc
    cases hc
  refine ⟨h.ids.call th request, h.lost, h.free, fun _ _ => h.held_update hout, ?_, ?_, ?_, h.done⟩
  · intro th' c hc
    refine h.holder_update ?_ hc
    rintro _ ⟨⟩
    rfl
  · intro th' c hc
    refine h.calls_update_of ?_ hc
    rintro _ ⟨⟩
    exact h.rowsOf_next
  · intro k hk
    exact ⟨Nat.lt_succ_of_lt (h.commits k hk).1, (h.commits k hk).2⟩

/-- The statements are built: the call goes on to the lock. -/
theorem Inv.built (h : Inv plan s) {th : τ} {op : Nat} {request : ρ}
    {statements : List (List ω)} (hc : s.calls th = some ⟨op, request, .build⟩)
    (hplan : plan request = .ok statements) :
    Inv plan (s.goTo th ⟨op, request, .build⟩ (.acquire statements)) := by
  have hout : ∀ d, s.calls th = some d → d.stage.holdsLock = false := by
    intro d hd
    rw [hc] at hd
    cases hd
    rfl
  refine ⟨h.ids.update hc rfl rfl rfl, h.lost, h.free, fun _ _ => h.held_update hout, ?_, ?_,
    h.commits, h.done⟩
  · intro th' d hd
    refine h.holder_update ?_ hd
    rintro _ ⟨⟩
    rfl
  · intro th' d hd
    refine h.calls_update_of ?_ hd
    rintro _ ⟨⟩
    exact ⟨hplan, h.calls th _ hc⟩

/-- The free lock is taken, with no transaction open. -/
theorem Inv.acquired (h : Inv plan s) {th : τ} {op : Nat} {request : ρ}
    {statements : List (List ω)} {lock : τ × Nat}
    (hc : s.calls th = some ⟨op, request, .acquire statements⟩)
    (hlock : lockAcquire th s.lock = some lock) :
    Inv plan { s.goTo th ⟨op, request, .acquire statements⟩ (.enter statements) with
      lock := some lock } := by
  -- A thread in front of the lock does not hold it already.
  have hfree : s.lock = none := by
    cases hs : s.lock with
    | none => rfl
    | some l =>
        obtain ⟨owner, n⟩ := l
        obtain ⟨_, d, hd, hin, _⟩ := h.held owner n hs
        rw [hs] at hlock
        simp only [lockAcquire] at hlock
        split at hlock
        · next he =>
            rw [he, hc] at hd
            cases hd
            cases hin
        · cases hlock
  rw [hfree] at hlock
  cases hlock
  have hout : ∀ th' d, s.calls th' = some d → d.stage.holdsLock = false := by
    intro th' d hd
    cases hin : d.stage.holdsLock with
    | false => rfl
    | true =>
        obtain ⟨n, hn⟩ := h.holder th' d hd hin
        rw [hfree] at hn
        cases hn
  refine ⟨h.ids.update hc rfl rfl rfl, h.lost, ?_, ?_, ?_, ?_, h.commits, h.done⟩
  · intro hnone
    cases hnone
  · intro owner n hn
    cases hn
    refine ⟨rfl, ⟨op, request, .enter statements⟩, ?_, rfl, ?_⟩
    · show Function.update s.calls th _ th = _
      rw [Function.update_self]
    · show ∀ p ∈ s.txn, _
      rw [h.free hfree]
      exact fun p hp => nomatch hp
  · intro th' d hd hin
    rcases calls_update hd with ⟨rfl, hx⟩ | ⟨_, hd⟩
    · exact ⟨1, rfl⟩
    · rw [hout th' d hd] at hin
      cases hin
  · intro th' d hd
    rcases calls_update hd with ⟨rfl, hx⟩ | ⟨_, hd⟩
    · cases hx
      obtain ⟨hplan, hrows⟩ := h.calls th' _ hc
      exact ⟨hplan, hrows, h.free hfree⟩
    · exact stageOk_of_not_holdsLock (h.calls th' d hd) (hout th' d hd) rfl

/-- A call that ends before the lock. -/
theorem Inv.finishedEarly (h : Inv plan s) {th : τ} {op : Nat} {request : ρ}
    {result : Except Exc Unit} (hc : s.calls th = some ⟨op, request, .build⟩)
    (hset : Settled plan s.committed op request result) :
    Inv plan (s.finish th ⟨op, request, .build⟩ result) := by
  have hout : ∀ d, s.calls th = some d → d.stage.holdsLock = false := by
    intro d hd
    rw [hc] at hd
    cases hd
    rfl
  refine ⟨h.ids.finish hc result, h.lost, h.free, fun _ _ => h.held_update hout, ?_, ?_, h.commits,
    ?_⟩
  · intro th' d hd
    refine h.holder_update ?_ hd
    rintro _ ⟨⟩
  · intro th' d hd
    refine h.calls_update_of ?_ hd
    rintro _ ⟨⟩
  · intro f hf
    rcases List.mem_append.mp hf with hf | hf
    · exact h.done f hf
    · rw [List.mem_singleton.mp hf]
      exact hset

/-- The holder gives the lock back, and the transaction is over. -/
theorem Inv.released (h : Inv plan s) {th : τ} {op : Nat} {request : ρ}
    {result : Except Exc Unit} (hc : s.calls th = some ⟨op, request, .release result⟩) :
    Inv plan { s.finish th ⟨op, request, .release result⟩ result with
      lock := lockRelease s.lock } := by
  obtain ⟨hset, htxn⟩ := h.calls th _ hc
  obtain ⟨n, hn⟩ := h.holder th _ hc rfl
  obtain ⟨rfl, _⟩ := h.held th n hn
  have hfree : lockRelease s.lock = none := by
    rw [hn]
    rfl
  have hids := h.ids.finish hc result
  refine ⟨⟨hids.below, hids.distinct, hids.past, hids.once⟩, h.lost, fun _ => htxn, ?_, ?_, ?_,
    h.commits, ?_⟩
  · intro owner m hm
    rw [hfree] at hm
    cases hm
  · intro th' d hd hin
    rcases calls_update hd with ⟨_, hx⟩ | ⟨hne, hd⟩
    · cases hx
    · rw [h.alone hc rfl hd hne] at hin
      cases hin
  · intro th' d hd
    rcases calls_update hd with ⟨_, hx⟩ | ⟨_, hd⟩
    · cases hx
    · exact h.calls th' d hd
  · intro f hf
    rcases List.mem_append.mp hf with hf | hf
    · exact h.done f hf
    · rw [List.mem_singleton.mp hf]
      exact hset

/-! ## One step -/

theorem Inv.runStatement (h : Inv plan s) {th : τ} {op : Nat} {request : ρ}
    {statement : List ω} {remaining : List (List ω)} (failure : Option (Nat × Exc))
    (hc : s.calls th = some ⟨op, request, .execute (statement :: remaining)⟩) :
    Inv plan (s.runStatement th ⟨op, request, .execute (statement :: remaining)⟩ statement
      remaining failure) := by
  have hown := h.own hc rfl
  obtain ⟨hrows, done, hplan, htxn⟩ := h.calls th _ hc
  have htag : ∀ rows : List ω, ∀ p ∈ s.txn ++ tag op rows, p.1 = op := by
    intro rows p hp
    rcases List.mem_append.mp hp with hp | hp
    · exact hown p hp
    · exact fst_of_mem_tag p hp
  unfold ProjectDatabase.runStatement
  by_cases ha : s.attached = true
  · by_cases hu : s.usable = true
    · simp only [ha, hu, Bool.not_true, Bool.false_eq_true, if_false]
      split
      · refine h.inside hc rfl rfl rfl rfl rfl rfl (htag statement)
          (fun hn => nomatch hn.symm.trans hu) (Or.inl rfl) ⟨hrows, done ++ [statement], ?_, ?_⟩
        · rw [hplan, List.append_assoc]
          rfl
        · intro _
          show s.txn ++ tag op statement = tag op (done ++ [statement]).flatten
          rw [htxn hu, ← tag_append, List.flatten_append, List.flatten_singleton]
      · next n e =>
          exact h.inside hc rfl rfl rfl rfl rfl rfl (htag (statement.take n))
            (fun hn => nomatch hn.symm.trans hu) (Or.inl rfl) hrows
    · simp only [ha, hu, Bool.not_true, Bool.not_false, Bool.false_eq_true, if_false, if_true]
      exact h.inside hc rfl rfl rfl rfl rfl rfl hown h.lost (Or.inl rfl) hrows
  · simp only [ha, Bool.not_false, if_true]
    exact h.inside hc rfl rfl rfl rfl rfl rfl hown h.lost (Or.inl rfl) hrows

theorem Inv.runCommit (h : Inv plan s) {th : τ} {op : Nat} {request : ρ}
    (failure : Option Exc) (hc : s.calls th = some ⟨op, request, .execute []⟩) :
    Inv plan (s.runCommit th ⟨op, request, .execute []⟩ failure) := by
  have hown := h.own hc rfl
  obtain ⟨hrows, done, hplan, htxn⟩ := h.calls th _ hc
  unfold ProjectDatabase.runCommit
  by_cases hu : s.usable = true
  · simp only [hu, Bool.not_true, Bool.false_eq_true, if_false]
    split
    · refine h.inside hc rfl rfl rfl rfl rfl rfl nofun (fun _ => rfl) (Or.inr rfl)
        ⟨⟨done, ?_, ?_⟩, rfl⟩
      · rw [hplan, List.append_nil]
      · show rowsOf op (s.committed ++ [⟨op, s.txn⟩]) = done.flatten
        rw [rowsOf_append, hrows, htxn hu]
        exact rowsOf_tag op done.flatten op
    · exact h.inside hc rfl rfl rfl rfl rfl rfl hown h.lost (Or.inl rfl) hrows
  · simp only [hu, Bool.not_false, if_true]
    exact h.inside hc rfl rfl rfl rfl rfl rfl hown h.lost (Or.inl rfl) hrows

theorem Inv.runRollback (h : Inv plan s) {th : τ} {op : Nat} {request : ρ} {e : Exc}
    (hc : s.calls th = some ⟨op, request, .rollback e⟩) :
    Inv plan (s.runRollback th ⟨op, request, .rollback e⟩ e) := by
  have hrows := h.calls th _ hc
  unfold ProjectDatabase.runRollback
  split
  · exact h.inside hc rfl rfl rfl rfl rfl rfl nofun (fun _ => rfl) (Or.inl rfl) ⟨hrows, rfl⟩
  · next hu =>
      have htxn := h.lost (Bool.eq_false_iff.mpr hu)
      exact h.inside hc rfl rfl rfl rfl rfl rfl (h.own hc rfl) h.lost (Or.inl rfl) ⟨hrows, htxn⟩

/-- What each event asks of the state, and what it changes. -/
inductive Stepped (plan : ρ → Except Exc (List (List ω))) (s : ProjectDatabase τ ρ ω) :
    Event τ ρ → ProjectDatabase τ ρ ω → Prop where
  | call {th : τ} (request : ρ) (hidle : s.calls th = none) :
      Stepped plan s (.call th request)
        { s.setCall th (some ⟨s.next, request, .build⟩) with next := s.next + 1 }
  | buildRaises {th : τ} {op : Nat} {request : ρ} {e : Exc}
      (hc : s.calls th = some ⟨op, request, .build⟩) (hplan : plan request = .error e) :
      Stepped plan s (.build th) (s.finish th ⟨op, request, .build⟩ (.error e))
  | builtNothing {th : τ} {op : Nat} {request : ρ}
      (hc : s.calls th = some ⟨op, request, .build⟩) (hplan : plan request = .ok []) :
      Stepped plan s (.build th) (s.finish th ⟨op, request, .build⟩ (.ok ()))
  | built {th : τ} {op : Nat} {request : ρ} {statements : List (List ω)}
      (hc : s.calls th = some ⟨op, request, .build⟩) (hplan : plan request = .ok statements)
      (hne : statements ≠ []) :
      Stepped plan s (.build th) (s.goTo th ⟨op, request, .build⟩ (.acquire statements))
  | acquired {th : τ} {op : Nat} {request : ρ} {statements : List (List ω)}
      {lock : τ × Nat} (hc : s.calls th = some ⟨op, request, .acquire statements⟩)
      (hlock : lockAcquire th s.lock = some lock) :
      Stepped plan s (.acquire th)
        { s.goTo th ⟨op, request, .acquire statements⟩ (.enter statements) with
          lock := some lock }
  | entered {th : τ} {op : Nat} {request : ρ} {statements : List (List ω)}
      (hc : s.calls th = some ⟨op, request, .enter statements⟩) (hattached : s.attached = true) :
      Stepped plan s (.enter th)
        (s.goTo th ⟨op, request, .enter statements⟩ (.execute statements))
  | notConnected {th : τ} {op : Nat} {request : ρ} {statements : List (List ω)}
      (hc : s.calls th = some ⟨op, request, .enter statements⟩) (hattached : s.attached = false) :
      Stepped plan s (.enter th)
        (s.goTo th ⟨op, request, .enter statements⟩
          (.release (.error ProjectDatabase.notConnected)))
  | execute {th : τ} {op : Nat} {request : ρ} {statement : List ω} {remaining : List (List ω)}
      (failure : Option (Nat × Exc))
      (hc : s.calls th = some ⟨op, request, .execute (statement :: remaining)⟩) :
      Stepped plan s (.execute th failure)
        (s.runStatement th ⟨op, request, .execute (statement :: remaining)⟩ statement remaining
          failure)
  | commit {th : τ} {op : Nat} {request : ρ} (failure : Option Exc)
      (hc : s.calls th = some ⟨op, request, .execute []⟩) :
      Stepped plan s (.commit th failure) (s.runCommit th ⟨op, request, .execute []⟩ failure)
  | rollback {th : τ} {op : Nat} {request : ρ} {e : Exc}
      (hc : s.calls th = some ⟨op, request, .rollback e⟩) :
      Stepped plan s (.rollback th) (s.runRollback th ⟨op, request, .rollback e⟩ e)
  | release {th : τ} {op : Nat} {request : ρ} {result : Except Exc Unit}
      (hc : s.calls th = some ⟨op, request, .release result⟩) :
      Stepped plan s (.release th)
        { s.finish th ⟨op, request, .release result⟩ result with lock := lockRelease s.lock }
  | linkBreaks : Stepped plan s .linkBreaks { s with usable := false, txn := [] }
  | close : Stepped plan s .close { s with attached := false, usable := false, txn := [] }

theorem step_cases {e : Event τ ρ} (hs : step plan s e = some s') : Stepped plan s e s' := by
  cases e with
  | call th request =>
      simp only [step] at hs
      split at hs <;> cases hs
      next hidle => exact .call request hidle
  | build th =>
      simp only [step] at hs
      split at hs
      · next hc =>
          split at hs <;> cases hs
          · next hplan => exact .buildRaises hc hplan
          · next hplan => exact .builtNothing hc hplan
          · next hne hplan => exact .built hc hplan hne
      · cases hs
  | acquire th =>
      simp only [step] at hs
      split at hs
      · next hc =>
          split at hs <;> cases hs
          next hlock => exact .acquired hc hlock
      · cases hs
  | enter th =>
      simp only [step] at hs
      split at hs <;> cases hs
      next hc =>
        cases hattached : s.attached with
        | true => exact .entered hc hattached
        | false => exact .notConnected hc hattached
  | execute th failure =>
      simp only [step] at hs
      split at hs <;> cases hs
      next hc => exact .execute failure hc
  | commit th failure =>
      simp only [step] at hs
      split at hs <;> cases hs
      next hc => exact .commit failure hc
  | rollback th =>
      simp only [step] at hs
      split at hs <;> cases hs
      next hc => exact .rollback hc
  | release th =>
      simp only [step] at hs
      split at hs <;> cases hs
      next hc => exact .release hc
  | linkBreaks =>
      cases hs
      exact .linkBreaks
  | close =>
      cases hs
      exact .close

theorem Inv.step (h : Inv plan s) {e : Event τ ρ} (hs : step plan s e = some s') :
    Inv plan s' := by
  cases step_cases hs with
  | call request hidle => exact h.call request hidle
  | buildRaises hc hplan =>
      have hrows := h.calls _ _ hc
      exact h.finishedEarly hc hrows
  | builtNothing hc hplan =>
      have hrows := h.calls _ _ hc
      exact h.finishedEarly hc ⟨[], hplan, hrows⟩
  | built hc hplan hne => exact h.built hc hplan
  | acquired hc hlock => exact h.acquired hc hlock
  | entered hc hattached =>
      obtain ⟨hplan, hrows, htxn⟩ := h.calls _ _ hc
      exact h.inside hc rfl rfl rfl rfl rfl rfl (h.own hc rfl) h.lost (Or.inl rfl)
        ⟨hrows, [], hplan, fun _ => htxn⟩
  | notConnected hc hattached =>
      obtain ⟨hplan, hrows, htxn⟩ := h.calls _ _ hc
      exact h.inside hc rfl rfl rfl rfl rfl rfl (h.own hc rfl) h.lost (Or.inl rfl)
        ⟨hrows, htxn⟩
  | execute failure hc => exact h.runStatement failure hc
  | commit failure hc => exact h.runCommit failure hc
  | rollback hc => exact h.runRollback hc
  | release hc => exact h.released hc
  | linkBreaks => exact h.broken s.attached
  | close => exact h.broken false

theorem Run.inv {tr : List (ProjectDatabase τ ρ ω × Event τ ρ)}
    (h : Run (step plan) ProjectDatabase.start tr s) : Inv plan s :=
  h.invariant Inv.start fun _ _ _ hi hs => hi.step hs

/-- The thread that ends the transaction with this event. -/
def Event.ender : Event τ ρ → Option τ
  | .commit th _ => some th
  | .rollback th => some th
  | _ => none

/-- Whoever ends a transaction is inside the lock. -/
theorem holdsLock_of_ender {e : Event τ ρ} {th : τ} (hs : step plan s e = some s')
    (he : e.ender = some th) : ∃ c, s.calls th = some c ∧ c.stage.holdsLock = true := by
  cases step_cases hs with
  | commit failure hc | rollback hc =>
      cases he
      exact ⟨_, hc, rfl⟩
  | call | buildRaises | builtNothing | built | acquired | entered | notConnected | execute
  | release | linkBreaks | close => cases he

end

end KepServerLogger.Lib.ProjectDatabase

namespace KepServerLogger.Ingestor

open KepServerLogger.Py KepServerLogger.Lib KepServerLogger.Lib.ProjectDatabase

/-! ## The operations of the ingestor -/

theorem statements_of_plan {request : Request} {rows : List (List Write)}
    (h : request.plan = .ok rows) :
    ∃ statements, request.statements = .ok statements ∧
      rows.flatten = statements.flatMap Statement.writes := by
  unfold Request.plan at h
  cases hs : request.statements with
  | error e => rw [hs] at h; cases h
  | ok statements =>
      rw [hs] at h
      cases h
      exact ⟨statements, rfl, List.flatMap_def.symm⟩

/-- However the threads interleave and whatever fails: an operation that
returned has committed its own rows, all of them and no others, one that
raised has committed none, and whoever commits or rolls back does so with a
transaction that holds rows of its own operation only. -/
theorem operations_atomic {τ : Type*} [DecidableEq τ] {s : ProjectDatabase τ Request Write}
    {tr : List (ProjectDatabase τ Request Write × Event τ Request)}
    (h : Run (step Request.plan) ProjectDatabase.start tr s) :
    (s.finished.map Finished.op).Nodup ∧
    (∀ f ∈ s.finished, f.result = .ok () →
      ∃ statements, f.request.statements = .ok statements ∧
        rowsOf f.op s.committed = statements.flatMap Statement.writes) ∧
    (∀ f ∈ s.finished, ∀ e, f.result = .error e → rowsOf f.op s.committed = []) ∧
    (∀ p ∈ tr, ∀ th, p.2.ender = some th →
      ∃ c, p.1.calls th = some c ∧ ∀ entry ∈ p.1.txn, entry.1 = c.op) := by
  have hi := Run.inv h
  refine ⟨hi.ids.once, ?_, ?_, ?_⟩
  · intro f hf hok
    have hset := hi.done f hf
    rw [hok] at hset
    obtain ⟨rows, hplan, hrows⟩ := hset
    obtain ⟨statements, hst, hflat⟩ := statements_of_plan hplan
    exact ⟨statements, hst, hrows.trans hflat⟩
  · intro f hf e herr
    have hset := hi.done f hf
    rw [herr] at hset
    exact hset
  · intro p hp th he
    obtain ⟨pre, t', _, hpre, hs⟩ := h.of_mem hp
    obtain ⟨c, hc, hin⟩ := holdsLock_of_ender hs he
    exact ⟨c, hc, (Run.inv hpre).own hc hin⟩

/-- The writer thread (`true`) and the event loop: `insert_many` waits for
`log_status`, loses its second row to the server and rolls back, and a second
`insert_many` lacks a column. -/
def someOperations : List (Event Bool Request) :=
  let row : Row := ⟨[("timestamp", .str "t"), ("usage", .str "u")], by decide⟩
  let short : Row := ⟨[("timestamp", .str "t")], by decide⟩
  [.call true (.insertMany ⟨[("cpu_usage", [row, row])], by decide⟩), .build true,
    .call false (.logStatus "inactive" .none (some "shutdown") none ⟨⟨2026, 1, 1, 0, 0, 0, 0,
      by decide⟩, some .utc⟩),
    .build false, .acquire false, .enter false, .execute false none, .commit false none,
    .release false, .acquire true, .enter true, .execute true (some (1, connectionLost)),
    .rollback true, .release true,
    .call true (.insertMany ⟨[("cpu_usage", [row, short])], by decide⟩), .build true]

theorem execute_someOperations :
    (execute (step Request.plan) ProjectDatabase.start someOperations).isSome = true := by
  decide

theorem operations_atomic_someOperations :
    let s := (executed (step Request.plan) ProjectDatabase.start someOperations
      execute_someOperations).2
    s.finished.map (fun f => f.result.toBool) = [true, false, false] ∧
    ∀ f ∈ s.finished, ∀ e, f.result = .error e → rowsOf f.op s.committed = [] :=
  ⟨by decide, (operations_atomic (Run.executed execute_someOperations)).2.2.1⟩

end KepServerLogger.Ingestor
