import Mathlib.Data.List.Basic

/-!
# Computations that may raise

A computation that returned went through each of its parts, and each of them
returned. Read forwards this evaluates a loop whose every turn returns; read
backwards it names what the turns returned. One that raised went through its
parts up to the one that did.
-/

namespace KepServerLogger

universe u v

variable {ε : Type u} {α β : Type v}

theorem ok_of_bind {x : Except ε α} {f : α → Except ε β} {r : β} (h : (x >>= f) = .ok r) :
    ∃ a, x = .ok a ∧ f a = .ok r := by
  cases x with
  | error e => cases h
  | ok a => exact ⟨a, rfl, h⟩

theorem error_of_bind {x : Except ε α} {f : α → Except ε β} {e : ε} (h : (x >>= f) = .error e) :
    x = .error e ∨ ∃ a, x = .ok a ∧ f a = .error e := by
  cases x with
  | error e' =>
      cases h
      exact .inl rfl
  | ok a => exact .inr ⟨a, rfl, h⟩

/-- What the computation raises, if anything, is of this kind. -/
def OnlyRaises (P : ε → Prop) (x : Except ε α) : Prop := ∀ e, x = .error e → P e

theorem OnlyRaises.ok {P : ε → Prop} (a : α) : OnlyRaises P (.ok a : Except ε α) :=
  fun _ h => nomatch h

theorem OnlyRaises.bind {P : ε → Prop} {x : Except ε α} {f : α → Except ε β}
    (hx : OnlyRaises P x) (hf : ∀ a, OnlyRaises P (f a)) : OnlyRaises P (x >>= f) := by
  intro e h
  rcases error_of_bind h with h | ⟨a, -, h⟩
  · exact hx e h
  · exact hf a e h

theorem mapM_ok {f : α → Except ε β} {g : α → β} {l : List α} (h : ∀ a ∈ l, f a = .ok (g a)) :
    l.mapM f = .ok (l.map g) := by
  induction l with
  | nil => rfl
  | cons a l ih =>
      have hrest := ih fun b hb => h b (List.mem_cons_of_mem _ hb)
      rw [List.mapM_cons, h a List.mem_cons_self, hrest]
      rfl

theorem forM_ok {f : α → Except ε Unit} {l : List α} (h : ∀ a ∈ l, f a = .ok ()) :
    l.forM f = .ok () := by
  induction l with
  | nil => rfl
  | cons a l ih =>
      show (f a >>= fun _ => l.forM f) = .ok ()
      rw [h a List.mem_cons_self]
      exact ih fun b hb => h b (List.mem_cons_of_mem _ hb)

theorem mem_of_mapM_ok {f : α → Except ε β} {l : List α} {r : List β} (h : l.mapM f = .ok r) :
    ∀ b ∈ r, ∃ a ∈ l, f a = .ok b := by
  induction l generalizing r with
  | nil =>
      cases h
      exact fun _ hb => absurd hb List.not_mem_nil
  | cons a l ih =>
      rw [List.mapM_cons] at h
      obtain ⟨b, hb, h⟩ := ok_of_bind h
      obtain ⟨bs, hbs, h⟩ := ok_of_bind h
      cases h
      intro c hc
      rcases List.mem_cons.mp hc with rfl | hc
      · exact ⟨a, List.mem_cons_self, hb⟩
      · obtain ⟨a', ha', hf⟩ := ih hbs c hc
        exact ⟨a', List.mem_cons_of_mem _ ha', hf⟩

theorem ok_of_mapM_ok {f : α → Except ε β} {l : List α} {r : List β} (h : l.mapM f = .ok r) :
    ∀ a ∈ l, ∃ b, f a = .ok b := by
  induction l generalizing r with
  | nil => exact fun _ ha => absurd ha List.not_mem_nil
  | cons a l ih =>
      rw [List.mapM_cons] at h
      obtain ⟨b, hb, h⟩ := ok_of_bind h
      obtain ⟨bs, hbs, _⟩ := ok_of_bind h
      intro c hc
      rcases List.mem_cons.mp hc with rfl | hc
      · exact ⟨b, hb⟩
      · exact ih hbs c hc

/-- What the turns of a loop returned, in their order. -/
theorem forall₂_of_mapM_ok {f : α → Except ε β} {l : List α} {r : List β}
    (h : l.mapM f = .ok r) : List.Forall₂ (fun a b => f a = .ok b) l r := by
  induction l generalizing r with
  | nil =>
      cases h
      exact .nil
  | cons a l ih =>
      rw [List.mapM_cons] at h
      obtain ⟨b, hb, h⟩ := ok_of_bind h
      obtain ⟨bs, hbs, h⟩ := ok_of_bind h
      cases h
      exact .cons hb (ih hbs)

/-- The turn that raised, after turns that returned. -/
theorem first_of_mapM_error {f : α → Except ε β} {l : List α} {e : ε}
    (h : l.mapM f = .error e) :
    ∃ before a after, l = before ++ a :: after ∧ (∀ x ∈ before, ∃ b, f x = .ok b) ∧
      f a = .error e := by
  induction l with
  | nil => cases h
  | cons a l ih =>
      rw [List.mapM_cons] at h
      rcases error_of_bind h with h | ⟨b, hb, h⟩
      · exact ⟨[], a, l, rfl, fun x hx => absurd hx List.not_mem_nil, h⟩
      · rcases error_of_bind h with h | ⟨bs, -, h⟩
        · obtain ⟨before, x, after, rfl, hbefore, hx⟩ := ih h
          refine ⟨a :: before, x, after, rfl, fun y hy => ?_, hx⟩
          rcases List.mem_cons.mp hy with rfl | hy
          · exact ⟨b, hb⟩
          · exact hbefore y hy
        · cases h

/-- A loop returns if each of its turns does. -/
theorem mapM_returns_iff {f : α → Except ε β} {l : List α} :
    (∃ r, l.mapM f = .ok r) ↔ ∀ a ∈ l, ∃ b, f a = .ok b := by
  constructor
  · rintro ⟨r, hr⟩
    exact ok_of_mapM_ok hr
  · intro h
    cases hl : l.mapM f with
    | ok r => exact ⟨r, rfl⟩
    | error e =>
        obtain ⟨before, a, after, rfl, -, ha⟩ := first_of_mapM_error hl
        obtain ⟨b, hb⟩ := h a (by simp)
        rw [hb] at ha
        cases ha

theorem forM_ok_iff {f : α → Except ε Unit} {l : List α} :
    l.forM f = .ok () ↔ ∀ a ∈ l, f a = .ok () := by
  refine ⟨fun h => ?_, forM_ok⟩
  induction l with
  | nil => exact List.forall_mem_nil _
  | cons a l ih =>
      obtain ⟨_, ha, hl⟩ := ok_of_bind (show (f a >>= fun _ => l.forM f) = .ok () from h)
      exact List.forall_mem_cons.mpr ⟨ha, ih hl⟩

/-- The turns that a loop comes to: all up to one that raises, and that one. -/
def reached (f : α → Except ε β) : List α → List α
  | [] => []
  | a :: l =>
      match f a with
      | .ok _ => a :: reached f l
      | .error _ => [a]

theorem mem_reached_iff {f : α → Except ε β} {l : List α} {a : α} :
    a ∈ reached f l ↔
      ∃ before after, l = before ++ a :: after ∧ ∀ x ∈ before, ∃ b, f x = .ok b := by
  induction l with
  | nil => simp [reached]
  | cons x l ih =>
      constructor
      · intro h
        have hcases : a = x ∨ (∃ b, f x = .ok b) ∧ a ∈ reached f l := by
          rw [reached] at h
          split at h
          · next b hb => exact (List.mem_cons.mp h).imp_right fun h => ⟨⟨b, hb⟩, h⟩
          · exact .inl (List.mem_singleton.mp h)
        rcases hcases with rfl | ⟨hx, h⟩
        · exact ⟨[], l, rfl, List.forall_mem_nil _⟩
        · obtain ⟨before, after, rfl, hbefore⟩ := ih.mp h
          exact ⟨x :: before, after, rfl, List.forall_mem_cons.mpr ⟨hx, hbefore⟩⟩
      · rintro ⟨before, after, hl, hbefore⟩
        cases before with
        | nil =>
            cases hl
            rw [reached]
            split <;> simp
        | cons y before =>
            obtain ⟨rfl, rfl⟩ := List.cons.inj hl
            obtain ⟨⟨b, hb⟩, hbefore⟩ := List.forall_mem_cons.mp hbefore
            rw [reached, hb]
            exact List.mem_cons_of_mem _ (ih.mpr ⟨before, after, rfl, hbefore⟩)

theorem reached_of_mapM_ok {f : α → Except ε β} {l : List α} {r : List β} (h : l.mapM f = .ok r) :
    reached f l = l := by
  induction l generalizing r with
  | nil => rfl
  | cons a l ih =>
      rw [List.mapM_cons] at h
      obtain ⟨b, hb, h⟩ := ok_of_bind h
      obtain ⟨bs, hbs, -⟩ := ok_of_bind h
      rw [reached, hb, ih hbs]

/-- A loop whose every turn also passes its result on. -/
theorem mapM_map {γ : Type v} (f : α → Except ε β) (g : β → γ) (l : List α) :
    (l.mapM fun a => (f a).map g) = (l.mapM f).map (List.map g) := by
  induction l with
  | nil => rfl
  | cons a l ih =>
      rw [List.mapM_cons, List.mapM_cons, ih]
      cases f a with
      | error e => rfl
      | ok b =>
          cases l.mapM f with
          | error e => rfl
          | ok bs => rfl

end KepServerLogger
