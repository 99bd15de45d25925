import Mathlib.Data.List.Count
import Mathlib.Data.List.Forall2

/-!
# Handles that are opened and closed

A program opens handles, uses them and closes them, and anything that it asks
for may raise, as whoever answers decides from the calls so far. A run is
sound if it uses and closes only what is open. A program keeps its handles if
wherever it is run soundly, it runs soundly and leaves open what was open;
then a handle that it has opened is closed exactly once and not used after.

The rules follow the program: what is run one after the other, an exception
that is handled, and a body with a closing after it that is run however the
body ends. A handle may come out of more than one call, so that a body may
begin with anything that acquires one.
-/

namespace KepServerLogger

/-- A call, and the handle that it is made on. -/
inductive HandleCall (κ : Type*) where
  | opened (h : Nat) (on : Option Nat) (call : κ)
  | refused (on : Option Nat) (call : κ)
  | used (h : Nat) (call : κ)
  | closed (h : Nat)
  deriving DecidableEq

namespace HandleCall

variable {κ : Type*}

def isOpening : HandleCall κ → Bool
  | .opened .. => true
  | _ => false

def isClosing (k : Nat) : HandleCall κ → Bool
  | .closed h => h = k
  | _ => false

/-- How many handles have been opened; the next one is called by it. -/
def opens (t : List (HandleCall κ)) : Nat := t.countP isOpening

def closings (k : Nat) (t : List (HandleCall κ)) : Nat := t.countP (isClosing k)

def liveAfter (live : List Nat) : HandleCall κ → List Nat
  | .opened h _ _ => h :: live
  | .closed h => live.erase h
  | _ => live

/-- The handles that are open, the last one first. -/
def live (t : List (HandleCall κ)) : List Nat := t.foldl liveAfter []

@[simp] theorem live_append_singleton (t : List (HandleCall κ)) (c : HandleCall κ) :
    live (t ++ [c]) = liveAfter (live t) c := by
  simp [live]

@[simp] theorem opens_append_singleton (t : List (HandleCall κ)) (c : HandleCall κ) :
    opens (t ++ [c]) = opens t + if isOpening c then 1 else 0 := by
  simp [opens, List.countP_append, List.countP_singleton]

@[simp] theorem closings_append_singleton (k : Nat) (t : List (HandleCall κ))
    (c : HandleCall κ) : closings k (t ++ [c]) = closings k t + if isClosing k c then 1 else 0 := by
  simp [closings, List.countP_append, List.countP_singleton]

/-- Every call is made on a handle that is open. -/
inductive Sound : List (HandleCall κ) → Prop where
  | nil : Sound []
  | opened {t : List (HandleCall κ)} {on : Option Nat} (h : Sound t) (hon : ∀ k ∈ on, k ∈ live t)
      (call : κ) : Sound (t ++ [.opened (opens t) on call])
  | refused {t : List (HandleCall κ)} {on : Option Nat} (h : Sound t) (hon : ∀ k ∈ on, k ∈ live t)
      (call : κ) : Sound (t ++ [.refused on call])
  | used {t : List (HandleCall κ)} {k : Nat} (h : Sound t) (hk : k ∈ live t) (call : κ) :
      Sound (t ++ [.used k call])
  | closed {t : List (HandleCall κ)} {k : Nat} (h : Sound t) (hk : k ∈ live t) :
      Sound (t ++ [.closed k])

/-- A handle is open as often as it was opened more often than it was closed,
and it is opened once. -/
theorem Sound.count_live {t : List (HandleCall κ)} (h : Sound t) (k : Nat) :
    closings k t + (live t).count k = if k < opens t then 1 else 0 := by
  induction h with
  | nil => rfl
  | opened h hon call ih =>
      simp only [live_append_singleton, opens_append_singleton, closings_append_singleton, liveAfter,
        isOpening, isClosing, List.count_cons, beq_iff_eq]
      grind
  | refused h hon call ih | used h hk call ih =>
      simpa [liveAfter, isOpening, isClosing] using ih
  | @closed t j h hj ih =>
      have hpos : 0 < (live t).count j := List.count_pos_iff.mpr hj
      simp only [live_append_singleton, opens_append_singleton, closings_append_singleton, liveAfter,
        isOpening, isClosing, List.count_erase, beq_iff_eq]
      grind

/-- What was opened in a sound run that leaves nothing open was closed exactly
once. -/
theorem Sound.closings_eq_one {t : List (HandleCall κ)} (h : Sound t) (hlive : live t = [])
    {k : Nat} (hk : k < opens t) : closings k t = 1 := by
  have hcount := h.count_live k
  rw [hlive, if_pos hk] at hcount
  exact hcount

end HandleCall

open HandleCall

/-- What a program returns or raises, and the calls with its own behind them. -/
def Handling (κ ε : Type*) (α : Type) := List (HandleCall κ) → Except ε α × List (HandleCall κ)

namespace Handling

variable {κ ε : Type*} {α β : Type}

instance : Monad (Handling κ ε) where
  pure a := fun t => (.ok a, t)
  bind m f := fun t =>
    match m t with
    | (.ok a, t) => f a t
    | (.error e, t) => (.error e, t)

def raise (e : ε) : Handling κ ε α := fun t => (.error e, t)

/-- `try: m except: handler` -/
def handling (m : Handling κ ε α) (handler : ε → Handling κ ε α) : Handling κ ε α := fun t =>
  match m t with
  | (.ok a, t) => (.ok a, t)
  | (.error e, t) => handler e t

/-- `try: m finally: last`; what `last` raises replaces how `m` has ended. -/
def finally' (m : Handling κ ε α) (last : Handling κ ε Unit) : Handling κ ε α := fun t =>
  let (r, t) := m t
  match last t with
  | (.ok (), t) => (r, t)
  | (.error e, t) => (.error e, t)

/-- Opens a handle, on one that is open if the call needs it. -/
def opening (on : Option Nat) (call : κ) (answer : List (HandleCall κ) → Except ε Unit) :
    Handling κ ε Nat := fun t =>
  match answer t with
  | .ok () => (.ok (opens t), t ++ [.opened (opens t) on call])
  | .error e => (.error e, t ++ [.refused on call])

/-- A call on an open handle. -/
def calling (h : Nat) (call : κ) (answer : List (HandleCall κ) → Except ε α) : Handling κ ε α :=
  fun t => (answer t, t ++ [.used h call])

def closing (h : Nat) (answer : List (HandleCall κ) → Except ε Unit) : Handling κ ε Unit :=
  fun t => (answer t, t ++ [.closed h])

/-- A list comprehension. -/
def forEach (f : α → Handling κ ε β) : List α → Handling κ ε (List β)
  | [] => pure []
  | a :: l => do
      let b ← f a
      let bs ← forEach f l
      return b :: bs

/-- Run with these handles open, it uses no others and leaves open what was. -/
def Keeps (handles : List Nat) (m : Handling κ ε α) : Prop :=
  ∀ t, Sound t → handles ⊆ live t → Sound (m t).2 ∧ live (m t).2 = live t

/-- Leaves one more handle open, the one that it returns, unless it raises. -/
def Acquires (handles : List Nat) (m : Handling κ ε Nat) : Prop :=
  ∀ t, Sound t → handles ⊆ live t → Sound (m t).2 ∧
    match (m t).1 with
    | .ok h => live (m t).2 = h :: live t
    | .error _ => live (m t).2 = live t

variable {handles : List Nat}

theorem keeps_pure (a : α) : Keeps handles (pure a : Handling κ ε α) := fun _ h _ => ⟨h, rfl⟩

theorem keeps_raise (e : ε) : Keeps handles (raise e : Handling κ ε α) := fun _ h _ => ⟨h, rfl⟩

theorem keeps_bind {m : Handling κ ε α} {f : α → Handling κ ε β} (hm : Keeps handles m)
    (hf : ∀ a, Keeps handles (f a)) : Keeps handles (m >>= f) := by
  intro t h hlive
  obtain ⟨hsound, hsame⟩ := hm t h hlive
  show Sound ((bind m f : Handling κ ε β) t).2 ∧ live ((bind m f : Handling κ ε β) t).2 = live t
  simp only [bind]
  split
  · next a t' ha =>
      rw [ha] at hsound hsame
      obtain ⟨hsound', hsame'⟩ := hf a t' hsound (hsame ▸ hlive)
      exact ⟨hsound', hsame'.trans hsame⟩
  · next e t' he =>
      rw [he] at hsound hsame
      exact ⟨hsound, hsame⟩

theorem keeps_handling {m : Handling κ ε α} {handler : ε → Handling κ ε α}
    (hm : Keeps handles m) (hh : ∀ e, Keeps handles (handler e)) :
    Keeps handles (handling m handler) := by
  intro t h hlive
  obtain ⟨hsound, hsame⟩ := hm t h hlive
  unfold handling
  split
  · next a t' ha =>
      rw [ha] at hsound hsame
      exact ⟨hsound, hsame⟩
  · next e t' he =>
      rw [he] at hsound hsame
      obtain ⟨hsound', hsame'⟩ := hh e t' hsound (hsame ▸ hlive)
      exact ⟨hsound', hsame'.trans hsame⟩

theorem keeps_calling {h : Nat} (hh : h ∈ handles) (call : κ)
    (answer : List (HandleCall κ) → Except ε α) : Keeps handles (calling h call answer) :=
  fun _ hsound hlive => ⟨hsound.used (hlive hh) call, live_append_singleton _ _⟩

theorem keeps_forEach {f : α → Handling κ ε β} (hf : ∀ a, Keeps handles (f a)) (l : List α) :
    Keeps handles (forEach f l) := by
  induction l with
  | nil => exact keeps_pure []
  | cons a l ih => exact keeps_bind (hf a) fun b => keeps_bind ih fun bs => keeps_pure (b :: bs)

theorem acquires_opening {on : Option Nat} (hon : ∀ k ∈ on, k ∈ handles) (call : κ)
    (answer : List (HandleCall κ) → Except ε Unit) : Acquires handles (opening on call answer) := by
  intro t h hlive
  unfold opening
  split
  · exact ⟨h.opened (fun k hk => hlive (hon k hk)) call, live_append_singleton _ _⟩
  · exact ⟨h.refused (fun k hk => hlive (hon k hk)) call, live_append_singleton _ _⟩

theorem acquires_raise (e : ε) : Acquires handles (raise e : Handling κ ε Nat) :=
  fun _ h _ => ⟨h, rfl⟩

theorem acquires_bind {m : Handling κ ε α} {f : α → Handling κ ε Nat} (hm : Keeps handles m)
    (hf : ∀ a, Acquires handles (f a)) : Acquires handles (m >>= f) := by
  intro t h hlive
  obtain ⟨hsound, hsame⟩ := hm t h hlive
  simp only [bind]
  cases hr : m t with
  | mk r t' =>
      rw [hr] at hsound hsame
      cases r with
      | ok a =>
          obtain ⟨hsound', hsame'⟩ := hf a t' hsound (hsame ▸ hlive)
          rw [hsame] at hsame'
          exact ⟨hsound', hsame'⟩
      | error e => exact ⟨hsound, hsame⟩

theorem acquires_handling {m : Handling κ ε Nat} {handler : ε → Handling κ ε Nat}
    (hm : Acquires handles m) (hh : ∀ e, Acquires handles (handler e)) :
    Acquires handles (handling m handler) := by
  intro t h hlive
  obtain ⟨hsound, hsame⟩ := hm t h hlive
  unfold handling
  cases hr : m t with
  | mk r t' =>
      rw [hr] at hsound hsame
      cases r with
      | ok a => exact ⟨hsound, hsame⟩
      | error e =>
          obtain ⟨hsound', hsame'⟩ := hh e t' hsound (hsame ▸ hlive)
          rw [show live t' = live t from hsame] at hsame'
          exact ⟨hsound', hsame'⟩

theorem calls_finally'_closing (m : Handling κ ε α) (h : Nat)
    (answer : List (HandleCall κ) → Except ε Unit) (t : List (HandleCall κ)) :
    (m.finally' (closing h answer) t).2 = (m t).2 ++ [.closed h] := by
  simp only [finally', closing]
  cases answer (m t).2 <;> rfl

/-- A handle is acquired, and closed after a body that keeps it. -/
theorem keeps_closing {m : Handling κ ε Nat} {body : Nat → Handling κ ε α}
    (hm : Acquires handles m) (hbody : ∀ h, Keeps (h :: handles) (body h))
    (answer : Nat → List (HandleCall κ) → Except ε Unit) :
    Keeps handles (m >>= fun h => (body h).finally' (closing h (answer h))) := by
  intro t h hlive
  obtain ⟨hsound, hsame⟩ := hm t h hlive
  simp only [bind]
  cases hr : m t with
  | mk r t' =>
      rw [hr] at hsound hsame
      cases r with
      | error e => exact ⟨hsound, hsame⟩
      | ok k =>
          have hsame : live t' = k :: live t := hsame
          have hkeeps : k :: handles ⊆ live t' := by
            rw [hsame]
            exact List.cons_subset_cons k hlive
          obtain ⟨hsound', hsame'⟩ := hbody k t' hsound hkeeps
          have hclosed : Sound ((body k t').2 ++ [.closed k]) :=
            hsound'.closed (by rw [hsame', hsame]; exact List.mem_cons_self)
          have hleft : live ((body k t').2 ++ [.closed k]) = live t := by
            rw [live_append_singleton, hsame', hsame]
            exact List.erase_cons_head k (live t)
          show Sound (finally' (body k) (closing k (answer k)) t').2 ∧
            live (finally' (body k) (closing k (answer k)) t').2 = live t
          rw [calls_finally'_closing]
          exact ⟨hclosed, hleft⟩

/-! ## What is returned -/

/-- What it returns, if it does, is so. -/
def Returns (m : Handling κ ε α) (P : α → Prop) : Prop := ∀ t a, (m t).1 = .ok a → P a

theorem returns_bind {m : Handling κ ε α} {f : α → Handling κ ε β} {P : β → Prop}
    (hf : ∀ a, Returns (f a) P) : Returns (m >>= f) P := by
  intro t b hb
  simp only [bind] at hb
  split at hb
  · next a t' _ => exact hf a t' b hb
  · cases hb

theorem returns_handling {m : Handling κ ε α} {handler : ε → Handling κ ε α} {P : α → Prop}
    (hm : Returns m P) (hh : ∀ e, Returns (handler e) P) : Returns (handling m handler) P := by
  intro t a ha
  unfold handling at ha
  split at ha
  · next b t' hb =>
      cases ha
      exact hm t a (by rw [hb])
  · next e t' _ => exact hh e t' a ha

theorem returns_finally' {m : Handling κ ε α} {last : Handling κ ε Unit} {P : α → Prop}
    (hm : Returns m P) : Returns (m.finally' last) P := by
  intro t a ha
  simp only [finally'] at ha
  split at ha
  · exact hm t a ha
  · cases ha

theorem returns_raise (e : ε) (P : α → Prop) : Returns (raise e : Handling κ ε α) P :=
  fun _ _ h => nomatch h

theorem returns_forEach {f : α → Handling κ ε β} {P : α → β → Prop}
    (hf : ∀ a, Returns (f a) (P a)) (l : List α) :
    Returns (forEach f l) fun bs => List.Forall₂ P l bs := by
  induction l with
  | nil =>
      intro t bs hbs
      cases hbs
      exact .nil
  | cons a l ih =>
      intro t bs hbs
      simp only [forEach, bind] at hbs
      split at hbs
      · next b t' hb =>
          split at hbs
          · next bs' t'' hbs' =>
              cases hbs
              exact .cons (hf a t b (by rw [hb])) (ih t' bs' (by rw [hbs']))
          · cases hbs
      · cases hbs

end Handling

end KepServerLogger
