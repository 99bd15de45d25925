import KepServerLogger.Base.Past
import Mathlib.Data.List.Induction

/-!
# Properties that a fold loses and gains

A property of the state of a fold need not be invariant. If it is known which
steps lose it and which gain it, it holds at the end exactly if every loss is
made good by a gain after it: the last change of a property that began true
and ended false is a loss with no gain after it.
-/

namespace KepServerLogger

variable {σ α : Type*} {f : σ → α → σ} {s : σ} {l : List α}

theorem foldl_invariant {P : σ → Prop} (hstep : ∀ s a, P s → P (f s a)) (h : P s) (l : List α) :
    P (l.foldl f s) := by
  induction l generalizing s with
  | nil => exact h
  | cons a l ih => exact ih (hstep s a h)

/-- Among the states of an invariant, `P` is lost in the steps that `Loses`
names and gained in those that `Gains` names. -/
structure Switch (f : σ → α → σ) (Inv P : σ → Prop) (Loses Gains : σ → α → Prop) : Prop where
  inv : ∀ s a, Inv s → Inv (f s a)
  loses : ∀ s a, Inv s → P s → ¬ P (f s a) → Loses s a
  lost : ∀ s a, Inv s → Loses s a → ¬ P (f s a)
  gains : ∀ s a, Inv s → ¬ P s → P (f s a) → Gains s a
  gained : ∀ s a, Inv s → Gains s a → P (f s a)

namespace Switch

variable {Inv P : σ → Prop} {Loses Gains : σ → α → Prop}

theorem exists_gain (h : Switch f Inv P Loses Gains) (hinv : Inv s) (hnot : ¬ P s)
    (hend : P (l.foldl f s)) :
    ∃ mid b rest, l = mid ++ b :: rest ∧ Gains (mid.foldl f s) b := by
  induction l generalizing s with
  | nil => exact absurd hend hnot
  | cons a l ih =>
      by_cases ha : P (f s a)
      · exact ⟨[], a, l, rfl, h.gains s a hinv hnot ha⟩
      · obtain ⟨mid, b, rest, hl, hgain⟩ := ih (h.inv s a hinv) ha hend
        exact ⟨a :: mid, b, rest, by rw [hl]; rfl, hgain⟩

theorem exists_last_loss (h : Switch f Inv P Loses Gains) (hinv : Inv s) (hbegin : P s)
    (hend : ¬ P (l.foldl f s)) :
    ∃ past a rest, l = past ++ a :: rest ∧ Loses (past.foldl f s) a ∧
      EachWithPast (fun mid b => ¬ Gains ((past ++ a :: mid).foldl f s) b) rest := by
  induction l using List.reverseRecOn with
  | nil => exact absurd hbegin hend
  | append_singleton l b ih =>
      rw [List.foldl_append, List.foldl_cons, List.foldl_nil] at hend
      have hl : Inv (l.foldl f s) := foldl_invariant h.inv hinv l
      by_cases hbefore : P (l.foldl f s)
      · exact ⟨l, b, [], rfl, h.loses _ b hl hbefore hend, .nil⟩
      · obtain ⟨past, a, rest, rfl, hloss, hafter⟩ := ih hbefore
        exact ⟨past, a, rest ++ [b], by simp, hloss,
          hafter.snoc fun hgain => hend (h.gained _ b hl hgain)⟩

/-- The property holds at the end exactly if a gain follows every loss. -/
theorem holds_iff (h : Switch f Inv P Loses Gains) (hinv : Inv s) (hbegin : P s) :
    P (l.foldl f s) ↔ ∀ past a rest, l = past ++ a :: rest → Loses (past.foldl f s) a →
      ∃ mid b rest', rest = mid ++ b :: rest' ∧ Gains ((past ++ a :: mid).foldl f s) b := by
  constructor
  · intro hend past a rest hl hloss
    have hpast : Inv (past.foldl f s) := foldl_invariant h.inv hinv past
    rw [hl, List.foldl_append, List.foldl_cons] at hend
    obtain ⟨mid, b, rest', hrest, hgain⟩ :=
      h.exists_gain (h.inv _ a hpast) (h.lost _ a hpast hloss) hend
    refine ⟨mid, b, rest', hrest, ?_⟩
    rw [List.foldl_append, List.foldl_cons]
    exact hgain
  · intro hgains
    by_contra hend
    obtain ⟨past, a, rest, hl, hloss, hafter⟩ := h.exists_last_loss hinv hbegin hend
    obtain ⟨mid, b, rest', hrest, hgain⟩ := hgains past a rest hl hloss
    exact hafter mid b rest' hrest hgain

end Switch

end KepServerLogger
