import KepServerLogger.Base.Regex

/-!
# Texts that grow

A search through a text that is still being written finds what a later search
through more of it finds first, if two things hold of the pattern: a match
stays the match when more text follows, and where none begins before one, none
begins there later. The first alone would not do, since a match that only the
later text completes could begin before one that is there already.

A lazy repetition of any character has both from what comes after it: it ends
where that first matches.
-/

namespace KepServerLogger.Pattern

variable {α : Type*} {r : Pattern α} {s t rest : List α} {m : List (List α) × List α}

/-- Matches are not changed by what follows. -/
structure Settled (r : Pattern α) : Prop where
  kept : ∀ {s groups rest}, matchAt r s = some (groups, rest) →
    ∀ y, matchAt r (s ++ y) = some (groups, rest ++ y)
  first : ∀ {a s}, matchAt r (a ++ s) = none → (matchAt r s).isSome →
    ∀ y, matchAt r (a ++ (s ++ y)) = none

theorem Avoids.cons {c : α} (hc : matchAt r (c :: (t ++ rest)) = none) (h : Avoids r t rest) :
    Avoids r (c :: t) rest := by
  intro a b hab hne
  cases a with
  | nil =>
      rw [List.nil_append] at hab
      rw [← hab]
      exact hc
  | cons d a => exact h a b (List.cons.inj hab).2 hne

/-- Where no match begins before one, none does later. -/
theorem Settled.avoids (h : Settled r) (havoids : Avoids r t s) (hs : (matchAt r s).isSome)
    (y : List α) : Avoids r t (s ++ y) := by
  intro a b hab hne
  exact h.first (havoids a b hab hne) hs y

/-! ## A lazy repetition of any character -/

theorem lazily_eq_some (h : Piece.lazily (fun _ => true) (matchAt r) s = some (t, m)) :
    ∃ x, s = t ++ x ∧ Avoids r t x ∧ matchAt r x = some m := by
  induction s generalizing t with
  | nil =>
      obtain ⟨m', hm, heq⟩ := Option.map_eq_some_iff.mp h
      cases heq
      exact ⟨[], rfl, .nil, hm⟩
  | cons c s ih =>
      rw [Piece.lazily, if_pos rfl] at h
      rcases Option.or_eq_some_iff.mp h with h | ⟨hnone, h⟩
      · obtain ⟨m', hm, heq⟩ := Option.map_eq_some_iff.mp h
        cases heq
        exact ⟨c :: s, rfl, .nil, hm⟩
      · obtain ⟨⟨t', m'⟩, htaken, heq⟩ := Option.map_eq_some_iff.mp h
        cases heq
        obtain ⟨x, rfl, havoids, hx⟩ := ih htaken
        exact ⟨x, rfl, .cons (Option.map_eq_none_iff.mp hnone) havoids, hx⟩

theorem anyLazily_eq_some (h : matchAt (anyLazily :: r) s = some m) :
    ∃ t x groups, s = t ++ x ∧ Avoids r t x ∧ matchAt r x = some (groups, m.2) ∧
      m = (t :: groups, m.2) := by
  rw [matchAt_cons] at h
  obtain ⟨⟨t, m'⟩, htake, rfl⟩ := Option.map_eq_some_iff.mp h
  obtain ⟨x, hs, havoids, hx⟩ := lazily_eq_some htake
  exact ⟨t, x, m'.1, hs, havoids, hx, rfl⟩

theorem Settled.anyLazily (h : Settled r) : Settled (anyLazily :: r) where
  kept := by
    intro s groups rest hs y
    obtain ⟨t, x, groups', rfl, havoids, hx, heq⟩ := anyLazily_eq_some hs
    obtain rfl : groups = t :: groups' := congrArg Prod.fst heq
    have hlater := h.avoids havoids (by rw [hx]; rfl) y
    rw [List.append_assoc, matchAt_anyLazily hlater (h.kept hx y)]
  first := by
    intro a s hnone hs
    obtain ⟨b, x, rfl, hx⟩ := isSome_anyLazily.mp hs
    have hsome : (matchAt (Pattern.anyLazily :: r) (a ++ (b ++ x))).isSome :=
      isSome_anyLazily.mpr ⟨a ++ b, x, (List.append_assoc a b x).symm, hx⟩
    rw [hnone] at hsome
    cases hsome

/-! ## The search -/

/-- No match begins in a text, or there is a first one. -/
theorem avoids_or_first (r : Pattern α) (s : List α) :
    Avoids r s [] ∨ ∃ gap x, s = gap ++ x ∧ Avoids r gap x ∧ (matchAt r x).isSome := by
  induction s with
  | nil => exact .inl .nil
  | cons c s ih =>
      cases hmatch : matchAt r (c :: s) with
      | some m => exact .inr ⟨[], c :: s, rfl, .nil, by rw [hmatch]; rfl⟩
      | none =>
          rcases ih with h | ⟨gap, x, rfl, havoids, hx⟩
          · refine .inl (.cons ?_ h)
            rw [List.append_nil]
            exact hmatch
          · exact .inr ⟨c :: gap, x, rfl, .cons hmatch havoids, hx⟩

/-- What is found is where a match begins. -/
theorem exists_of_findFrom_ne_nil {pos : Nat} (h : findFrom r pos 0 s ≠ []) :
    ∃ t x, s = t ++ x ∧ (matchAt r x).isSome := by
  induction s generalizing pos with
  | nil => exact absurd rfl h
  | cons c s ih =>
      rw [findFrom] at h
      split at h
      · obtain ⟨t, x, rfl, hx⟩ := ih h
        exact ⟨c :: t, x, rfl, hx⟩
      · next hmatch => exact ⟨[], c :: s, rfl, by rw [hmatch]; rfl⟩

theorem findFrom_prefix (h : Settled r) (s y : List α) (pos skip : Nat) :
    findFrom r pos skip s <+: findFrom r pos skip (s ++ y) := by
  induction s generalizing pos skip with
  | nil => exact List.nil_prefix
  | cons c s ih =>
      cases skip with
      | succ skip => exact ih (pos + 1) skip
      | zero =>
          rw [List.cons_append, findFrom, findFrom]
          cases hmatch : matchAt r (c :: s) with
          | some m =>
              obtain ⟨groups, rest⟩ := m
              have hlater : matchAt r (c :: (s ++ y)) = some (groups, rest ++ y) := h.kept hmatch y
              have hstop : (s ++ y).length + 1 - (rest ++ y).length = s.length + 1 - rest.length := by
                rw [List.length_append, List.length_append]
                omega
              have hskip : (s ++ y).length - (rest ++ y).length = s.length - rest.length := by
                rw [List.length_append, List.length_append]
                omega
              rw [hlater]
              show _ <+: ⟨pos, pos + ((s ++ y).length + 1 - (rest ++ y).length), groups⟩ ::
                findFrom r (pos + 1) ((s ++ y).length - (rest ++ y).length) (s ++ y)
              rw [hstop, hskip]
              exact List.cons_prefix_cons.mpr ⟨rfl, ih (pos + 1) _⟩
          | none =>
              by_cases hnil : findFrom r (pos + 1) 0 s = []
              · show findFrom r (pos + 1) 0 s <+: _
                rw [hnil]
                exact List.nil_prefix
              · obtain ⟨t, x, rfl, hx⟩ := exists_of_findFrom_ne_nil hnil
                have hlater : matchAt r (c :: ((t ++ x) ++ y)) = none := by
                  rw [List.append_assoc]
                  exact h.first (a := c :: t) hmatch hx y
                rw [hlater]
                exact ih (pos + 1) 0

/-- A text that has grown begins with the matches that it had. -/
theorem findAll_prefix (h : Settled r) (s y : List α) : findAll r s <+: findAll r (s ++ y) :=
  findFrom_prefix h s y 0 0

end KepServerLogger.Pattern
