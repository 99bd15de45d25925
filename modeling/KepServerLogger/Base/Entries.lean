import Mathlib.Data.List.Perm.Basic

/-!
# A table of jobs, and what the jobs hold

Jobs in progress are a list; one of them moves on, or leaves. What all of
them hold together then changes by what that one held, wherever it stood.
-/

namespace KepServerLogger

variable {α β : Type*} {l : List α} {i : Nat} {a : α}

theorem flatMap_eraseIdx_perm (h : l[i]? = some a) (f : α → List β) :
    (l.flatMap f).Perm (f a ++ (l.eraseIdx i).flatMap f) := by
  obtain ⟨hlt, hget⟩ := List.getElem?_eq_some_iff.mp h
  have hperm := List.getElem_cons_eraseIdx_perm hlt
  rw [hget] at hperm
  exact hperm.symm.flatMap_right f

theorem flatMap_set_perm (h : l[i]? = some a) (b : α) (f : α → List β) :
    ((l.set i b).flatMap f).Perm (f b ++ (l.eraseIdx i).flatMap f) := by
  obtain ⟨hlt, _⟩ := List.getElem?_eq_some_iff.mp h
  exact (List.set_perm_cons_eraseIdx hlt b).flatMap_right f

variable [DecidableEq β]

theorem count_flatMap_eraseIdx (h : l[i]? = some a) (f : α → List β) (r : β) :
    (l.flatMap f).count r = (f a).count r + ((l.eraseIdx i).flatMap f).count r := by
  rw [(flatMap_eraseIdx_perm h f).count_eq, List.count_append]

theorem count_flatMap_set (h : l[i]? = some a) (b : α) (f : α → List β) (r : β) :
    ((l.set i b).flatMap f).count r + (f a).count r =
      (l.flatMap f).count r + (f b).count r := by
  rw [(flatMap_set_perm h b f).count_eq, (flatMap_eraseIdx_perm h f).count_eq,
    List.count_append, List.count_append]
  omega

end KepServerLogger
