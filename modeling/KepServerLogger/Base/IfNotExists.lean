import Mathlib.Data.List.Basic

/-!
# Statements that leave alone what is there

A statement makes one object, if there is none, and may bring others along
that it does not name. Whatever statements are executed, and however often, an
object that none of them brings along is as it was before, or else as the
first of them that names it makes it.
-/

namespace KepServerLogger

variable {δ ο ι : Type*}

/-- What `IF NOT EXISTS` says of the execution of a statement, which may fail:
`holds db o` is the statement that the object `o` of `db` is as if made by. -/
structure IfNotExists (execute : δ → ι → Option δ) (holds : δ → ο → Option ι) (object : ι → ο)
    (brings : ι → List ο) : Prop where
  makes : ∀ {db st db'}, execute db st = some db' →
    holds db' (object st) = (holds db (object st)).or (some st)
  frame : ∀ {db st db' o}, execute db st = some db' → o ≠ object st → o ∉ brings st →
    holds db' o = holds db o

namespace IfNotExists

variable {execute : δ → ι → Option δ} {holds : δ → ο → Option ι} {object : ι → ο}
  {brings : ι → List ο} [DecidableEq ο]

theorem holds_execute (h : IfNotExists execute holds object brings) {db db' : δ} {st : ι} {o : ο}
    (hs : execute db st = some db') (ho : o ∉ brings st) :
    holds db' o = (holds db o).or ([st].find? (object · = o)) := by
  by_cases heq : o = object st
  · subst heq
    rw [h.makes hs, List.find?_cons_of_pos (by simp)]
  · rw [h.frame hs heq ho, List.find?_cons_of_neg (by simpa using Ne.symm heq), List.find?_nil,
      Option.or_none]

/-- The first statement that names an object decides how it is. -/
theorem holds_foldlM (h : IfNotExists execute holds object brings) {statements : List ι} {o : ο}
    (ho : ∀ st ∈ statements, o ∉ brings st) {db db' : δ}
    (hs : statements.foldlM execute db = some db') :
    holds db' o = (holds db o).or (statements.find? (object · = o)) := by
  induction statements generalizing db with
  | nil =>
      cases hs
      exact (Option.or_none).symm
  | cons st rest ih =>
      rw [List.forall_mem_cons] at ho
      rw [List.foldlM_cons] at hs
      obtain ⟨db₁, hfirst, hrest⟩ := Option.bind_eq_some_iff.mp hs
      rw [ih ho.2 hrest, h.holds_execute hfirst ho.1, Option.or_assoc, ← List.find?_append]
      rfl

end IfNotExists

end KepServerLogger
