import KepServerLogger.Py.Value

/-!
# How long JSON gets

An escaped character takes up to twelve: outside the first plane it becomes
two escapes of six. So the text of a value is at most some twelve times as
long as what is in it; and it is never shorter.
-/

namespace KepServerLogger.Py.Json

theorem length_unicodeEscape (n : Nat) : (unicodeEscape n).length = 6 := rfl

theorem length_escape (c : Char) : 1 ≤ (escape c).length ∧ (escape c).length ≤ 12 := by
  unfold escape
  split
  case h_8 =>
    split
    · rw [List.length_singleton]
      exact ⟨by decide, by decide⟩
    · split
      · rw [length_unicodeEscape]
        exact ⟨by decide, by decide⟩
      · rw [List.length_append, length_unicodeEscape, length_unicodeEscape]
        exact ⟨by decide, by decide⟩
  all_goals exact ⟨by decide, by decide⟩

theorem length_flatMap_escape (cs : List Char) :
    cs.length ≤ (cs.flatMap escape).length ∧ (cs.flatMap escape).length ≤ 12 * cs.length := by
  induction cs with
  | nil => exact ⟨Nat.le_refl 0, Nat.le_refl 0⟩
  | cons c cs ih =>
      have hc := length_escape c
      rw [List.flatMap_cons, List.length_append, List.length_cons]
      omega

theorem length_dumpsStr_le (s : String) : (dumpsStr s).length ≤ 12 * s.length + 2 := by
  have hescaped := (length_flatMap_escape s.toList).2
  rw [String.length_toList] at hescaped
  unfold dumpsStr
  rw [List.length_append, List.length_cons, List.length_singleton]
  omega

theorem le_length_dumpsStr (s : String) : s.length ≤ (dumpsStr s).length := by
  have hescaped := (length_flatMap_escape s.toList).1
  rw [String.length_toList] at hescaped
  unfold dumpsStr
  rw [List.length_append, List.length_cons]
  omega

theorem length_dumpsItems_le {n : Nat} {xs : List Json}
    (h : ∀ x ∈ xs, (dumpsText x).length ≤ n) : (dumpsItems xs).length ≤ xs.length * (n + 2) := by
  induction xs with
  | nil => exact Nat.zero_le _
  | cons x xs ih =>
      rw [List.forall_mem_cons] at h
      have hrest := ih h.2
      rw [List.length_cons, Nat.succ_mul]
      cases xs with
      | nil =>
          rw [dumpsItems]
          omega
      | cons y xs =>
          rw [dumpsItems, List.length_append, List.length_append]
          simp only [List.length_cons, List.length_nil] at hrest ⊢
          omega

theorem length_le_dumpsItems {x : Json} {xs : List Json} (h : x ∈ xs) :
    (dumpsText x).length ≤ (dumpsItems xs).length := by
  induction xs with
  | nil => cases h
  | cons z xs ih =>
      cases xs with
      | nil =>
          rw [List.mem_singleton.mp h, dumpsItems]
      | cons y xs =>
          rw [dumpsItems, List.length_append, List.length_append]
          rcases List.mem_cons.mp h with rfl | h
          · omega
          · exact Nat.le_trans (ih h) (Nat.le_add_left _ _)

theorem length_dumpsPairs_le (kvs : List (String × Json)) :
    (dumpsPairs kvs).length ≤
      (kvs.map fun p => (dumpsStr p.1).length + (dumpsText p.2).length + 4).sum := by
  induction kvs with
  | nil => exact Nat.zero_le _
  | cons p kvs ih =>
      obtain ⟨k, v⟩ := p
      rw [List.map_cons, List.sum_cons]
      cases kvs with
      | nil =>
          rw [dumpsPairs]
          simp only [List.length_append, List.length_cons, List.length_nil]
          omega
      | cons q kvs =>
          rw [dumpsPairs]
          simp only [List.length_append, List.length_cons, List.length_nil]
          omega

theorem length_le_dumpsPairs {p : String × Json} {kvs : List (String × Json)} (h : p ∈ kvs) :
    (dumpsText p.2).length ≤ (dumpsPairs kvs).length := by
  induction kvs with
  | nil => cases h
  | cons q kvs ih =>
      obtain ⟨k, v⟩ := q
      cases kvs with
      | nil =>
          rw [List.mem_singleton.mp h, dumpsPairs]
          simp only [List.length_append]
          omega
      | cons q kvs =>
          rw [dumpsPairs]
          simp only [List.length_append]
          rcases List.mem_cons.mp h with rfl | h
          · show (dumpsText v).length ≤ _
            omega
          · have hle := ih h
            omega

end KepServerLogger.Py.Json
