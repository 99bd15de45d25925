import Mathlib.Data.List.Nodup
import Mathlib.Data.List.Basic

/-!
# Python dictionaries

A dictionary is its items in insertion order with distinct keys; the
distinctness is a field, so a loop over the items sees every key once.
Assigning to a key that is there replaces its value where it stands, and
assigning to a new key appends.
-/

namespace KepServerLogger.Py

structure Dict (κ ν : Type*) where
  items : List (κ × ν)
  nodup : (items.map Prod.fst).Nodup

namespace Dict

variable {κ ν μ : Type*} [DecidableEq κ]

instance [DecidableEq ν] : DecidableEq (Dict κ ν) := fun d d' =>
  decidable_of_iff (d.items = d'.items) (by
    cases d; cases d'; simp)

def empty : Dict κ ν := ⟨[], by simp⟩

instance : EmptyCollection (Dict κ ν) := ⟨empty⟩

def keys (d : Dict κ ν) : List κ := d.items.map Prod.fst

def lookup (k : κ) : List (κ × ν) → Option ν
  | [] => none
  | (k', v) :: rest => if k' = k then some v else lookup k rest

/-- `d.get(k)` -/
def get? (d : Dict κ ν) (k : κ) : Option ν := lookup k d.items

/-- `d.get(k, default)` -/
def getD (d : Dict κ ν) (k : κ) (default : ν) : ν := (d.get? k).getD default

def assign (k : κ) (v : ν) : List (κ × ν) → List (κ × ν)
  | [] => [(k, v)]
  | (k', v') :: rest => if k' = k then (k, v) :: rest else (k', v') :: assign k v rest

theorem mem_keys_assign {k x : κ} {v : ν} {l : List (κ × ν)} :
    x ∈ (assign k v l).map Prod.fst ↔ x = k ∨ x ∈ l.map Prod.fst := by
  induction l with
  | nil => simp [assign]
  | cons p rest ih =>
      obtain ⟨k', v'⟩ := p
      simp only [assign]
      split
      · next hk => simp [hk]
      · next hk =>
          simp only [List.map_cons, List.mem_cons, ih]
          tauto

theorem nodup_assign {k : κ} {v : ν} {l : List (κ × ν)}
    (h : (l.map Prod.fst).Nodup) : ((assign k v l).map Prod.fst).Nodup := by
  induction l with
  | nil => simp [assign]
  | cons p rest ih =>
      obtain ⟨k', v'⟩ := p
      simp only [List.map_cons, List.nodup_cons] at h
      simp only [assign]
      split
      · next hk => subst hk; simpa using h
      · next hk =>
          simp only [List.map_cons, List.nodup_cons]
          exact ⟨fun hmem => (mem_keys_assign.mp hmem).elim hk h.1, ih h.2⟩

/-- `d[k] = v` -/
def set (d : Dict κ ν) (k : κ) (v : ν) : Dict κ ν :=
  ⟨assign k v d.items, nodup_assign d.nodup⟩

/-- `d.pop(k, None)`, and `del d[k]` where the key is there. -/
def erase (d : Dict κ ν) (k : κ) : Dict κ ν :=
  ⟨d.items.filter (·.1 ≠ k), d.nodup.sublist (List.filter_sublist.map _)⟩

/-- `d.setdefault(k, v)` -/
def setdefault (d : Dict κ ν) (k : κ) (v : ν) : Dict κ ν :=
  match d.get? k with
  | some _ => d
  | none => d.set k v

theorem lookup_assign (k k' : κ) (v : ν) (l : List (κ × ν)) :
    lookup k' (assign k v l) = if k = k' then some v else lookup k' l := by
  induction l with
  | nil => simp [assign, lookup]
  | cons p rest ih =>
      obtain ⟨j, w⟩ := p
      simp only [assign]
      split
      · next hj =>
          subst hj
          simp only [lookup]
          split <;> rfl
      · next hj =>
          simp only [lookup, ih]
          split
          · next hjk =>
              rw [if_neg (fun h => hj (hjk.trans h.symm))]
          · rfl

omit [DecidableEq κ] in
@[simp] theorem items_empty : (∅ : Dict κ ν).items = [] := rfl

theorem get?_set (d : Dict κ ν) (k k' : κ) (v : ν) :
    (d.set k v).get? k' = if k = k' then some v else d.get? k' :=
  lookup_assign k k' v d.items

theorem setdefault_of_get? {d : Dict κ ν} {k : κ} {w : ν} (h : d.get? k = some w) (v : ν) :
    d.setdefault k v = d := by
  rw [setdefault, h]

theorem get?_setdefault (d : Dict κ ν) (k k' : κ) (v : ν) :
    (d.setdefault k v).get? k' = (d.get? k').or (if k = k' then some v else none) := by
  unfold setdefault
  cases hk : d.get? k with
  | some w =>
      show d.get? k' = _
      split
      · next h =>
          rw [← h, hk]
          rfl
      · exact Option.or_none.symm
  | none =>
      rw [get?_set]
      split
      · next h =>
          rw [← h, hk]
          rfl
      · exact Option.or_none.symm

theorem getD_set (d : Dict κ ν) (k k' : κ) (v w : ν) :
    (d.set k v).getD k' w = if k = k' then v else d.getD k' w := by
  unfold getD
  rw [get?_set]
  split <;> rfl

omit [DecidableEq κ] in
theorem lookup_filter_ne [DecidableEq κ] (k k' : κ) (l : List (κ × ν)) :
    lookup k' (l.filter (·.1 ≠ k)) = if k = k' then none else lookup k' l := by
  induction l with
  | nil => simp [lookup]
  | cons p rest ih =>
      obtain ⟨j, w⟩ := p
      by_cases hj : j = k
      · rw [List.filter_cons_of_neg (by simpa using hj), ih]
        simp only [lookup, hj]
        split <;> rfl
      · rw [List.filter_cons_of_pos (by simpa using hj)]
        simp only [lookup, ih]
        split
        · next hjk => rw [if_neg (fun h => hj (hjk.trans h.symm))]
        · rfl

theorem get?_erase (d : Dict κ ν) (k k' : κ) :
    (d.erase k).get? k' = if k = k' then none else d.get? k' :=
  lookup_filter_ne k k' d.items

theorem lookup_eq_none {k : κ} {l : List (κ × ν)} :
    lookup k l = none ↔ k ∉ l.map Prod.fst := by
  induction l with
  | nil => simp [lookup]
  | cons p rest ih =>
      obtain ⟨j, w⟩ := p
      simp only [lookup, List.map_cons, List.mem_cons, not_or]
      split
      · next hj => simp [hj]
      · next hj =>
          rw [ih]
          exact ⟨fun h => ⟨fun e => hj e.symm, h⟩, fun h => h.2⟩

theorem lookup_eq_some {k : κ} {v : ν} {l : List (κ × ν)}
    (hl : (l.map Prod.fst).Nodup) : lookup k l = some v ↔ (k, v) ∈ l := by
  induction l with
  | nil => simp [lookup]
  | cons p rest ih =>
      obtain ⟨j, w⟩ := p
      simp only [List.map_cons, List.nodup_cons] at hl
      simp only [lookup, List.mem_cons, Prod.mk.injEq]
      split
      · next hj =>
          subst hj
          simp only [Option.some.injEq, true_and]
          constructor
          · rintro rfl; exact Or.inl rfl
          · rintro (rfl | hmem)
            · rfl
            · exact absurd (List.mem_map_of_mem hmem) hl.1
      · next hj =>
          rw [ih hl.2]
          constructor
          · exact Or.inr
          · rintro (⟨rfl, _⟩ | hmem)
            · exact absurd rfl hj
            · exact hmem

theorem get?_eq_some {d : Dict κ ν} {k : κ} {v : ν} :
    d.get? k = some v ↔ (k, v) ∈ d.items := lookup_eq_some d.nodup

theorem get?_eq_none {d : Dict κ ν} {k : κ} : d.get? k = none ↔ k ∉ d.keys :=
  lookup_eq_none

theorem lookup_append (k : κ) (l l' : List (κ × ν)) :
    lookup k (l ++ l') = (lookup k l).or (lookup k l') := by
  induction l with
  | nil => rfl
  | cons p rest ih =>
      obtain ⟨j, w⟩ := p
      simp only [List.cons_append, lookup]
      split
      · rfl
      · exact ih

/-- Assigning one pair after the other; the last value of a key wins. -/
def setAll (d : Dict κ ν) (l : List (κ × ν)) : Dict κ ν := l.foldl (fun d p => d.set p.1 p.2) d

theorem get?_setAll_of_not_mem {d : Dict κ ν} {l : List (κ × ν)} {k : κ}
    (h : k ∉ l.map Prod.fst) : (d.setAll l).get? k = d.get? k := by
  induction l generalizing d with
  | nil => rfl
  | cons p l ih =>
      simp only [List.map_cons, List.mem_cons, not_or] at h
      refine (ih h.2).trans ?_
      rw [get?_set, if_neg fun hk => h.1 hk.symm]

theorem get?_setAll_of_mem {d : Dict κ ν} {l : List (κ × ν)} {k : κ} (h : k ∈ l.map Prod.fst) :
    ∃ v, (k, v) ∈ l ∧ (d.setAll l).get? k = some v := by
  induction l generalizing d with
  | nil => cases h
  | cons p l ih =>
      by_cases hl : k ∈ l.map Prod.fst
      · obtain ⟨v, hv, hget⟩ := ih (d := d.set p.1 p.2) hl
        exact ⟨v, List.mem_cons_of_mem _ hv, hget⟩
      · obtain rfl : k = p.1 := (List.mem_cons.mp h).resolve_right hl
        refine ⟨p.2, List.mem_cons_self, (get?_setAll_of_not_mem hl).trans ?_⟩
        rw [get?_set, if_pos rfl]

/-- Rebuilding a dictionary from pairs whose keys may repeat: the last value
of a key wins, at the place the key was first seen. -/
def ofList (l : List (κ × ν)) : Dict κ ν :=
  l.foldl (fun d p => d.set p.1 p.2) ∅

/-- A rebuilt dictionary has pairs of the list only. -/
theorem mem_of_get?_ofList {l : List (κ × ν)} {k : κ} {v : ν}
    (h : (ofList l).get? k = some v) : (k, v) ∈ l := by
  by_cases hk : k ∈ l.map Prod.fst
  · obtain ⟨w, hw, hget⟩ := get?_setAll_of_mem (d := ∅) hk
    have hsome : some w = some v := hget.symm.trans h
    cases hsome
    exact hw
  · have hnone : some v = none := h.symm.trans (get?_setAll_of_not_mem (d := ∅) hk)
    cases hnone

/-- Where the keys determine the values, repeated keys change nothing. -/
theorem get?_ofList_iff {l : List (κ × ν)} {f : κ → ν} (hl : ∀ p ∈ l, p.2 = f p.1) {k : κ} {v : ν} :
    (ofList l).get? k = some v ↔ k ∈ l.map Prod.fst ∧ v = f k := by
  constructor
  · intro h
    have hmem := mem_of_get?_ofList h
    exact ⟨List.mem_map_of_mem (f := Prod.fst) hmem, hl _ hmem⟩
  · intro h
    obtain ⟨hk, rfl⟩ := h
    obtain ⟨w, hw, hget⟩ := get?_setAll_of_mem (d := ∅) hk
    rw [← hl _ hw]
    exact hget

theorem get?_ofList_of_mem {l : List (κ × ν)} {k : κ} (h : k ∈ l.map Prod.fst) :
    ∃ v, (k, v) ∈ l ∧ (ofList l).get? k = some v := get?_setAll_of_mem h

omit [DecidableEq κ] in
theorem nodup_items (d : Dict κ ν) : d.items.Nodup := d.nodup.of_map Prod.fst

theorem items_ofList_subset (l : List (κ × ν)) : (ofList l).items ⊆ l :=
  fun _ hp => mem_of_get?_ofList (get?_eq_some.mpr hp)

theorem perm_items_ofList {l : List (κ × ν)} (hl : (l.map Prod.fst).Nodup) :
    (ofList l).items.Perm l := by
  refine (List.perm_ext_iff_of_nodup (ofList l).nodup_items (hl.of_map Prod.fst)).mpr fun p => ?_
  constructor
  · exact fun hp => items_ofList_subset l hp
  · intro hp
    obtain ⟨v, hv, hget⟩ := get?_ofList_of_mem (List.mem_map_of_mem (f := Prod.fst) hp)
    have heq := ((lookup_eq_some hl).mpr hv).symm.trans ((lookup_eq_some hl).mpr hp)
    cases heq
    exact get?_eq_some.mp hget

end Dict

/-- A Python `dict` of lists, read at a key that may be missing. -/
abbrev Dict.rows {κ ν : Type*} [DecidableEq κ] (d : Dict κ (List ν)) (k : κ) :
    List ν := d.getD k []

@[simp] theorem Dict.rows_empty {κ ν : Type*} [DecidableEq κ] (k : κ) :
    (∅ : Dict κ (List ν)).rows k = [] := rfl

/-- `d.setdefault(k, []).extend(xs)` -/
def Dict.extend {κ ν : Type*} [DecidableEq κ] (d : Dict κ (List ν)) (k : κ)
    (xs : List ν) : Dict κ (List ν) := d.set k (d.rows k ++ xs)

theorem Dict.rows_extend {κ ν : Type*} [DecidableEq κ] (d : Dict κ (List ν))
    (k k' : κ) (xs : List ν) :
    (d.extend k xs).rows k' = d.rows k' ++ if k = k' then xs else [] := by
  simp only [Dict.rows, Dict.extend]
  rw [Dict.getD_set]
  split
  · next h => rw [h]
  · rw [List.append_nil]

end KepServerLogger.Py
