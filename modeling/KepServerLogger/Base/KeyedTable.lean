import Mathlib.Data.List.Nodup
import Mathlib.Data.List.Perm.Basic

/-!
# Tables with a primary key

A table that is offered rows one after another and skips a row whose key it
already has. It keeps the first row of each key, in the order in which the
keys first came, whatever comes later and however often; so two sequences of
rows leave the same table as soon as they agree on the first row of each key.
-/

namespace KepServerLogger.KeyedTable

variable {α β κ κ' : Type*} [DecidableEq κ] [DecidableEq κ'] (key : α → κ)

def insert (t : List α) (x : α) : List α := if key x ∈ t.map key then t else t ++ [x]

def insertAll (t l : List α) : List α := l.foldl (insert key) t

variable {key} {t l l' : List α} {x : α}

theorem nodup_keys_insert (h : (t.map key).Nodup) : ((insert key t x).map key).Nodup := by
  unfold insert
  split
  · exact h
  · next hnew =>
      rw [List.map_append, List.map_singleton, List.nodup_append]
      refine ⟨h, List.nodup_singleton _, fun a ha b hb hab => hnew ?_⟩
      rw [← List.mem_singleton.mp hb, ← hab]
      exact ha

theorem nodup_keys_insertAll (h : (t.map key).Nodup) : ((insertAll key t l).map key).Nodup := by
  induction l generalizing t with
  | nil => exact h
  | cons x rest ih => exact ih (nodup_keys_insert h)

theorem nodup_keys_nil : ((insertAll key [] l).map key).Nodup :=
  nodup_keys_insertAll (t := []) List.nodup_nil

/-- What a table finds under a key is the first row that came with it. -/
theorem find?_insertAll (k : κ) :
    (insertAll key t l).find? (key · = k) = (t ++ l).find? (key · = k) := by
  induction l generalizing t with
  | nil => rw [List.append_nil]; rfl
  | cons x rest ih =>
      show (insertAll key (insert key t x) rest).find? _ = _
      rw [ih]
      unfold insert
      split
      · next hold =>
          obtain ⟨y, hy, hkey⟩ := List.mem_map.mp hold
          rw [List.find?_append, List.find?_append, List.find?_cons]
          split
          · next hx =>
              have hfound : (t.find? (key · = k)).isSome = true :=
                List.find?_isSome.mpr ⟨y, hy, by rw [hkey]; exact hx⟩
              obtain ⟨z, hz⟩ := Option.isSome_iff_exists.mp hfound
              rw [hz]
              rfl
          · rfl
      · rw [List.append_assoc, List.singleton_append]

theorem mem_iff_find? (h : (t.map key).Nodup) :
    x ∈ t ↔ t.find? (key · = key x) = some x := by
  induction t with
  | nil => simp
  | cons y rest ih =>
      rw [List.map_cons, List.nodup_cons] at h
      rw [List.mem_cons, List.find?_cons, ih h.2]
      split
      · next hkey =>
          rw [decide_eq_true_eq] at hkey
          constructor
          · intro hx
            rcases hx with rfl | hx
            · rfl
            · refine absurd ?_ h.1
              rw [hkey]
              exact List.mem_map_of_mem (List.mem_of_find?_eq_some hx)
          · intro hx
            cases hx
            exact .inl rfl
      · next hkey =>
          rw [decide_eq_false_iff_not] at hkey
          constructor
          · intro hx
            rcases hx with rfl | hx
            · exact absurd rfl hkey
            · exact hx
          · exact .inr

/-- The rows of a table that starts empty. -/
theorem mem_insertAll_nil :
    x ∈ insertAll key [] l ↔ l.find? (key · = key x) = some x := by
  rw [mem_iff_find? nodup_keys_nil, find?_insertAll, List.nil_append]

/-- Two sequences that agree on the first row of each key leave the same
table. -/
theorem perm_insertAll (h : ∀ k, l.find? (key · = k) = l'.find? (key · = k)) :
    (insertAll key [] l).Perm (insertAll key [] l') := by
  refine (List.perm_ext_iff_of_nodup ?_ ?_).mpr fun x => ?_
  · exact nodup_keys_nil.of_map
  · exact nodup_keys_nil.of_map
  · rw [mem_insertAll_nil, mem_insertAll_nil, h]

/-! ## Repeats -/

/-- The second list is the first with entries repeated, each after it first
came. -/
inductive Repeats : List β → List β → Prop
  | nil : Repeats [] []
  | next {l l' : List β} (x : β) : Repeats l l' → Repeats (l ++ [x]) (l' ++ [x])
  | again {l l' : List β} (x : β) : Repeats l l' → x ∈ l' → Repeats l (l' ++ [x])

/-- What a repeated entry offers is not the first of its key. -/
theorem Repeats.find?_flatMap {l l' : List β} (h : Repeats l l') (f : β → List α) (k : κ) :
    (l.flatMap f).find? (key · = k) = (l'.flatMap f).find? (key · = k) := by
  induction h with
  | nil => rfl
  | next x _ ih =>
      rw [List.flatMap_append, List.flatMap_append, List.find?_append, List.find?_append, ih]
  | @again l l' x _ hx ih =>
      rw [List.flatMap_append, List.flatMap_singleton, List.find?_append, ← ih]
      cases hfirst : (l.flatMap f).find? (key · = k) with
      | some y => rfl
      | none =>
          rw [ih] at hfirst
          rw [Option.none_or, eq_comm, List.find?_eq_none]
          intro y hy
          exact List.find?_eq_none.mp hfirst y (List.mem_flatMap.mpr ⟨x, hx, hy⟩)

/-- The first rows of two sequences with no key in common, found in any order
that takes from either. -/
theorem find?_or_comm {a b : List α} (h : ∀ x ∈ a, ∀ y ∈ b, key x ≠ key y) (k : κ) :
    (a.find? (key · = k)).or (b.find? (key · = k)) =
      (b.find? (key · = k)).or (a.find? (key · = k)) := by
  cases ha : a.find? (key · = k) with
  | none => rw [Option.none_or, Option.or_none]
  | some x =>
      cases hb : b.find? (key · = k) with
      | none => rfl
      | some y =>
          have hx : key x = k := by simpa using List.find?_some ha
          have hy : key y = k := by simpa using List.find?_some hb
          exact absurd (hx.trans hy.symm)
            (h x (List.mem_of_find?_eq_some ha) y (List.mem_of_find?_eq_some hb))

/-- The first rows of two sequences that are offered piece by piece, if they
have no key in common. -/
theorem find?_flatMap_append {f g : β → List α} {l : List β}
    (h : ∀ x ∈ l.flatMap g, ∀ y ∈ l.flatMap f, key x ≠ key y) (k : κ) :
    (l.flatMap fun b => f b ++ g b).find? (key · = k) =
      ((l.flatMap g).find? (key · = k)).or ((l.flatMap f).find? (key · = k)) := by
  induction l with
  | nil => rfl
  | cons b rest ih =>
      simp only [List.flatMap_cons] at h ⊢
      have hrest : ∀ x ∈ rest.flatMap g, ∀ y ∈ rest.flatMap f, key x ≠ key y := fun x hx y hy =>
        h x (List.mem_append_right _ hx) y (List.mem_append_right _ hy)
      have hcomm := find?_or_comm
        (fun x hx y hy => h x hx y (List.mem_append_left (rest.flatMap f) hy)) k
      simp only [List.find?_append] at hcomm ⊢
      rw [ih hrest]
      have hboth := congrArg (·.or ((rest.flatMap f).find? (key · = k))) hcomm
      simpa only [Option.or_assoc] using hboth.symm

theorem Repeats.subset {l l' : List β} (h : Repeats l l') : l ⊆ l' := by
  induction h with
  | nil => exact List.Subset.refl _
  | next x _ ih =>
      refine List.append_subset.mpr ⟨?_, List.subset_append_right _ _⟩
      exact List.Subset.trans ih (List.subset_append_left _ _)
  | again x _ _ ih => exact List.Subset.trans ih (List.subset_append_left _ _)

/-! ## Rows made of something else -/

theorem insertAll_map (f : β → α) {t l : List β} :
    insertAll key (t.map f) (l.map f) = (insertAll (key ∘ f) t l).map f := by
  induction l generalizing t with
  | nil => rfl
  | cons x rest ih =>
      have hinsert : insert key (t.map f) (f x) = (insert (key ∘ f) t x).map f := by
        unfold insert
        rw [List.map_map, apply_ite (List.map f), List.map_append, List.map_singleton]
        rfl
      show insertAll key (insert key (t.map f) (f x)) (rest.map f) = _
      rw [hinsert, ih]
      rfl

/-- Keys that tell the same rows apart. -/
theorem insertAll_congr {key' : α → κ'} {s : List α} (ht : t ⊆ s) (hl : l ⊆ s)
    (h : ∀ x ∈ s, ∀ y ∈ s, key x = key y ↔ key' x = key' y) :
    insertAll key t l = insertAll key' t l := by
  induction l generalizing t with
  | nil => rfl
  | cons x rest ih =>
      rw [List.cons_subset] at hl
      have hmem : key x ∈ t.map key ↔ key' x ∈ t.map key' := by
        simp only [List.mem_map]
        exact exists_congr fun y => and_congr_right fun hy => h y (ht hy) x hl.1
      have hinsert : insert key t x = insert key' t x := by
        unfold insert
        simp only [hmem]
      show insertAll key (insert key t x) rest = insertAll key' (insert key' t x) rest
      rw [← hinsert]
      refine ih ?_ hl.2
      unfold insert
      split
      · exact ht
      · exact List.append_subset.mpr ⟨ht, List.cons_subset.mpr ⟨hl.1, List.nil_subset s⟩⟩

variable [DecidableEq β]

theorem mem_insertAll_id {y : β} {l : List β} : y ∈ insertAll id [] l ↔ y ∈ l := by
  rw [mem_insertAll_nil]
  constructor
  · exact List.mem_of_find?_eq_some
  · intro hy
    have hfound : (l.find? (id · = id y)).isSome = true :=
      List.find?_isSome.mpr ⟨y, hy, decide_eq_true rfl⟩
    obtain ⟨z, hz⟩ := Option.isSome_iff_exists.mp hfound
    have heq : z = y := by simpa using List.find?_some hz
    rw [hz, heq]

/-- The table has one row for each of the things the rows are made of exactly
if no two of them share a key. -/
theorem insertAll_map_eq_iff (f : β → α) {l : List β} :
    insertAll key [] (l.map f) = (insertAll id [] l).map f ↔
      ∀ x ∈ l, ∀ y ∈ l, key (f x) = key (f y) → x = y := by
  rw [← List.map_nil (f := f), insertAll_map]
  constructor
  · intro heq x hx y hy hxy
    have hnodup : ((insertAll id [] l).map (key ∘ f)).Nodup := by
      rw [← List.map_map, ← heq, List.map_map]
      exact nodup_keys_nil
    exact List.inj_on_of_nodup_map hnodup (mem_insertAll_id.mpr hx) (mem_insertAll_id.mpr hy)
      hxy
  · intro hinj
    have hkeys : ∀ x ∈ l, ∀ y ∈ l, (key ∘ f) x = (key ∘ f) y ↔ id x = id y :=
      fun x hx y hy => ⟨hinj x hx y hy, fun h => congrArg (key ∘ f) h⟩
    rw [insertAll_congr (List.nil_subset l) (List.Subset.refl l) hkeys]

end KepServerLogger.KeyedTable
