import Mathlib.Data.List.Infix

/-!
# Regular expressions without alternatives

A pattern is a row of pieces; each takes characters of one class, once or
repeatedly. Matching backtracks: a greedy repetition first tries all the
characters that there are and then fewer, a lazy one the other way round, and
the first way in which the rest of the pattern matches too is the match.

A repetition whose class is disjoint from what may follow it has one way only,
and takes its run of characters as a whole. What remains to be known of a text
is then where no match begins, and three loops pass over such a stretch alike:
the lazy repetition, the search for all matches and the split at the matches.
-/

namespace KepServerLogger

variable {α β : Type*}

inductive Times
  | once
  | some
  | any
  | lazily

structure Piece (α : Type*) where
  accepts : α → Bool
  times : Times
  captured : Bool

abbrev Pattern (α : Type*) := List (Piece α)

namespace Piece

def one (p : α → Bool) : Piece α := ⟨p, .once, false⟩

def plus (p : α → Bool) : Piece α := ⟨p, .some, false⟩

def star (p : α → Bool) : Piece α := ⟨p, .any, false⟩

def lazyStar (p : α → Bool) : Piece α := ⟨p, .lazily, false⟩

def group (p : Piece α) : Piece α := { p with captured := true }

/-- As many characters as there are, or else fewer. -/
def greedy (p : α → Bool) (next : List α → Option β) : List α → Option (List α × β)
  | [] => (next []).map ([], ·)
  | c :: s =>
      if p c then
        ((greedy p next s).map fun (taken, b) => (c :: taken, b)).or ((next (c :: s)).map ([], ·))
      else (next (c :: s)).map ([], ·)

/-- As few characters as will do. -/
def lazily (p : α → Bool) (next : List α → Option β) : List α → Option (List α × β)
  | [] => (next []).map ([], ·)
  | c :: s =>
      ((next (c :: s)).map ([], ·)).or
        (if p c then (lazily p next s).map fun (taken, b) => (c :: taken, b) else none)

/-- What the piece takes, where `next` matches what is left. -/
def take (p : Piece α) (next : List α → Option β) (s : List α) : Option (List α × β) :=
  match p.times with
  | .any => greedy p.accepts next s
  | .lazily => lazily p.accepts next s
  | .once =>
      match s with
      | [] => none
      | c :: s => if p.accepts c then (next s).map ([c], ·) else none
  | .some =>
      match s with
      | [] => none
      | c :: s =>
          if p.accepts c then
            (greedy p.accepts next s).map fun (taken, b) => (c :: taken, b)
          else none

end Piece

/-- A part of the text that a pattern matches. -/
structure Found (α : Type*) where
  start : Nat
  stop : Nat
  groups : List (List α)

namespace Pattern

/-- The groups of the match that begins here, and the text after it. -/
def matchAt : Pattern α → List α → Option (List (List α) × List α)
  | [], s => some ([], s)
  | p :: ps, s =>
      (p.take (matchAt ps) s).map fun (taken, groups, rest) =>
        (if p.captured then taken :: groups else groups, rest)

/-- All matches from left to right, none beginning in the one before. The
pattern is one that takes a character at least. -/
def findFrom (r : Pattern α) : (pos skip : Nat) → List α → List (Found α)
  | _, _, [] => []
  | pos, skip + 1, _ :: s => findFrom r (pos + 1) skip s
  | pos, 0, c :: s =>
      match matchAt r (c :: s) with
      | none => findFrom r (pos + 1) 0 s
      | some (groups, rest) =>
          ⟨pos, pos + (s.length + 1 - rest.length), groups⟩ ::
            findFrom r (pos + 1) (s.length - rest.length) s

def findAll (r : Pattern α) (s : List α) : List (Found α) := findFrom r 0 0 s

/-- The text between the matches. -/
def splitFrom (r : Pattern α) : (skip : Nat) → List α → List (List α)
  | _, [] => [[]]
  | skip + 1, _ :: s => splitFrom r skip s
  | 0, c :: s =>
      match matchAt r (c :: s) with
      | none => (splitFrom r 0 s).modifyHead (c :: ·)
      | some (_, rest) => [] :: splitFrom r (s.length - rest.length) s

def split (r : Pattern α) (s : List α) : List (List α) := splitFrom r 0 s

/-- The characters of a text, one by one. -/
def text [DecidableEq α] (s : List α) : Pattern α := s.map fun c => .one (· = c)

end Pattern

/-! ## Beginnings of a text -/

/-- A beginning of two texts in a row ends in the first, or reaches into the second. -/
theorem prefix_append_cases {l a x : List α} (h : l <+: a ++ x) :
    l <+: a ∨ ∃ c mid, l = a ++ c :: mid ∧ (c :: mid) <+: x := by
  obtain ⟨y, hy⟩ := h
  rcases List.append_eq_append_iff.mp hy with ⟨mid, ha, -⟩ | ⟨mid, hl, hmid⟩
  · exact .inl ⟨mid, ha.symm⟩
  · cases mid with
    | nil =>
        rw [List.append_nil] at hl
        exact .inl (by rw [hl])
    | cons c mid => exact .inr ⟨c, mid, hl, ⟨y, hmid.symm⟩⟩

/-- Two readings of a text as a run of a class and something else are one. -/
theorem run_inj {q : α → Bool} {a b x y : List α} (ha : ∀ c ∈ a, q c = true)
    (hb : ∀ c ∈ b, q c = true) (hx : ∀ c ∈ x.head?, q c = false)
    (hy : ∀ c ∈ y.head?, q c = false) (h : a ++ x = b ++ y) : a = b ∧ x = y := by
  have hnil : ∀ {mid x y : List α}, (∀ c ∈ mid, q c = true) → (∀ c ∈ x.head?, q c = false) →
      x = mid ++ y → mid = [] := by
    intro mid x y hmid hx h
    cases mid with
    | nil => rfl
    | cons c mid =>
        have hc := hx c (by rw [h]; rfl)
        rw [hmid c List.mem_cons_self] at hc
        cases hc
  rcases List.append_eq_append_iff.mp h with ⟨mid, rfl, hxy⟩ | ⟨mid, rfl, hxy⟩
  · obtain rfl := hnil (fun c hc => hb c (List.mem_append_right _ hc)) hx hxy
    exact ⟨(List.append_nil a).symm, hxy⟩
  · obtain rfl := hnil (fun c hc => ha c (List.mem_append_right _ hc)) hy hxy
    exact ⟨List.append_nil b, hxy.symm⟩

/-! ## What a match is -/

namespace Piece

/-- The texts that a piece may take. -/
def Takes (p : Piece α) (t : List α) : Prop :=
  (∀ c ∈ t, p.accepts c = true) ∧
    match p.times with
    | .once => t.length = 1
    | .some => t ≠ []
    | .any | .lazily => True

variable {p : α → Bool} {next : List α → Option β} {s t : List α} {b : β}

/-- A run of the class is taken, and what is left goes on to be matched. -/
def Splits (p : α → Bool) (next : List α → Option β) (s t : List α) (b : β) : Prop :=
  ∃ rest, s = t ++ rest ∧ (∀ c ∈ t, p c = true) ∧ next rest = some b

theorem splits_nil (h : (next s).map (([] : List α), ·) = some (t, b)) :
    Splits p next s t b := by
  obtain ⟨b', hb, heq⟩ := Option.map_eq_some_iff.mp h
  cases heq
  exact ⟨s, rfl, by simp, hb⟩

theorem splits_cons {c : α} {taken : Option (List α × β)} (hc : p c = true)
    (htaken : ∀ t b, taken = some (t, b) → Splits p next s t b)
    (h : (taken.map fun (taken, b) => (c :: taken, b)) = some (t, b)) :
    Splits p next (c :: s) t b ∧ t ≠ [] := by
  obtain ⟨⟨taken', b'⟩, hsome, heq⟩ := Option.map_eq_some_iff.mp h
  cases heq
  obtain ⟨rest, rfl, hall, hrest⟩ := htaken _ _ hsome
  refine ⟨⟨rest, rfl, fun x hx => ?_, hrest⟩, List.cons_ne_nil _ _⟩
  rcases List.mem_cons.mp hx with rfl | hx
  · exact hc
  · exact hall x hx

theorem greedy_splits (h : greedy p next s = some (t, b)) : Splits p next s t b := by
  induction s generalizing t b with
  | nil => exact splits_nil h
  | cons c s ih =>
      unfold greedy at h
      split at h
      · next hc =>
          rcases Option.or_eq_some_iff.mp h with h | ⟨-, h⟩
          · exact (splits_cons hc (fun _ _ => ih) h).1
          · exact splits_nil h
      · exact splits_nil h

theorem lazily_splits (h : lazily p next s = some (t, b)) : Splits p next s t b := by
  induction s generalizing t b with
  | nil => exact splits_nil h
  | cons c s ih =>
      unfold lazily at h
      rcases Option.or_eq_some_iff.mp h with h | ⟨-, h⟩
      · exact splits_nil h
      · split at h
        · next hc => exact (splits_cons hc (fun _ _ => ih) h).1
        · cases h

theorem take_splits {p : Piece α} (h : p.take next s = some (t, b)) :
    ∃ rest, s = t ++ rest ∧ p.Takes t ∧ next rest = some b := by
  have hsplits : ∀ {t b}, p.times = .any ∨ p.times = .lazily → Splits p.accepts next s t b →
      ∃ rest, s = t ++ rest ∧ p.Takes t ∧ next rest = some b := by
    intro t b htimes h
    obtain ⟨rest, hs, hall, hrest⟩ := h
    refine ⟨rest, hs, ⟨hall, ?_⟩, hrest⟩
    rcases htimes with htimes | htimes <;> rw [htimes] <;> trivial
  unfold take at h
  split at h
  · next htimes => exact hsplits (.inl htimes) (greedy_splits h)
  · next htimes => exact hsplits (.inr htimes) (lazily_splits h)
  · next htimes =>
      split at h
      · cases h
      · next c s =>
          split at h
          · next hc =>
              obtain ⟨b', hb, heq⟩ := Option.map_eq_some_iff.mp h
              cases heq
              refine ⟨s, rfl, ⟨by simpa using hc, ?_⟩, hb⟩
              rw [htimes]
              rfl
          · cases h
  · next htimes =>
      split at h
      · cases h
      · next c s =>
          split at h
          · next hc =>
              obtain ⟨⟨rest, hs, hall, hrest⟩, hne⟩ := splits_cons hc (fun _ _ => greedy_splits) h
              refine ⟨rest, hs, ⟨hall, ?_⟩, hrest⟩
              rw [htimes]
              exact hne
          · cases h

/-- A repetition comes to every end of the run before which `next` matches. -/
theorem isSome_greedy (ht : ∀ c ∈ t, p c = true) (hnext : (next s).isSome) :
    (greedy p next (t ++ s)).isSome := by
  induction t with
  | nil =>
      cases s with
      | nil => rwa [List.append_nil, greedy, Option.isSome_map]
      | cons c s =>
          rw [List.nil_append, greedy]
          split
          · simp [hnext]
          · rwa [Option.isSome_map]
  | cons c t ih =>
      obtain ⟨hc, ht⟩ := List.forall_mem_cons.mp ht
      rw [List.cons_append, greedy, if_pos hc]
      simp [ih ht]

theorem isSome_lazily (ht : ∀ c ∈ t, p c = true) (hnext : (next s).isSome) :
    (lazily p next (t ++ s)).isSome := by
  induction t with
  | nil => cases s <;> simp [lazily, hnext]
  | cons c t ih =>
      obtain ⟨hc, ht⟩ := List.forall_mem_cons.mp ht
      rw [List.cons_append, lazily, if_pos hc]
      simp [ih ht]

/-- Backtracking finds a match if there is one. -/
theorem isSome_take_iff {p : Piece α} :
    (p.take next s).isSome ↔ ∃ t rest, s = t ++ rest ∧ p.Takes t ∧ (next rest).isSome := by
  constructor
  · intro h
    obtain ⟨⟨t, b⟩, htake⟩ := Option.isSome_iff_exists.mp h
    obtain ⟨rest, hs, htakes, hnext⟩ := take_splits htake
    exact ⟨t, rest, hs, htakes, by rw [hnext]; rfl⟩
  · rintro ⟨t, rest, rfl, ⟨hall, htimes⟩, hnext⟩
    unfold take
    cases hp : p.times with
    | any => exact isSome_greedy hall hnext
    | lazily => exact isSome_lazily hall hnext
    | once =>
        rw [hp] at htimes
        obtain ⟨c, rfl⟩ := List.length_eq_one_iff.mp htimes
        simp [hall c List.mem_cons_self, hnext]
    | some =>
        rw [hp] at htimes
        obtain ⟨c, t, rfl⟩ := List.exists_cons_of_ne_nil htimes
        obtain ⟨hc, hall⟩ := List.forall_mem_cons.mp hall
        simp [hc, isSome_greedy hall hnext]

end Piece

namespace Pattern

variable {r ps qs : Pattern α} {p : Piece α} {s t : List α} {m : List (List α) × List α}

theorem matchAt_cons_eq_some (h : matchAt (p :: ps) s = some m) :
    ∃ t rest groups, s = t ++ rest ∧ p.Takes t ∧ matchAt ps rest = some (groups, m.2) ∧
      m.1 = if p.captured then t :: groups else groups := by
  obtain ⟨⟨t, groups, rest⟩, htake, heq⟩ := Option.map_eq_some_iff.mp h
  obtain ⟨rest', hs, htakes, hrest⟩ := Piece.take_splits htake
  subst heq
  exact ⟨t, rest', groups, hs, htakes, hrest, rfl⟩

/-- A match of two patterns in a row. -/
theorem matchAt_append_eq_some (h : matchAt (ps ++ qs) s = some m) :
    ∃ t rest groups groups', s = t ++ rest ∧ matchAt qs rest = some (groups, m.2) ∧
      m.1 = groups' ++ groups := by
  induction ps generalizing s m with
  | nil => exact ⟨[], s, m.1, [], rfl, h, rfl⟩
  | cons p ps ih =>
      obtain ⟨t, rest, groups, rfl, -, hrest, hgroups⟩ := matchAt_cons_eq_some h
      obtain ⟨t', rest', groups', before, rfl, hqs, heq⟩ := ih hrest
      obtain rfl : groups = before ++ groups' := heq
      refine ⟨t ++ t', rest', groups', if p.captured then t :: before else before,
        (List.append_assoc _ _ _).symm, hqs, ?_⟩
      rw [hgroups]
      split <;> rfl

/-! ## Pieces with one way only -/

/-- No match begins with the character. -/
def Refuses (r : Pattern α) (c : α) : Prop := ∀ s, matchAt r (c :: s) = none

/-- What a piece adds to the match of the rest. -/
def capture (p : Piece α) (t : List α) (m : List (List α) × List α) : List (List α) × List α :=
  (if p.captured then t :: m.1 else m.1, m.2)

theorem matchAt_cons (p : Piece α) (ps : Pattern α) (s : List α) :
    matchAt (p :: ps) s = (p.take (matchAt ps) s).map fun (t, m) => capture p t m := rfl

@[simp] theorem matchAt_one_nil (p : α → Bool) : matchAt (.one p :: ps) [] = none := rfl

@[simp] theorem matchAt_one_cons (p : α → Bool) (c : α) :
    matchAt (.one p :: ps) (c :: s) = if p c then matchAt ps s else none := by
  simp only [matchAt_cons, Piece.take, Piece.one]
  split
  · rw [Option.map_map]
    exact congrFun Option.map_id _
  · rfl

theorem refuses_one {p : α → Bool} {c : α} (h : p c = false) : Refuses (.one p :: ps) c := by
  intro s
  rw [matchAt_one_cons, if_neg (by simp [h])]

theorem refuses_some {c : α} (htimes : p.times = .some) (h : p.accepts c = false) :
    Refuses (p :: ps) c := by
  intro s
  simp only [matchAt_cons, Piece.take, htimes]
  rw [if_neg (by simp [h])]
  rfl

theorem matchAt_star_nil (p : α → Bool) : matchAt (.star p :: ps) [] = matchAt ps [] := by
  simp only [matchAt_cons, Piece.take, Piece.star, Piece.greedy]
  rw [Option.map_map]
  exact congrFun Option.map_id _

/-- A repetition that is not captured, one character on. -/
theorem matchAt_star_cons (p : α → Bool) (c : α) :
    matchAt (.star p :: ps) (c :: s) =
      if p c then (matchAt (.star p :: ps) s).or (matchAt ps (c :: s)) else matchAt ps (c :: s) := by
  simp only [matchAt_cons, Piece.take, Piece.star, Piece.greedy]
  have hnil : ((matchAt ps (c :: s)).map (([] : List α), ·)).map
      (fun (t, m) => capture ⟨p, .any, false⟩ t m) = matchAt ps (c :: s) := by
    rw [Option.map_map]
    exact congrFun Option.map_id _
  split
  · rw [Option.map_or, hnil, Option.map_map]
    rfl
  · exact hnil

theorem refuses_star {p : α → Bool} {c : α} (h : p c = false) (hps : Refuses ps c) :
    Refuses (.star p :: ps) c := by
  intro s
  rw [matchAt_star_cons, if_neg (by simp [h])]
  exact hps s

theorem greedy_run {p : α → Bool} {next : List α → Option β} {run s : List α}
    (hrun : ∀ c ∈ run, p c = true) (hs : ∀ c ∈ s.head?, p c = false)
    (hnext : ∀ c s, p c = true → next (c :: s) = none) :
    Piece.greedy p next (run ++ s) = (next s).map (run, ·) := by
  induction run with
  | nil =>
      cases s with
      | nil => rfl
      | cons c s =>
          have hc : ¬ p c = true := by simp [hs c rfl]
          exact if_neg hc
  | cons c run ih =>
      have hc := hrun c List.mem_cons_self
      rw [List.cons_append, Piece.greedy, if_pos hc, hnext c _ hc,
        ih fun x hx => hrun x (List.mem_cons_of_mem _ hx), Option.map_map]
      exact Option.or_none

/-- A greedy repetition takes its run of characters as a whole, where the rest
of the pattern refuses them. -/
theorem matchAt_run {run : List α}
    (htimes : p.times = .any ∨ p.times = .some ∧ run ≠ [])
    (hrun : ∀ c ∈ run, p.accepts c = true) (hs : ∀ c ∈ s.head?, p.accepts c = false)
    (hnext : ∀ c, p.accepts c = true → Refuses ps c) :
    matchAt (p :: ps) (run ++ s) = (matchAt ps s).map (capture p run) := by
  rw [matchAt_cons]
  have htake : p.take (matchAt ps) (run ++ s) = (matchAt ps s).map (run, ·) := by
    rcases htimes with htimes | ⟨htimes, hne⟩
    · simp only [Piece.take, htimes]
      exact greedy_run hrun hs fun c s hc => hnext c hc s
    · obtain ⟨c, run, rfl⟩ := List.exists_cons_of_ne_nil hne
      simp only [Piece.take, htimes, List.cons_append]
      rw [if_pos (hrun c List.mem_cons_self),
        greedy_run (fun x hx => hrun x (List.mem_cons_of_mem _ hx)) hs fun c s hc => hnext c hc s,
        Option.map_map]
      rfl
  rw [htake, Option.map_map]
  rfl

theorem matchAt_plus {q : α → Bool} {run : List α} (hne : run ≠ [])
    (hrun : ∀ c ∈ run, q c = true) (hs : ∀ c ∈ s.head?, q c = false)
    (hnext : ∀ c, q c = true → Refuses ps c) :
    matchAt (.plus q :: ps) (run ++ s) = matchAt ps s := by
  rw [matchAt_run (.inr ⟨rfl, hne⟩) hrun hs hnext]
  exact congrFun Option.map_id _

theorem matchAt_group_plus {q : α → Bool} {run : List α} (hne : run ≠ [])
    (hrun : ∀ c ∈ run, q c = true) (hs : ∀ c ∈ s.head?, q c = false)
    (hnext : ∀ c, q c = true → Refuses ps c) :
    matchAt (.group (.plus q) :: ps) (run ++ s) =
      (matchAt ps s).map fun m => (run :: m.1, m.2) := by
  rw [matchAt_run (.inr ⟨rfl, hne⟩) hrun hs hnext]
  rfl

/-- A run with a certain character somewhere in it. -/
theorem matchAt_run_with {p q : α → Bool} {run : List α} (hsub : ∀ c, q c = true → p c = true)
    (hrun : ∀ c ∈ run, p c = true) (hs : ∀ c ∈ s.head?, p c = false)
    (hnext : ∀ c, p c = true → Refuses ps c) :
    matchAt (.star p :: .one q :: .star p :: ps) (run ++ s) =
      if ∃ c ∈ run, q c = true then matchAt ps s else none := by
  induction run with
  | nil =>
      rw [if_neg (by simp), List.nil_append]
      cases s with
      | nil => rw [matchAt_star_nil, matchAt_one_nil]
      | cons c s =>
          have hc : p c = false := hs c rfl
          have hq : ¬ q c = true := fun hq => by simp [hsub c hq] at hc
          rw [matchAt_star_cons, if_neg (by simp [hc]), matchAt_one_cons, if_neg hq]
  | cons c run ih =>
      have hall := fun x hx => hrun x (List.mem_cons_of_mem c hx)
      have hrest : matchAt (.star p :: ps) (run ++ s) = matchAt ps s := by
        rw [matchAt_run (.inl rfl) hall hs hnext]
        exact congrFun Option.map_id _
      rw [List.cons_append, matchAt_star_cons, if_pos (hrun c List.mem_cons_self), ih hall,
        matchAt_one_cons, hrest]
      by_cases hq : q c = true
      · have hhead : ∃ x ∈ c :: run, q x = true := ⟨c, List.mem_cons_self, hq⟩
        rw [if_pos hq, if_pos hhead]
        split
        · exact Option.or_self
        · rfl
      · rw [if_neg hq, Option.or_none]
        simp [hq]

theorem matchAt_text [DecidableEq α] (t : List α) (ps : Pattern α) (s : List α) :
    matchAt (text t ++ ps) (t ++ s) = matchAt ps s := by
  induction t with
  | nil => rfl
  | cons c t ih =>
      show matchAt (.one (· = c) :: (text t ++ ps)) (c :: (t ++ s)) = _
      rw [matchAt_one_cons, if_pos (by simp), ih]

theorem matchAt_text_eq_some [DecidableEq α] {t : List α} (h : matchAt (text t ++ ps) s = some m) :
    ∃ rest, s = t ++ rest ∧ matchAt ps rest = some m := by
  induction t generalizing s with
  | nil => exact ⟨s, rfl, h⟩
  | cons c t ih =>
      have hcons : matchAt (.one (· = c) :: (text t ++ ps)) s = some m := h
      cases s with
      | nil => cases hcons
      | cons x s =>
          rw [matchAt_one_cons] at hcons
          split at hcons
          · next hx =>
              obtain ⟨rest, rfl, hrest⟩ := ih hcons
              exact ⟨rest, by rw [of_decide_eq_true hx]; rfl, hrest⟩
          · cases hcons

/-! ## Where no match begins -/

/-- No match begins in a text that is followed by `rest`. -/
def Avoids (r : Pattern α) (t rest : List α) : Prop :=
  ∀ a b, t = a ++ b → b ≠ [] → matchAt r (b ++ rest) = none

namespace Avoids

variable {rest : List α}

theorem nil : Avoids r [] rest := by
  intro a b h hne
  exact absurd (List.append_eq_nil_iff.mp h.symm).2 hne

theorem head {c : α} (h : Avoids r (c :: t) rest) : matchAt r (c :: (t ++ rest)) = none :=
  h [] (c :: t) rfl (List.cons_ne_nil _ _)

theorem of_append {t' : List α} (h : Avoids r (t ++ t') rest) : Avoids r t' rest := by
  intro a b hab hne
  exact h (t ++ a) b (by rw [hab, List.append_assoc]) hne

theorem tail {c : α} (h : Avoids r (c :: t) rest) : Avoids r t rest := of_append (t := [c]) h

theorem append {t' : List α} (h : Avoids r t (t' ++ rest)) (h' : Avoids r t' rest) :
    Avoids r (t ++ t') rest := by
  intro a b hab hne
  rcases List.append_eq_append_iff.mp hab with ⟨mid, rfl, ht'⟩ | ⟨mid, ht, rfl⟩
  · exact h' mid b ht' hne
  · by_cases hmid : mid = []
    · subst hmid
      exact h' [] t' rfl hne
    · rw [List.append_assoc]
      exact h a mid ht hmid

theorem of_refuses (h : ∀ c ∈ t, Refuses r c) : Avoids r t rest := by
  intro a b hab hne
  obtain ⟨c, b, rfl⟩ := List.exists_cons_of_ne_nil hne
  exact h c (by rw [hab]; simp) _

end Avoids

/-! ## The three loops -/

variable {groups : List (List α)} {rest : List α}

theorem findFrom_avoids (h : Avoids r t rest) (pos : Nat) :
    findFrom r pos 0 (t ++ rest) = findFrom r (pos + t.length) 0 rest := by
  induction t generalizing pos with
  | nil => rfl
  | cons c t ih =>
      rw [List.cons_append, findFrom, h.head]
      show findFrom r (pos + 1) 0 (t ++ rest) = _
      rw [ih h.tail, List.length_cons, Nat.add_assoc, Nat.add_comm 1]

theorem findFrom_skip (t : List α) (pos : Nat) :
    findFrom r pos t.length (t ++ rest) = findFrom r (pos + t.length) 0 rest := by
  induction t generalizing pos with
  | nil => rfl
  | cons c t ih =>
      rw [List.cons_append, List.length_cons, findFrom, ih, Nat.add_assoc, Nat.add_comm 1]

theorem findFrom_match (hne : t ≠ []) (h : matchAt r (t ++ rest) = some (groups, rest))
    (pos : Nat) :
    findFrom r pos 0 (t ++ rest) =
      ⟨pos, pos + t.length, groups⟩ :: findFrom r (pos + t.length) 0 rest := by
  obtain ⟨c, t, rfl⟩ := List.exists_cons_of_ne_nil hne
  have hstop : (t ++ rest).length + 1 - rest.length = (c :: t).length := by
    rw [List.length_append, List.length_cons]
    omega
  have hskip : (t ++ rest).length - rest.length = t.length := by
    rw [List.length_append]
    omega
  rw [List.cons_append] at h ⊢
  rw [findFrom, h]
  show _ :: findFrom r (pos + 1) _ (t ++ rest) = _
  rw [hstop, hskip, findFrom_skip, List.length_cons, Nat.add_assoc, Nat.add_comm 1]

theorem splitFrom_ne_nil (r : Pattern α) (skip : Nat) (s : List α) : splitFrom r skip s ≠ [] := by
  induction s generalizing skip with
  | nil => cases skip <;> exact List.cons_ne_nil _ _
  | cons c s ih =>
      cases skip with
      | succ skip => exact ih skip
      | zero =>
          rw [splitFrom]
          split
          · intro h
            exact ih 0 (List.modifyHead_eq_nil_iff.mp h)
          · exact List.cons_ne_nil _ _

theorem splitFrom_skip (t : List α) : splitFrom r t.length (t ++ rest) = splitFrom r 0 rest := by
  induction t with
  | nil => rfl
  | cons c t ih => exact ih

theorem split_avoids (h : Avoids r t rest) :
    split r (t ++ rest) = (split r rest).modifyHead (t ++ ·) := by
  induction t with
  | nil =>
      cases hsplit : split r rest with
      | nil => exact absurd hsplit (splitFrom_ne_nil r 0 rest)
      | cons part parts => exact hsplit
  | cons c t ih =>
      have hhead := h.head
      have ih := ih h.tail
      unfold split at ih ⊢
      rw [List.cons_append, splitFrom, hhead]
      show (splitFrom r 0 (t ++ rest)).modifyHead (c :: ·) = _
      rw [ih, List.modifyHead_modifyHead]
      rfl

theorem split_self (h : Avoids r t []) : split r t = [t] := by
  have hsplit := split_avoids h
  rw [List.append_nil] at hsplit
  rw [hsplit]
  exact congrArg (fun x => [x]) (List.append_nil t)

/-- The text before the first match is the first part. -/
theorem split_match {sep : List α} (h : Avoids r t (sep ++ rest)) (hne : sep ≠ [])
    (hmatch : matchAt r (sep ++ rest) = some (groups, rest)) :
    split r (t ++ (sep ++ rest)) = t :: split r rest := by
  rw [split_avoids h]
  obtain ⟨c, sep, rfl⟩ := List.exists_cons_of_ne_nil hne
  rw [List.cons_append] at hmatch ⊢
  have hskip : (sep ++ rest).length - rest.length = sep.length := by
    rw [List.length_append]
    omega
  unfold split
  rw [splitFrom, hmatch]
  show List.modifyHead (t ++ ·) ([] :: splitFrom r _ (sep ++ rest)) = _
  rw [hskip, splitFrom_skip, List.modifyHead_cons, List.append_nil]

/-! ## A lazy repetition of any character -/

def anyLazily : Piece α := .group (.lazyStar fun _ => true)

theorem lazily_avoids (h : Avoids r t rest) :
    Piece.lazily (fun _ => true) (matchAt r) (t ++ rest) =
      (Piece.lazily (fun _ => true) (matchAt r) rest).map fun (taken, m) => (t ++ taken, m) := by
  induction t with
  | nil => exact (congrFun Option.map_id _).symm
  | cons c t ih =>
      rw [List.cons_append, Piece.lazily, h.head, ih h.tail, if_pos rfl, Option.map_map]
      rfl

/-- It stops where the rest of the pattern first matches. -/
theorem matchAt_anyLazily (h : Avoids r t rest) (hrest : matchAt r rest = some m) :
    matchAt (anyLazily :: r) (t ++ rest) = some (t :: m.1, m.2) := by
  have hzero : Piece.lazily (fun _ => true) (matchAt r) rest = some ([], m) := by
    cases rest with
    | nil => rw [Piece.lazily, hrest, Option.map_some]
    | cons c rest => rw [Piece.lazily, hrest, Option.map_some, Option.some_or]
  have htake : anyLazily.take (matchAt r) (t ++ rest) = some (t, m) := by
    show Piece.lazily (fun _ => true) (matchAt r) (t ++ rest) = _
    rw [lazily_avoids h, hzero, Option.map_some]
    exact congrArg (fun taken => some (taken, m)) (List.append_nil t)
  rw [matchAt_cons, htake]
  rfl

theorem isSome_anyLazily :
    (matchAt (anyLazily :: r) s).isSome ↔ ∃ a x, s = a ++ x ∧ (matchAt r x).isSome := by
  rw [matchAt_cons, Option.isSome_map, Piece.isSome_take_iff]
  constructor
  · rintro ⟨a, x, hs, -, hx⟩
    exact ⟨a, x, hs, hx⟩
  · rintro ⟨a, x, hs, hx⟩
    exact ⟨a, x, hs, ⟨fun _ _ => rfl, trivial⟩, hx⟩

/-! ## Patterns that are anchored at the end -/

/-- As `matchAt`, where the match has to end before a text that `stop` takes. -/
def matchTo (stop : List α → Bool) : Pattern α → List α → Option (List (List α) × List α)
  | [], s => if stop s then some ([], s) else none
  | p :: ps, s =>
      (p.take (matchTo stop ps) s).map fun (taken, groups, rest) =>
        (if p.captured then taken :: groups else groups, rest)

/-- The texts that a pattern reads as a whole. -/
def Reads : Pattern α → List α → Prop
  | [], t => t = []
  | p :: ps, t => ∃ a b, t = a ++ b ∧ p.Takes a ∧ Reads ps b

/-- A pattern that is anchored at both ends matches its texts, each followed
by what may come after the end. -/
theorem isSome_matchTo_iff (stop : List α → Bool) (ps : Pattern α) (s : List α) :
    (matchTo stop ps s).isSome ↔ ∃ t rest, s = t ++ rest ∧ Reads ps t ∧ stop rest = true := by
  induction ps generalizing s with
  | nil =>
      constructor
      · intro h
        rw [matchTo, Option.isSome_ite] at h
        exact ⟨[], s, rfl, rfl, h⟩
      · rintro ⟨_, rest, rfl, rfl, hstop⟩
        rw [matchTo, Option.isSome_ite]
        exact hstop
  | cons p ps ih =>
      rw [matchTo, Option.isSome_map, Piece.isSome_take_iff]
      constructor
      · rintro ⟨a, rest, rfl, ha, hrest⟩
        obtain ⟨b, rest, rfl, hb, hstop⟩ := (ih rest).mp hrest
        exact ⟨a ++ b, rest, (List.append_assoc a b rest).symm, ⟨a, b, rfl, ha, hb⟩, hstop⟩
      · rintro ⟨_, rest, rfl, ⟨a, b, rfl, ha, hb⟩, hstop⟩
        exact ⟨a, b ++ rest, List.append_assoc a b rest, ha, (ih _).mpr ⟨b, rest, rfl, hb, hstop⟩⟩

end Pattern

end KepServerLogger
