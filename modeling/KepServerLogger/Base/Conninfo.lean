import Mathlib.Algebra.Order.BigOperators.Group.List
import Mathlib.Algebra.Order.Ring.Nat
import Mathlib.Data.List.TakeWhile
import KepServerLogger.Py.Dict

/-!
# Connection strings

The keyword/value form of libpq: `keyword=value` one after the other with
white space between them, also around the equals sign. A value in single
quotes may hold anything; otherwise it goes up to the next white space. In
both a backslash takes the next character as it is. A keyword that comes again
replaces the value it had. The text is a C string, so it ends where a NUL is.

What is written without quotes is read back as it was exactly if no value has
a character that means something here. That no such text is read back by
accident, with values cut off in one place and set in another, is a matter of
length: the values that are read, their keywords and what must stand between
them already take up the whole text.
-/

namespace KepServerLogger.Conninfo

open KepServerLogger.Py

/-- `isspace` -/
def isBlank (c : Char) : Bool := c = ' ' || ('\t' ≤ c && c ≤ '\r')

/-- The keyword in front of an equals sign, and what comes after that. -/
def keyword (s : List Char) : Option (List Char × List Char) :=
  match (s.dropWhile fun c => c ≠ '=' && !isBlank c).dropWhile isBlank with
  | '=' :: rest => some (s.takeWhile fun c => c ≠ '=' && !isBlank c, rest)
  | _ => none

/-- A value without quotes, and what comes after the blank that ends it. -/
def unquoted : List Char → List Char × List Char
  | [] => ([], [])
  | ['\\'] => ([], [])
  | '\\' :: c :: rest => let (value, after) := unquoted rest; (c :: value, after)
  | c :: rest =>
      if isBlank c then ([], rest) else let (value, after) := unquoted rest; (c :: value, after)

/-- A value after its opening quote; `none` where the closing one is missing. -/
def quoted : List Char → Option (List Char × List Char)
  | [] => none
  | ['\\'] => none
  | '\\' :: c :: rest => (quoted rest).map fun p => (c :: p.1, p.2)
  | c :: rest =>
      if c = '\'' then some ([], rest) else (quoted rest).map fun p => (c :: p.1, p.2)

def value (s : List Char) : Option (List Char × List Char) :=
  match s.dropWhile isBlank with
  | '\'' :: rest => quoted rest
  | s => some (unquoted s)

/-- The keywords with their values. Each takes up a character at least, so the
length of the text is enough fuel. -/
def pairs : Nat → List Char → Option (List (String × String))
  | 0, _ => some []
  | n + 1, s =>
      match s.dropWhile isBlank with
      | [] => some []
      | s =>
          match keyword s with
          | none => none
          | some (name, rest) =>
              match value rest with
              | none => none
              | some (value, rest) =>
                  (pairs n rest).map ((String.ofList name, String.ofList value) :: ·)

/-- `PQconninfoParse`; `none` where it reports an error. It also refuses
keywords that it does not know, and here all keywords are known. -/
def parse (s : String) : Option (Dict String String) :=
  (pairs s.length (s.toList.takeWhile (· ≠ '\x00'))).map Dict.ofList

example : (parse "host = 'a\\'b'  port=1 host=c").map Dict.items =
    some [("host", "c"), ("port", "1")] := by decide

/-- A value in which no character means anything but itself. -/
structure Plain (value : List Char) : Prop where
  solid : ∀ c ∈ value, isBlank c = false
  unescaped : '\\' ∉ value
  ends : '\x00' ∉ value
  unquoted : value.head? ≠ some '\''

instance (value : List Char) : Decidable (Plain value) :=
  -- looks through the value, not through all characters there are
  haveI := List.decidableBAll (isBlank · = false) value
  decidable_of_iff
    ((∀ c ∈ value, isBlank c = false) ∧ '\\' ∉ value ∧ '\x00' ∉ value ∧
      value.head? ≠ some '\'')
    ⟨fun h => ⟨h.1, h.2.1, h.2.2.1, h.2.2.2⟩, fun h => ⟨h.1, h.2, h.3, h.4⟩⟩

/-- The pairs as they are, a space between them. -/
def write : List (String × String) → String
  | [] => ""
  | [(k, v)] => k ++ "=" ++ v
  | (k, v) :: p :: rest => k ++ "=" ++ v ++ " " ++ write (p :: rest)

variable {s v name rest : List Char} {l : List (String × String)} {n : Nat}

/-! ## What is read takes up the text -/

/-- The length of a text that follows another, with the blank in front of it. -/
def after (s : List Char) : Nat := if s = [] then 0 else s.length + 1

def weight (p : String × String) : Nat := p.1.toList.length + p.2.toList.length + 2

theorem after_le (s : List Char) : after s ≤ s.length + 1 := by
  unfold after
  split
  · exact Nat.zero_le _
  · exact Nat.le_refl _

theorem length_le_of_after_le {t : List Char} (h : after s ≤ after t) : s.length ≤ t.length := by
  unfold after at h
  split at h
  · next hs => rw [hs]; exact Nat.zero_le _
  · split at h
    · exact absurd h (Nat.not_succ_le_zero _)
    · exact Nat.le_of_succ_le_succ h

theorem length_keyword (h : keyword s = some (name, rest)) :
    name.length + 1 + rest.length ≤ s.length := by
  unfold keyword at h
  split at h
  · next rest' hrest =>
      cases h
      have hsplit := congrArg List.length
        (List.takeWhile_append_dropWhile (p := fun c => c ≠ '=' && !isBlank c) (l := s))
      have hblanks := (List.dropWhile_sublist (p := isBlank)
        (l := s.dropWhile fun c => c ≠ '=' && !isBlank c)).length_le
      rw [hrest, List.length_cons] at hblanks
      rw [List.length_append] at hsplit
      omega
  · cases h

/-- A value that is read to its last character, with nothing between it and
the rest but the one blank, is what stands in the text. -/
structure Tight (s v : List Char) : Prop where
  stands : v <+: s
  solid : ∀ c ∈ v, isBlank c = false
  unescaped : '\\' ∉ v

theorem Tight.nil (s : List Char) : Tight s [] :=
  ⟨List.nil_prefix, List.forall_mem_nil _, List.not_mem_nil⟩

theorem Tight.cons {c : Char} (h : Tight s v) (hblank : isBlank c = false) (hc : c ≠ '\\') :
    Tight (c :: s) (c :: v) :=
  ⟨List.prefix_cons_inj c |>.mpr h.stands, List.forall_mem_cons.mpr ⟨hblank, h.solid⟩,
    fun hmem => (List.mem_cons.mp hmem).elim (fun heq => hc heq.symm) h.unescaped⟩

theorem unquoted_spec (s : List Char) :
    (unquoted s).1.length + after (unquoted s).2 ≤ s.length ∧
      (s.length ≤ (unquoted s).1.length + after (unquoted s).2 → Tight s (unquoted s).1) := by
  induction s using unquoted.induct with
  | case1 => exact ⟨Nat.le_refl 0, fun _ => .nil _⟩
  | case2 => exact ⟨Nat.zero_le 1, fun h => absurd h (by decide)⟩
  | case3 c rest value after heq ih =>
      rw [unquoted]
      dsimp only [List.length_cons]
      exact ⟨by omega, fun h => absurd h (by omega)⟩
  | case4 c rest hlast hescape hblank =>
      rw [unquoted.eq_4 _ _ hlast hescape, if_pos hblank]
      exact ⟨by simpa using after_le rest, fun _ => .nil _⟩
  | case5 c rest hlast hescape hblank value after heq ih =>
      rw [unquoted.eq_4 _ _ hlast hescape, if_neg hblank]
      dsimp only [List.length_cons]
      refine ⟨by omega, fun htight => (ih.2 (by omega)).cons (by simpa using hblank) ?_⟩
      rintro rfl
      cases rest with
      | nil => exact hlast rfl rfl
      | cons c' rest' => exact hescape c' rest' rfl rfl

theorem length_quoted {s : List Char} :
    ∀ {v rest}, quoted s = some (v, rest) → v.length + rest.length < s.length := by
  induction s using quoted.induct with
  | case1 => exact fun h => nomatch h
  | case2 => exact fun h => nomatch h
  | case3 c rest' ih =>
      intro v rest h
      rw [quoted, Option.map_eq_some_iff] at h
      obtain ⟨⟨v', rest''⟩, hq, heq⟩ := h
      cases heq
      have := ih hq
      simp only [List.length_cons]
      omega
  | case4 rest' hlast hescape =>
      intro v rest h
      rw [quoted.eq_4 _ _ hlast hescape, if_pos rfl] at h
      cases h
      exact Nat.lt_succ_of_le (Nat.le_of_eq (Nat.zero_add _))
  | case5 c rest' hlast hescape hc ih =>
      intro v rest h
      rw [quoted.eq_4 _ _ hlast hescape, if_neg hc, Option.map_eq_some_iff] at h
      obtain ⟨⟨v', rest''⟩, hq, heq⟩ := h
      cases heq
      have := ih hq
      simp only [List.length_cons]
      omega

theorem value_spec (h : value s = some (v, rest)) :
    v.length + after rest ≤ s.length ∧
      (s.length ≤ v.length + after rest → '\x00' ∉ v → Plain v) := by
  have hblanks := (List.dropWhile_sublist (p := isBlank) (l := s)).length_le
  unfold value at h
  split at h
  · next text hquote =>
      rw [hquote, List.length_cons] at hblanks
      have hlength := length_quoted h
      have hafter := after_le rest
      exact ⟨by omega, fun htight => absurd htight (by omega)⟩
  · next text hquote =>
      obtain ⟨hlength, htight⟩ := unquoted_spec (s.dropWhile isBlank)
      rw [Option.some.inj h] at hlength htight
      dsimp only at hlength htight
      refine ⟨by omega, fun hle hends => ?_⟩
      obtain ⟨hstands, hsolid, hunescaped⟩ := htight (by omega)
      refine ⟨hsolid, hunescaped, hends, fun hhead => ?_⟩
      obtain ⟨tail, htail⟩ := List.head?_eq_some_iff.mp hhead
      obtain ⟨more, hmore⟩ := hstands
      rw [htail] at hmore
      exact hquote _ hmore.symm

def total (l : List (String × String)) : Nat := (l.map weight).sum

theorem pairs_spec : ∀ {n s l}, pairs n s = some l →
    total l ≤ after s ∧
      (after s ≤ total l → ∀ p ∈ l, '\x00' ∉ p.2.toList → Plain p.2.toList) := by
  intro n
  induction n with
  | zero =>
      intro s l h
      cases h
      exact ⟨Nat.zero_le _, fun _ => List.forall_mem_nil _⟩
  | succ n ih =>
      intro s l h
      have hblanks := (List.dropWhile_sublist (p := isBlank) (l := s)).length_le
      rw [pairs] at h
      split at h
      · cases h
        exact ⟨Nat.zero_le _, fun _ => List.forall_mem_nil _⟩
      · next hne =>
          split at h
          · cases h
          · next name text hkeyword =>
              split at h
              · cases h
              · next v rest hvalue =>
                  obtain ⟨l', hl', rfl⟩ := Option.map_eq_some_iff.mp h
                  obtain ⟨hlength, hplain⟩ := ih hl'
                  have hname := length_keyword hkeyword
                  obtain ⟨hv, hvplain⟩ := value_spec hvalue
                  have htotal : total ((String.ofList name, String.ofList v) :: l') =
                      name.length + v.length + 2 + total l' := by
                    rw [total, List.map_cons, List.sum_cons, weight, String.toList_ofList,
                      String.toList_ofList]
                    rfl
                  have hafter : after s = s.length + 1 := if_neg (by
                    rintro rfl
                    exact hne rfl)
                  rw [htotal, hafter]
                  refine ⟨by omega, fun hle => List.forall_mem_cons.mpr ⟨?_, ?_⟩⟩
                  · rw [String.toList_ofList]
                    exact hvplain (by omega)
                  · exact hplain (by omega)

/-! ## What is written is read -/

/-- A word that can stand before an equals sign. -/
def Keyword (name : List Char) : Prop := ∀ c ∈ name, c ≠ '=' ∧ c ≠ '\x00' ∧ isBlank c = false

instance (name : List Char) : Decidable (Keyword name) := List.decidableBAll _ _

/-- What follows a value that is written in front of these pairs. -/
def next (l : List (String × String)) : List Char :=
  if l = [] then [] else ' ' :: (write l).toList

theorem toList_write (k v : String) (l : List (String × String)) :
    (write ((k, v) :: l)).toList = k.toList ++ '=' :: (v.toList ++ next l) := by
  cases l with
  | nil => simp [write, next]
  | cons p l => simp [write, next]

theorem unquoted_next (l : List (String × String)) :
    unquoted (next l) = ([], (write l).toList) := by
  cases l <;> rfl

theorem mem_next {c : Char} (hc : c ∈ (write l).toList) : c ∈ next l := by
  cases l with
  | nil => cases hc
  | cons p l => exact List.mem_cons_of_mem _ hc

theorem mem_of_mem_next {c : Char} (hc : c ∈ next l) : c = ' ' ∨ c ∈ (write l).toList := by
  cases l with
  | nil => cases hc
  | cons p l => exact List.mem_cons.mp hc

theorem length_next (l : List (String × String)) : (next l).length = total l := by
  induction l with
  | nil => rfl
  | cons p l ih =>
      obtain ⟨k, v⟩ := p
      have htotal : total ((k, v) :: l) = k.toList.length + v.toList.length + 2 + total l := rfl
      rw [next, if_neg (List.cons_ne_nil _ _), toList_write, htotal, ← ih]
      simp only [List.length_cons, List.length_append]
      omega

theorem after_write (l : List (String × String)) : after (write l).toList = total l := by
  cases l with
  | nil => rfl
  | cons p l =>
      rw [← length_next, next, if_neg (List.cons_ne_nil _ _), List.length_cons, after, if_neg]
      rw [toList_write]
      exact List.append_ne_nil_of_right_ne_nil _ (List.cons_ne_nil _ _)

theorem le_total (l : List (String × String)) : l.length ≤ total l / 2 := by
  induction l with
  | nil => exact Nat.le_refl 0
  | cons p l ih =>
      rw [total, List.map_cons, List.sum_cons, ← total, weight, List.length_cons]
      omega

theorem keyword_append (hname : Keyword name) (rest : List Char) :
    keyword (name ++ '=' :: rest) = some (name, rest) := by
  have hall : ∀ c ∈ name, (c ≠ '=' && !isBlank c) = true := by
    intro c hc
    obtain ⟨heq, -, hblank⟩ := hname c hc
    simp [heq, hblank]
  unfold keyword
  rw [List.dropWhile_append_of_pos hall, List.takeWhile_append_of_pos hall]
  simp [isBlank]

theorem unquoted_append (hsolid : ∀ c ∈ v, isBlank c = false) (hunescaped : '\\' ∉ v)
    (rest : List Char) : unquoted (v ++ rest) = (v ++ (unquoted rest).1, (unquoted rest).2) := by
  induction v with
  | nil => rfl
  | cons c v ih =>
      obtain ⟨hc, hsolid⟩ := List.forall_mem_cons.mp hsolid
      obtain ⟨hne, hunescaped⟩ := not_or.mp (List.mem_cons.not.mp hunescaped)
      rw [List.cons_append, unquoted.eq_4 _ _ (fun h => absurd h.symm hne)
        (fun _ _ h => absurd h.symm hne), ih hsolid hunescaped, hc]
      rfl

theorem value_append (hv : Plain v) (hne : v ≠ []) (rest : List Char) :
    value (v ++ rest) = some (v ++ (unquoted rest).1, (unquoted rest).2) := by
  obtain ⟨c, v', rfl⟩ := List.exists_cons_of_ne_nil hne
  have hc : isBlank c = false := hv.solid c List.mem_cons_self
  have hquote : c ≠ '\'' := fun h => hv.unquoted (congrArg some h)
  rw [← unquoted_append hv.solid hv.unescaped, value, List.cons_append,
    List.dropWhile_cons_of_neg (by rw [hc]; exact Bool.false_ne_true)]
  split
  · next h => exact absurd (List.cons.inj h).1 hquote
  · rfl

theorem pairs_append (hname : Keyword name) {text : List Char}
    (hvalue : value text = some (v, rest)) (n : Nat) :
    pairs (n + 1) (name ++ '=' :: text) =
      (pairs n rest).map ((String.ofList name, String.ofList v) :: ·) := by
  have hblanks : (name ++ '=' :: text).dropWhile isBlank = name ++ '=' :: text := by
    cases name with
    | nil => rfl
    | cons c name =>
        rw [List.cons_append, List.dropWhile_cons_of_neg]
        rw [(hname c List.mem_cons_self).2.2]
        exact Bool.false_ne_true
  rw [pairs, hblanks]
  split
  · next h => exact absurd h (by simp)
  · rw [keyword_append hname]
    dsimp only
    rw [hvalue]

/-- What may be written without quotes. -/
structure Writable (p : String × String) : Prop where
  keyword : Keyword p.1.toList
  value_ne : p.2 ≠ ""

theorem pairs_write (hl : ∀ p ∈ l, Writable p) (hplain : ∀ p ∈ l, Plain p.2.toList) :
    ∀ {n}, l.length ≤ n → pairs n (write l).toList = some l := by
  induction l with
  | nil =>
      intro n _
      cases n <;> rfl
  | cons p l ih =>
      intro n hn
      obtain ⟨n, rfl⟩ := Nat.exists_eq_succ_of_ne_zero (Nat.ne_zero_of_lt hn)
      obtain ⟨k, v⟩ := p
      obtain ⟨⟨hk, hv⟩, hl⟩ := List.forall_mem_cons.mp hl
      obtain ⟨hpv, hplain⟩ := List.forall_mem_cons.mp hplain
      have hne : v.toList ≠ [] := by simpa using hv
      have hvalue := value_append hpv hne (next l)
      rw [unquoted_next, List.append_nil] at hvalue
      rw [toList_write, pairs_append hk hvalue, ih hl hplain (Nat.le_of_succ_le_succ hn),
        String.ofList_toList, String.ofList_toList]
      rfl

theorem mem_write {p : String × String} (hp : p ∈ l) {c : Char} (hc : c ∈ p.2.toList) :
    c ∈ (write l).toList := by
  induction l with
  | nil => cases hp
  | cons q l ih =>
      obtain ⟨k, v⟩ := q
      rw [toList_write]
      refine List.mem_append_right _ (List.mem_cons_of_mem _ ?_)
      rcases List.mem_cons.mp hp with rfl | hp
      · exact List.mem_append_left _ hc
      · exact List.mem_append_right _ (mem_next (ih hp))

theorem ends_write (hl : ∀ p ∈ l, Writable p) (hplain : ∀ p ∈ l, Plain p.2.toList) :
    ∀ c ∈ (write l).toList, c ≠ '\x00' := by
  induction l with
  | nil => exact List.forall_mem_nil _
  | cons p l ih =>
      obtain ⟨k, v⟩ := p
      obtain ⟨⟨hk, -⟩, hl⟩ := List.forall_mem_cons.mp hl
      obtain ⟨hv, hplain⟩ := List.forall_mem_cons.mp hplain
      have hk : ∀ c ∈ k.toList, c ≠ '\x00' := fun c hc => (hk c hc).2.1
      have hv : ∀ c ∈ v.toList, c ≠ '\x00' := fun c hc h => hv.ends (h ▸ hc)
      have hnext : ∀ c ∈ next l, c ≠ '\x00' := by
        intro c hc
        rcases mem_of_mem_next hc with rfl | hc
        · decide
        · exact ih hl hplain c hc
      rw [toList_write]
      exact List.forall_mem_append.mpr ⟨hk, List.forall_mem_cons.mpr
        ⟨by decide, List.forall_mem_append.mpr ⟨hv, hnext⟩⟩⟩

/-- The dictionary that libpq makes of a text has these pairs, and no other. -/
def ReadsBack (text : String) (l : List (String × String)) : Prop :=
  ∃ d, parse text = some d ∧ d.items.Perm l

theorem total_le_of_subperm {l' : List (String × String)} (h : l.Subperm l') : total l ≤ total l' := by
  obtain ⟨l'', hperm, hsub⟩ := h
  calc total l = total l'' := (hperm.map weight).sum_eq.symm
    _ ≤ total l' := (hsub.map weight).sum_le_sum fun _ _ => Nat.zero_le _

/-- Of what was written without quotes the reader gets the same values exactly
if all of them are plain. -/
theorem readsBack_write_iff (hl : ∀ p ∈ l, Writable p) (hkeys : (l.map Prod.fst).Nodup) :
    ReadsBack (write l) l ↔ ∀ p ∈ l, Plain p.2.toList := by
  constructor
  · rintro ⟨d, hd, hperm⟩
    obtain ⟨read, hread, rfl⟩ := Option.map_eq_some_iff.mp hd
    obtain ⟨htotal, hplain⟩ := pairs_spec hread
    -- all that was written is among what was read, so nothing else fits in the text
    have hmem : l ⊆ read := fun p hp => Dict.items_ofList_subset read (hperm.mem_iff.mpr hp)
    have hle : after (write l).toList ≤ total read := by
      rw [after_write]
      exact total_le_of_subperm (List.subperm_of_subset (hkeys.of_map Prod.fst) hmem)
    have htext : (write l).toList.takeWhile (· ≠ '\x00') = (write l).toList :=
      (List.takeWhile_prefix _).eq_of_length_le (length_le_of_after_le (hle.trans htotal))
    rw [htext] at hplain
    intro p hp
    refine hplain hle p (hmem hp) fun hnul => ?_
    have hends := List.takeWhile_eq_self_iff.mp htext _ (mem_write hp hnul)
    exact absurd hends (by decide)
  · intro hplain
    refine ⟨Dict.ofList l, ?_, Dict.perm_items_ofList hkeys⟩
    have htext : (write l).toList.takeWhile (· ≠ '\x00') = (write l).toList :=
      List.takeWhile_eq_self_iff.mpr (by simpa using ends_write hl hplain)
    have hfuel : l.length ≤ (write l).length := by
      have hle := le_total l
      have hlength := after_write l
      have hafter := after_le (write l).toList
      rw [← String.length_toList]
      omega
    rw [parse, htext, pairs_write hl hplain hfuel]
    rfl

end KepServerLogger.Conninfo
