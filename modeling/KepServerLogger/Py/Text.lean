import Mathlib.Data.List.Infix
import Mathlib.Data.List.TakeWhile
import Mathlib.Tactic.IntervalCases

/-!
# Integers as Python text

`str(n)` and `int(s)`, and the fixed-width digit fields the date formats are
made of. Text is handled as a list of characters and turned into a `String`
only at the edges.

`int` is more liberal than `str` is: it skips white space around the number,
takes a sign and single underscores between digits, and reads the decimal
digits of every script. Only the ASCII case matters for the round trip, but a
value that comes off the wire can be anything.
-/

namespace KepServerLogger.Py

/-- The code points of the decimal zeros; each is followed by the digits one
to nine. -/
def decimalZeros : List Nat :=
  [0x30, 0x660, 0x6f0, 0x7c0, 0x966, 0x9e6, 0xa66, 0xae6, 0xb66, 0xbe6, 0xc66,
    0xce6, 0xd66, 0xde6, 0xe50, 0xed0, 0xf20, 0x1040, 0x1090, 0x17e0, 0x1810,
    0x1946, 0x19d0, 0x1a80, 0x1a90, 0x1b50, 0x1bb0, 0x1c40, 0x1c50, 0xa620,
    0xa8d0, 0xa900, 0xa9d0, 0xa9f0, 0xaa50, 0xabf0, 0xff10, 0x104a0, 0x10d30,
    0x11066, 0x110f0, 0x11136, 0x111d0, 0x112f0, 0x11450, 0x114d0, 0x11650,
    0x116c0, 0x11730, 0x118e0, 0x11950, 0x11c50, 0x11d50, 0x11da0, 0x11f50,
    0x16a60, 0x16ac0, 0x16b50, 0x1d7ce, 0x1d7d8, 0x1d7e2, 0x1d7ec, 0x1d7f6,
    0x1e140, 0x1e2f0, 0x1e4f0, 0x1e950, 0x1fbf0]

/-- The value of a decimal digit of any script: `\d` of a `str` pattern. -/
def decimalValue? (c : Char) : Option Nat :=
  (decimalZeros.find? fun z => z ≤ c.toNat && c.toNat < z + 10).map
    fun z => c.toNat - z

/-- The value of an ASCII digit. -/
def asciiValue? (c : Char) : Option Nat :=
  if '0' ≤ c ∧ c ≤ '9' then some (c.toNat - '0'.toNat) else none

theorem asciiValue?_digitChar {d : Nat} (h : d < 10) :
    asciiValue? d.digitChar = some d := by
  interval_cases d <;> decide

theorem decimalValue?_digitChar {d : Nat} (h : d < 10) :
    decimalValue? d.digitChar = some d := by
  interval_cases d <;> decide

theorem decimalValue?_of_isDigit {c : Char} (h : c.isDigit) :
    decimalValue? c = some (c.toNat - '0'.toNat) := by
  have hb : 48 ≤ c.toNat ∧ c.toNat ≤ 57 := by
    simp only [Char.isDigit, Bool.and_eq_true, decide_eq_true_eq,
      UInt32.le_iff_toNat_le] at h
    exact h
  simp only [decimalValue?, decimalZeros, List.find?_cons]
  rw [show (decide (0x30 ≤ c.toNat) && decide (c.toNat < 0x30 + 10)) = true by
    simp only [Bool.and_eq_true, decide_eq_true_eq]; omega]
  rfl

/-! ## Fixed-width fields -/

/-- `n` in exactly `w` digits, leading zeros included (`%02d` and the like,
for numbers that fit). -/
def padded : Nat → Nat → List Char
  | 0, _ => []
  | w + 1, n => padded w (n / 10) ++ [(n % 10).digitChar]

@[simp] theorem length_padded (w n : Nat) : (padded w n).length = w := by
  induction w generalizing n with
  | zero => rfl
  | succ w ih => simp [padded, ih]

theorem isDigit_padded {w n : Nat} : ∀ c ∈ padded w n, c.isDigit = true := by
  induction w generalizing n with
  | zero => simp [padded]
  | succ w ih =>
      intro c hc
      rcases List.mem_append.mp hc with hc | hc
      · exact ih c hc
      · rw [List.mem_singleton] at hc
        subst hc
        have hlt : n % 10 < 10 := Nat.mod_lt _ (by omega)
        interval_cases n % 10 <;> decide

theorem div_ten_lt {w n : Nat} (h : n < 10 ^ (w + 1)) : n / 10 < 10 ^ w := by
  rw [Nat.div_lt_iff_lt_mul (by omega), ← Nat.pow_succ]
  exact h

/-- One digit more of a number whose digits are read from the left. -/
theorem value_snoc (acc w n : Nat) :
    10 * (acc * 10 ^ w + n / 10) + n % 10 = acc * 10 ^ (w + 1) + n := by
  have hdiv := Nat.div_add_mod n 10
  rw [Nat.pow_succ, ← Nat.mul_assoc]
  omega

/-- Reads exactly `n` ASCII digits off the front. -/
def digits? : Nat → Nat → List Char → Option (Nat × List Char)
  | 0, acc, l => some (acc, l)
  | _ + 1, _, [] => none
  | n + 1, acc, c :: cs =>
      match asciiValue? c with
      | none => none
      | some d => digits? n (10 * acc + d) cs

theorem digits?_padded_go (w n acc : Nat) (rest : List Char) (m : Nat)
    (h : n < 10 ^ w) :
    digits? (w + m) acc (padded w n ++ rest) =
      digits? m (acc * 10 ^ w + n) rest := by
  induction w generalizing n m acc rest with
  | zero =>
      have hn : n = 0 := by simpa using h
      simp [padded, hn]
  | succ w ih =>
      rw [show w + 1 + m = w + (m + 1) by omega, padded, List.append_assoc,
        ih (n / 10) acc _ (m + 1) (div_ten_lt h), List.singleton_append, digits?,
        asciiValue?_digitChar (Nat.mod_lt _ (by omega))]
      simp only [value_snoc]

/-- Reading a padded field gives the number back and stops where it ends. -/
theorem digits?_padded {w n : Nat} (rest : List Char) (h : n < 10 ^ w) :
    digits? w 0 (padded w n ++ rest) = some (n, rest) := by
  have := digits?_padded_go w n 0 rest 0 h
  simpa [digits?] using this

/-! ## `str` and `int` -/

/-- `str(n)` -/
def intStr (n : Int) : List Char :=
  if n < 0 then '-' :: Nat.toDigits 10 n.natAbs else Nat.toDigits 10 n.natAbs

/-- White space as `int` strips it. -/
def isSpace (c : Char) : Bool :=
  c.toNat ∈ [9, 10, 11, 12, 13, 32, 0x85, 0xa0, 0x1680, 0x2000, 0x2001, 0x2002,
    0x2003, 0x2004, 0x2005, 0x2006, 0x2007, 0x2008, 0x2009, 0x200a, 0x2028,
    0x2029, 0x202f, 0x205f, 0x3000]

def stripBy (p : Char → Bool) (l : List Char) : List Char :=
  ((l.dropWhile p).reverse.dropWhile p).reverse

/-- White space as `str.isspace` and `\s` see it. -/
def isStrSpace (c : Char) : Bool := isSpace c || (0x1c ≤ c.toNat && c.toNat ≤ 0x1f)

/-- `s.strip()` -/
def strip (s : List Char) : List Char := stripBy isStrSpace s

/-- `s.rstrip()` -/
def rstrip (s : List Char) : List Char := (s.reverse.dropWhile isStrSpace).reverse

theorem stripBy_eq_self {p : Char → Bool} {l : List Char}
    (h : ∀ c ∈ l, p c = false) : stripBy p l = l := by
  have hdrop : ∀ m : List Char, (∀ c ∈ m, p c = false) → m.dropWhile p = m := by
    intro m hm
    cases m with
    | nil => rfl
    | cons c cs => rw [List.dropWhile_cons, hm c (by simp)]; rfl
  unfold stripBy
  rw [hdrop l h, hdrop l.reverse (fun c hc => h c (List.mem_reverse.mp hc)),
    List.reverse_reverse]

theorem dropWhile_eq_self {p : Char → Bool} {l : List Char} :
    l.dropWhile p = l ↔ ∀ c ∈ l.head?, p c = false := by
  cases l with
  | nil => simp
  | cons c l =>
      rw [List.dropWhile_cons]
      split
      · next hc =>
          refine iff_of_false (fun h => ?_) (by simp [hc])
          have hle := (List.dropWhile_suffix p (l := l)).length_le
          rw [h, List.length_cons] at hle
          omega
      · next hc => simpa using hc

theorem stripBy_eq_self_iff {p : Char → Bool} {l : List Char} :
    stripBy p l = l ↔ (∀ c ∈ l.head?, p c = false) ∧ ∀ c ∈ l.getLast?, p c = false := by
  constructor
  · intro h
    have hfront : l.dropWhile p = l := by
      refine (List.dropWhile_suffix p).eq_of_length (le_antisymm ?_ ?_)
      · exact (List.dropWhile_suffix p).length_le
      · have hle := (List.dropWhile_suffix p (l := (l.dropWhile p).reverse)).length_le
        rw [← congrArg List.length h]
        simpa [stripBy] using hle
    refine ⟨dropWhile_eq_self.mp hfront, ?_⟩
    unfold stripBy at h
    rw [hfront, List.reverse_eq_iff, dropWhile_eq_self, List.head?_reverse] at h
    exact h
  · intro h
    unfold stripBy
    rw [dropWhile_eq_self.mpr h.1, List.reverse_eq_iff, dropWhile_eq_self, List.head?_reverse]
    exact h.2

/-- White space around a text is nothing to `strip`. -/
theorem stripBy_append {p : Char → Bool} {before after : List Char}
    (hbefore : ∀ c ∈ before, p c = true) (hafter : ∀ c ∈ after, p c = true) (l : List Char) :
    stripBy p (before ++ (l ++ after)) = stripBy p l := by
  unfold stripBy
  rw [List.dropWhile_append_of_pos hbefore, List.dropWhile_append]
  split
  · next hl =>
      rw [List.isEmpty_iff.mp hl, List.dropWhile_eq_nil_iff.mpr hafter]
  · rw [List.reverse_append, List.dropWhile_append_of_pos fun c hc => hafter c (List.mem_reverse.mp hc)]

theorem stripBy_eq_nil {p : Char → Bool} {l : List Char} (h : ∀ c ∈ l, p c = true) :
    stripBy p l = [] := by
  unfold stripBy
  rw [List.dropWhile_eq_nil_iff.mpr h]
  rfl

theorem rstrip_eq_self {l : List Char} (h : strip l = l) : rstrip l = l := by
  unfold rstrip
  rw [List.reverse_eq_iff, dropWhile_eq_self, List.head?_reverse]
  exact (stripBy_eq_self_iff.mp h).2

/-- Digits with single underscores between them; `afterDigit` says whether the
character before was a digit. -/
def digitsRun : Bool → Nat → List Char → Option Nat
  | true, acc, [] => some acc
  | false, _, [] => none
  | afterDigit, acc, c :: cs =>
      match decimalValue? c with
      | some d => digitsRun true (10 * acc + d) cs
      | none => if afterDigit && c = '_' then digitsRun false acc cs else none

/-- `int(s)`; `none` where Python raises `ValueError`. -/
def int? (s : List Char) : Option Int :=
  match stripBy isSpace s with
  | '-' :: cs => (digitsRun false 0 cs).map fun n : Nat => -(n : Int)
  | '+' :: cs => (digitsRun false 0 cs).map Int.ofNat
  | cs => (digitsRun false 0 cs).map Int.ofNat

theorem digitsRun_digits {l : List Char} (hl : ∀ c ∈ l, c.isDigit = true)
    {b : Bool} (hb : b = true ∨ l ≠ []) (acc : Nat) :
    digitsRun b acc l = some (Nat.ofDigitChars 10 l acc) := by
  induction l generalizing b acc with
  | nil =>
      have hb : b = true := hb.resolve_right (fun h => h rfl)
      subst hb
      rw [Nat.ofDigitChars_nil]
      rfl
  | cons c cs ih =>
      rw [Nat.ofDigitChars_cons]
      simp only [digitsRun]
      rw [decimalValue?_of_isDigit (hl c (by simp))]
      exact ih (fun x hx => hl x (by simp [hx])) (Or.inl rfl) _

theorem isDigit_toDigits {n : Nat} : ∀ c ∈ Nat.toDigits 10 n, c.isDigit = true :=
  fun _ hc => Nat.isDigit_of_mem_toDigits (by decide) (by decide) hc

theorem isSpace_of_isDigit {c : Char} (h : c.isDigit = true) : isSpace c = false := by
  have hb : 48 ≤ c.toNat ∧ c.toNat ≤ 57 := by
    simp only [Char.isDigit, Bool.and_eq_true, decide_eq_true_eq,
      UInt32.le_iff_toNat_le] at h
    exact h
  simp only [isSpace, List.mem_cons, List.not_mem_nil, or_false,
    decide_eq_false_iff_not]
  omega

theorem ne_of_isDigit {c x : Char} (h : c.isDigit = true) (hx : x.isDigit = false) :
    c ≠ x := fun e => by rw [e, hx] at h; cases h

/-- `int` reads back what `str` writes. -/
theorem int?_intStr (n : Int) : int? (intStr n) = some n := by
  have hrun : digitsRun false 0 (Nat.toDigits 10 n.natAbs) = some n.natAbs := by
    rw [digitsRun_digits isDigit_toDigits (Or.inr Nat.toDigits_ne_nil),
      Nat.ofDigitChars_ten_toDigits]
  unfold intStr
  split
  · next hneg =>
      have hstrip : stripBy isSpace ('-' :: Nat.toDigits 10 n.natAbs) =
          '-' :: Nat.toDigits 10 n.natAbs := by
        refine stripBy_eq_self fun c hc => ?_
        rcases List.mem_cons.mp hc with rfl | hc
        · decide
        · exact isSpace_of_isDigit (isDigit_toDigits c hc)
      simp only [int?, hstrip, hrun, Option.map_some, Option.some.injEq]
      omega
  · next hpos =>
      have hstrip : stripBy isSpace (Nat.toDigits 10 n.natAbs) =
          Nat.toDigits 10 n.natAbs :=
        stripBy_eq_self fun c hc => isSpace_of_isDigit (isDigit_toDigits c hc)
      simp only [int?, hstrip]
      split
      · next cs heq =>
          exact absurd rfl (ne_of_isDigit (x := '-')
            (isDigit_toDigits '-' (by rw [heq]; simp)) (by decide))
      · next cs heq =>
          exact absurd rfl (ne_of_isDigit (x := '+')
            (isDigit_toDigits '+' (by rw [heq]; simp)) (by decide))
      · rw [hrun, Option.map_some, Option.some.injEq, Int.ofNat_eq_natCast]
        omega

/-! ## `",".join` and `split(",")` -/

/-- `sep.join(parts)` for a one-character separator. -/
def join (sep : Char) (parts : List (List Char)) : List Char :=
  [sep].intercalate parts

/-- `s.split(sep)` for a one-character separator. -/
def split (sep : Char) : List Char → List (List Char)
  | [] => [[]]
  | c :: cs =>
      if c = sep then [] :: split sep cs
      else
        match split sep cs with
        | [] => [[c]]
        | part :: parts => (c :: part) :: parts

theorem split_append {sep : Char} {p : List Char} (hp : sep ∉ p) (rest : List Char) :
    split sep (p ++ sep :: rest) = p :: split sep rest := by
  induction p with
  | nil => simp [split]
  | cons c cs ih =>
      simp only [List.mem_cons, not_or] at hp
      rw [List.cons_append, split, if_neg (Ne.symm hp.1), ih hp.2]

theorem split_self {sep : Char} {p : List Char} (hp : sep ∉ p) :
    split sep p = [p] := by
  induction p with
  | nil => rfl
  | cons c cs ih =>
      simp only [List.mem_cons, not_or] at hp
      rw [split, if_neg (Ne.symm hp.1), ih hp.2]

/-- Splitting what was joined gives the parts back, except that joining
nothing looks like one empty part. -/
theorem split_join {sep : Char} {parts : List (List Char)}
    (h : ∀ p ∈ parts, sep ∉ p) (hne : parts ≠ []) :
    split sep (join sep parts) = parts := by
  induction parts with
  | nil => exact absurd rfl hne
  | cons p ps ih =>
      cases ps with
      | nil => simpa [join] using split_self (h p (by simp))
      | cons q qs =>
          have hjoin : join sep (p :: q :: qs) = p ++ sep :: join sep (q :: qs) := by
            simp [join, List.intercalate]
          rw [hjoin, split_append (h p (by simp)),
            ih (fun x hx => h x (by simp [hx])) (by simp)]

/-! ## Letters and digits -/

/-- `str.isalnum` and `str.isdigit` of one character. Their tables follow the
version of Unicode; in all of them ASCII is as in C and no white space is a
letter or a digit. -/
structure CharTables where
  isAlnum : Char → Bool
  isDigit : Char → Bool
  alnum_ascii : ∀ c, c.toNat < 128 → isAlnum c = c.isAlphanum
  digit_ascii : ∀ c, c.toNat < 128 → isDigit c = c.isDigit
  alnum_space : ∀ c, isStrSpace c = true → isAlnum c = false

/-- `\w` of a `str` pattern. -/
def CharTables.isWord (u : CharTables) (c : Char) : Bool := u.isAlnum c || c = '_'

theorem CharTables.isWord_space (u : CharTables) {c : Char} (h : isStrSpace c = true) :
    u.isWord c = false := by
  unfold isWord
  rw [u.alnum_space c h, Bool.false_or, decide_eq_false_iff_not]
  intro hc
  subst hc
  revert h
  decide

theorem isAlphanum_space {c : Char} (h : isStrSpace c = true) : c.isAlphanum = false := by
  have hrange : c.toNat ≤ 32 ∨ 128 ≤ c.toNat := by
    simp only [isStrSpace, isSpace, Bool.or_eq_true, Bool.and_eq_true, decide_eq_true_eq,
      List.mem_cons, List.not_mem_nil, or_false] at h
    omega
  have hval : c.val.toNat = c.toNat := rfl
  delta Char.isAlphanum Char.isAlpha Char.isUpper Char.isLower Char.isDigit
  simp only [Bool.or_eq_false_iff, Bool.and_eq_false_iff, decide_eq_false_iff_not,
    UInt32.le_iff_toNat_le, ge_iff_le, hval]
  simp
  omega

/-- The ASCII part of the tables. -/
def CharTables.ascii : CharTables where
  isAlnum := Char.isAlphanum
  isDigit := Char.isDigit
  alnum_ascii _ _ := rfl
  digit_ascii _ _ := rfl
  alnum_space _ := isAlphanum_space

/-! ## The ends of a string -/

/-- `s.removeprefix(p)` -/
def removePrefix (s p : String) : String :=
  if p.toList <+: s.toList then String.ofList (s.toList.drop p.toList.length) else s

/-- `s.removesuffix(p)` -/
def removeSuffix (s p : String) : String :=
  if p.toList <:+ s.toList then String.ofList (s.toList.take (s.toList.length - p.toList.length))
  else s

theorem removePrefix_append (p s : String) : removePrefix (p ++ s) p = s := by
  rw [removePrefix, if_pos (by rw [String.toList_append]; exact List.prefix_append _ _),
    String.toList_append, List.drop_left, String.ofList_toList]

theorem removePrefix_of_not {s p : String} (h : ¬ p.toList <+: s.toList) :
    removePrefix s p = s := if_neg h

/-- `s.split(c, 1)[-1]` -/
def afterFirst (c : Char) (s : String) : String :=
  if c ∈ s.toList then String.ofList ((s.toList.dropWhile (· ≠ c)).drop 1) else s

/-- `a or b`; only the empty string counts as false. -/
def strOr (a b : String) : String := if a = "" then b else a

/-- `p in s` -/
def isIn (p s : String) : Bool := s.toList.tails.any fun rest => p.toList.isPrefixOf rest

theorem isIn_eq_false {p s : String} {c : Char} (hp : c ∈ p.toList) (hs : c ∉ s.toList) :
    isIn p s = false := by
  refine List.any_eq_false.mpr fun rest hrest hprefix => hs ?_
  exact ((List.mem_tails _ _).mp hrest).subset ((List.isPrefixOf_iff_prefix.mp hprefix).subset hp)

theorem isIn_iff_infix {p s : String} : isIn p s = true ↔ p.toList <:+: s.toList := by
  rw [isIn, List.any_eq_true, List.infix_iff_prefix_suffix]
  constructor
  · intro h
    obtain ⟨rest, hrest, hprefix⟩ := h
    exact ⟨rest, List.isPrefixOf_iff_prefix.mp hprefix, (List.mem_tails _ _).mp hrest⟩
  · intro h
    obtain ⟨rest, hprefix, hsuffix⟩ := h
    exact ⟨rest, (List.mem_tails _ _).mpr hsuffix, List.isPrefixOf_iff_prefix.mpr hprefix⟩

/-- A word does not reach over a character that is not in it. -/
theorem infix_append_cons_iff {w a b : List Char} {c : Char} (hc : c ∉ w) :
    w <:+: a ++ c :: b ↔ w <:+: a ∨ w <:+: b := by
  constructor
  · intro h
    obtain ⟨before, after, heq⟩ := h
    rcases List.append_eq_append_iff.mp heq with ⟨mid, rfl, -⟩ | ⟨mid, hword, hafter⟩
    · exact .inl (List.infix_append before w mid)
    · cases mid with
      | nil =>
          rw [List.append_nil] at hword
          exact .inl ⟨before, [], by rw [List.append_nil]; exact hword⟩
      | cons d mid =>
          obtain ⟨rfl, rfl⟩ := List.cons.inj hafter
          rcases List.append_eq_append_iff.mp hword with ⟨mid', -, hword⟩ | ⟨mid', -, hrest⟩
          · exact absurd (by rw [hword]; exact List.mem_append_right _ List.mem_cons_self) hc
          · cases mid' with
            | nil =>
                rw [List.nil_append] at hrest
                exact absurd (hrest ▸ List.mem_cons_self) hc
            | cons d' mid' =>
                obtain ⟨-, rfl⟩ := List.cons.inj hrest
                exact .inr (List.infix_append mid' w after)
  · rintro (h | h)
    · exact List.infix_append_of_infix_left h
    · exact List.infix_append_of_infix_right (h.trans (List.suffix_cons c b).isInfix)

theorem isIn_joined {w a b : String} (hdot : '.' ∉ w.toList) :
    isIn w (a ++ "." ++ b) = (isIn w a || isIn w b) := by
  rw [Bool.eq_iff_iff, Bool.or_eq_true, isIn_iff_infix, isIn_iff_infix, isIn_iff_infix,
    String.toList_append, String.toList_append, List.append_assoc]
  exact infix_append_cons_iff hdot

end KepServerLogger.Py
