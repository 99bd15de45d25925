import KepServerLogger.Py.Datetime

/-!
# Reading back a formatted datetime

`strptime` inverts `strftime` on every format whose fields are separated by
literals that are not digits, up to the fraction of the second, and
`fromisoformat` inverts `isoformat` exactly for a datetime in UTC.

A group of the expression can read a two-digit field in more than one way —
the whole field, or its first digit alone — and the matcher tries them in
turn. The separator settles it: a shorter reading leaves a digit where the
literal should be, so it dies at once and the match is unique. The same
argument shows that a text which continues with the wrong character after a
field has no match at all, which is how the first stage of a two-stage parser
rejects what the second stage is for.
-/

namespace KepServerLogger.Py

/-! ## One field -/

/-- The field of a datetime a group stands for. -/
def Field.value (n : Naive) : Field → Nat
  | .Y => n.year
  | .m => n.month
  | .d => n.day
  | .H => n.hour
  | .M => n.minute
  | .S => n.second

/-- A reading that stopped inside a number: the next character is a digit. -/
def StopsShort (r : Nat × List Char) : Prop :=
  ∃ c cs, r.2 = c :: cs ∧ (decimalValue? c).isSome = true

theorem readings_pair {f : Field} {v : Nat} (rest : List Char)
    (hv : match f with
      | .Y => False
      | .m => 1 ≤ v ∧ v ≤ 12
      | .d => 1 ≤ v ∧ v ≤ 31
      | .H => v < 24
      | .M => v < 60
      | .S => v < 60) :
    ∃ short, f.readings (padded 2 v ++ rest) = (v, rest) :: short ∧
      ∀ r ∈ short, StopsShort r := by
  cases f with
  | Y => exact hv.elim
  | m | d | H | M | S =>
      obtain ⟨hlo, hhi⟩ : 0 ≤ v ∧ v < 60 := by simp only at hv; omega
      simp only at hv
      interval_cases v <;> first
        | omega
        | exact ⟨[], rfl, by simp⟩
        | exact ⟨[(_, _ :: rest)], rfl, by
            intro r hr
            rw [List.mem_singleton] at hr
            subst hr
            exact ⟨_, _, rfl, by decide⟩⟩

theorem matchSpelling_digits (w n acc m : Nat) (ks : List CharClass)
    (rest : List Char) (hm : ks.length = m) (h : n < 10 ^ w) :
    matchSpelling (List.replicate w .digit ++ ks) acc (padded w n ++ rest) =
      matchSpelling ks (acc * 10 ^ w + n) rest := by
  induction w generalizing n acc m ks rest with
  | zero =>
      have hn : n = 0 := by simpa using h
      simp [padded, hn]
  | succ w ih =>
      have hdig := decimalValue?_digitChar (Nat.mod_lt n (show 0 < 10 by omega))
      rw [List.replicate_succ', padded, List.append_assoc, List.append_assoc,
        ih (n / 10) acc (m + 1) _ _ (by simp [hm]) (div_ten_lt h), List.singleton_append,
        List.singleton_append, matchSpelling,
        if_pos (show CharClass.digit.accepts _ = true by
          rw [CharClass.accepts, hdig]; rfl), hdig, Option.getD_some, value_snoc]

theorem readings_year {y : Nat} (rest : List Char) (h : y ≤ 9999) :
    Field.readings .Y (padded 4 y ++ rest) = [(y, rest)] := by
  have hmatch := matchSpelling_digits 4 y 0 0 [] rest rfl (by omega)
  simp only [Nat.zero_mul, Nat.zero_add, List.append_nil, matchSpelling] at hmatch
  simp only [Field.readings, Field.spellings, List.filterMap_cons, List.filterMap_nil]
  rw [show ([.digit, .digit, .digit, .digit] : List CharClass) =
    List.replicate 4 .digit from rfl, hmatch]

/-- A written field reads back as itself, and every other reading of it stops
short. -/
theorem readings_format (n : Naive) (f : Field) (rest : List Char) :
    ∃ short, f.readings (f.format n ++ rest) = (f.value n, rest) :: short ∧
      ∀ r ∈ short, StopsShort r := by
  obtain ⟨hyear, hmo, hd, hh, hmi, hs, _⟩ := n.valid
  have hd31 := daysInMonth_le n.year n.month
  cases f with
  | Y => exact ⟨[], readings_year rest hyear.2, by simp⟩
  | m => exact readings_pair rest hmo
  | d => exact readings_pair rest ⟨hd.1, Nat.le_trans hd.2 hd31⟩
  | H => exact readings_pair rest hh
  | M => exact readings_pair rest hmi
  | S => exact readings_pair rest hs

/-! ## One separated field -/

/-- A literal no digit can be taken for. -/
def Separates (c : Char) : Prop :=
  ∀ x ∈ [c, c.toLower, c.toUpper], decimalValue? x = none

instance (c : Char) : Decidable (Separates c) :=
  List.decidableBAll (fun x => decimalValue? x = none) [c, c.toLower, c.toUpper]

theorem matchFormat_stopsShort {c : Char} (hc : Separates c) {ds : List Directive}
    {p : Parsed} {r : Nat × List Char} (hr : StopsShort r) :
    matchFormat (.lit c :: ds) p r.2 = [] := by
  obtain ⟨d, cs, hcons, hd⟩ := hr
  have hne : ¬ (d = c ∨ d = c.toLower ∨ d = c.toUpper) := by
    intro h
    rw [hc d (by simpa using h)] at hd
    cases hd
  rw [hcons, matchFormat, if_neg hne]

theorem matchFormat_field (n : Naive) (f : Field) {c : Char}
    (hc : Separates c) (ds : List Directive) (p : Parsed) (rest : List Char) :
    matchFormat (.field f :: .lit c :: ds) p (f.format n ++ rest) =
      matchFormat (.lit c :: ds) (p.set (f.value n) f) rest := by
  obtain ⟨short, hread, hshort⟩ := readings_format n f rest
  rw [matchFormat, hread, List.flatMap_cons,
    List.flatMap_eq_nil_iff.mpr (fun r hr => matchFormat_stopsShort hc (hshort r hr)),
    List.append_nil]

/-! ## Whole formats -/

/-- Every field is followed by a literal that no digit can be taken for. -/
def Separated : List Directive → Prop
  | [] => True
  | .lit _ :: ds => Separated ds
  | .field _ :: .lit c :: ds => Separates c ∧ Separated ds
  | .field _ :: _ => False

/-- What a match of the whole format collects. -/
def Parsed.fill (n : Naive) : List Directive → Parsed → Parsed
  | [], p => p
  | .lit _ :: ds, p => Parsed.fill n ds p
  | .field f :: ds, p => Parsed.fill n ds (p.set (f.value n) f)

theorem matchFormat_strftime (n : Naive) :
    ∀ (fmt : List Directive) (p : Parsed), Separated fmt →
      matchFormat fmt p (strftime n fmt) = [(Parsed.fill n fmt p, [])]
  | [], _, _ => rfl
  | .lit _ :: ds, p, hsep => by
      rw [strftime, matchFormat, if_pos (Or.inl rfl), Parsed.fill]
      exact matchFormat_strftime n ds p hsep
  | .field f :: .lit c :: ds, p, hsep => by
      rw [strftime, matchFormat_field n f hsep.1, strftime, matchFormat,
        if_pos (Or.inl rfl)]
      exact matchFormat_strftime n ds _ hsep.2
  | .field _ :: [], _, hsep => hsep.elim
  | .field _ :: .field _ :: _, _, hsep => hsep.elim

/-! ## ISO 8601 -/

theorem asciiValue?_of_isDigit {c : Char} (h : c.isDigit = true) :
    (asciiValue? c).isSome = true := by
  have hb : '0' ≤ c ∧ c ≤ '9' := by
    simpa [Char.isDigit, Char.le_def] using h
  rw [asciiValue?, if_pos hb]
  rfl

theorem isoFraction_text {us : Nat} (h : us < 1000000) :
    isoFraction (if us = 0 then [] else '.' :: padded 6 us) = some us := by
  split
  · next hz => rw [hz]; rfl
  · next hz =>
      have hne : padded 6 us ≠ [] := by
        intro he
        have := length_padded 6 us
        rw [he] at this
        cases this
      have hall : (padded 6 us).all (fun x => (asciiValue? x).isSome) = true := by
        rw [List.all_eq_true]
        exact fun c hc => asciiValue?_of_isDigit (isDigit_padded c hc)
      have hread : digits? 6 0 (padded 6 us) = some (us, []) := by
        have := digits?_padded (w := 6) [] (show us < 10 ^ 6 by omega)
        rwa [List.append_nil] at this
      rw [isoFraction, if_pos ⟨Or.inl rfl, hne, hall⟩, length_padded]
      rw [show min 6 6 = 6 from rfl, hread]
      simp

theorem isoClock_text {h mi s us : Nat} (hh : h < 24) (hmi : mi < 60) (hs : s < 60)
    (hus : us < 1000000) : isoClock (isoClockText h mi s us) = some (h, mi, s, us) := by
  simp only [isoClock, isoClockText]
  rw [digits?_padded _ (show h < 10 ^ 2 by omega)]
  simp only
  rw [digits?_padded _ (show mi < 10 ^ 2 by omega)]
  simp only
  rw [digits?_padded _ (show s < 10 ^ 2 by omega)]
  simp only
  rw [isoFraction_text hus, Option.map_some]

theorem isoDate_text (n : Naive) : isoDate (isoDateText n) = some (n.year, n.month, n.day) := by
  obtain ⟨hy, hmo, hd, _⟩ := n.valid
  have hd31 := daysInMonth_le n.year n.month
  have hday : digits? 2 0 (padded 2 n.day) = some (n.day, []) := by
    have := digits?_padded (w := 2) [] (show n.day < 10 ^ 2 by omega)
    rwa [List.append_nil] at this
  -- The month starts with a digit, so this is no week date.
  have hweek : (padded 2 n.month ++ '-' :: padded 2 n.day).head? ≠ some 'W' := by
    intro he
    rw [padded, padded, padded, List.nil_append, List.singleton_append,
      List.cons_append, List.head?_cons, Option.some.injEq] at he
    exact ne_of_isDigit (isDigit_padded (w := 2) (n := n.month) _ (by simp [padded]))
      (by decide) he
  simp only [isoDate, isoDateText]
  rw [digits?_padded _ (show n.year < 10 ^ 4 by omega)]
  simp only [List.head?_cons, if_true, List.tail_cons]
  rw [if_neg hweek, digits?_padded _ (show n.month < 10 ^ 2 by omega)]
  simp only [List.head?_cons, not_true, and_false, if_false, List.tail_cons, ne_eq]
  rw [hday]

theorem isDigit_or_mark_of_mem_isoClockText {h mi s us : Nat} :
    ∀ c ∈ isoClockText h mi s us, c.isDigit = true ∨ c = ':' ∨ c = '.' := by
  intro c hc
  simp only [isoClockText, List.mem_append, List.mem_cons] at hc
  rcases hc with hc | rfl | hc | rfl | hc | hc
  · exact Or.inl (isDigit_padded c hc)
  · exact Or.inr (Or.inl rfl)
  · exact Or.inl (isDigit_padded c hc)
  · exact Or.inr (Or.inl rfl)
  · exact Or.inl (isDigit_padded c hc)
  · split at hc
    · cases hc
    · rcases List.mem_cons.mp hc with rfl | hc
      · exact Or.inr (Or.inr rfl)
      · exact Or.inl (isDigit_padded c hc)

theorem isoTime_text {h mi s us : Nat} (hh : h < 24) (hmi : mi < 60) (hs : s < 60)
    (hus : us < 1000000) :
    isoTime (isoClockText h mi s us ++ isoOffsetText .utc) =
      some ((h, mi, s, us), some .utc) := by
  have hclock : ∀ c ∈ isoClockText h mi s us,
      (!(c = '+' || c = '-' || c = 'Z')) = true := by
    intro c hc
    rcases isDigit_or_mark_of_mem_isoClockText c hc with hdig | rfl | rfl
    · have := ne_of_isDigit (x := '+') hdig (by decide)
      have := ne_of_isDigit (x := '-') hdig (by decide)
      have := ne_of_isDigit (x := 'Z') hdig (by decide)
      simp [*]
    · decide
    · decide
  have hzone : isoOffsetText .utc = '+' :: "00:00".toList := by decide
  simp only [isoTime]
  rw [hzone, List.takeWhile_append_of_pos hclock, List.dropWhile_append_of_pos hclock,
    List.takeWhile_cons, List.dropWhile_cons]
  simp only [decide_true, Bool.true_or, Bool.not_true, Bool.false_eq_true, if_false,
    List.append_nil]
  rw [isoClock_text hh hmi hs hus]
  rfl

theorem length_isoDateText (n : Naive) : (isoDateText n).length = 10 := by
  simp [isoDateText]

theorem isoSeparator_text (n : Naive) (sep : Char) (t : List Char) :
    isoSeparator (isoDateText n ++ sep :: t) = some 10 := by
  have hlen : (isoDateText n ++ sep :: t).length ≠ 7 := by
    rw [List.length_append, length_isoDateText]
    omega
  have hdash : (isoDateText n ++ sep :: t)[4]? = some '-' := by
    simp [isoDateText]
  have hweek : (isoDateText n ++ sep :: t)[5]? ≠ some 'W' := by
    intro he
    simp only [isoDateText, padded, List.nil_append,
      List.cons_append, List.getElem?_cons_succ, List.getElem?_cons_zero,
      Option.some.injEq] at he
    exact ne_of_isDigit (isDigit_padded (w := 2) (n := n.month) _ (by simp [padded]))
      (by decide) he
  rw [isoSeparator, if_neg hlen, if_pos hdash, if_neg hweek]

/-- `fromisoformat` reads back what `isoformat` writes for a datetime in
UTC, to the microsecond. -/
theorem fromisoformat_isoformat (u : Utc) (sep : Char) :
    fromisoformat (u.toDatetime.isoformat sep) = some u.toDatetime := by
  obtain ⟨hy, hmo, hd, hh, hmi, hs, hus⟩ := u.clock.valid
  have hlen := length_isoDateText u.clock
  have hlong : ∀ t : List Char, ¬ (isoDateText u.clock ++ t).length < 7 := by
    intro t
    rw [List.length_append, hlen]
    omega
  simp only [fromisoformat, Datetime.isoformat, Utc.toDatetime, isoSeparator_text,
    hlong, if_false]
  rw [List.take_left' hlen, List.drop_left' hlen, isoDate_text]
  simp only
  rw [isoTime_text hh hmi hs hus]
  simp only
  rw [Naive.of?_fields, Option.map_some]

end KepServerLogger.Py
