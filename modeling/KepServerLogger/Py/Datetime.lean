import KepServerLogger.Py.Text
import Mathlib.Order.Basic
import Mathlib.Tactic.Linarith

/-!
# Python datetimes and the two text formats on the wire

`Naive` is a calendar date and a time of day whose fields are in range, which
is a field of the structure: an invalid date cannot be built. `Datetime` adds
an optional UTC offset, and `Utc` is the aware datetime every stored sample
carries.

Two text formats matter. `strftime` writes a format of directives and
literals, and `strptime` reads one back the way the library does, as a regular
expression whose groups have several spellings and which takes the first
match. `isoformat` and `fromisoformat` are the ISO 8601 pair, the latter
accepting basic and extended forms, week dates and offsets.
-/

namespace KepServerLogger.Py

/-! ## The calendar -/

def isLeap (year : Nat) : Bool :=
  year % 4 = 0 && (year % 100 ≠ 0 || year % 400 = 0)

def daysInMonth (year : Nat) : Nat → Nat
  | 2 => if isLeap year then 29 else 28
  | 4 | 6 | 9 | 11 => 30
  | _ => 31

theorem daysInMonth_le (year month : Nat) : daysInMonth year month ≤ 31 := by
  unfold daysInMonth
  split <;> (try split) <;> omega

/-- The ranges `datetime(...)` checks. -/
def ValidFields (year month day hour minute second microsecond : Nat) : Prop :=
  (1 ≤ year ∧ year ≤ 9999) ∧ (1 ≤ month ∧ month ≤ 12) ∧
    (1 ≤ day ∧ day ≤ daysInMonth year month) ∧ hour < 24 ∧ minute < 60 ∧
    second < 60 ∧ microsecond < 1000000

instance (y mo d h mi s us : Nat) : Decidable (ValidFields y mo d h mi s us) :=
  inferInstanceAs (Decidable (_ ∧ _))

structure Naive where
  year : Nat
  month : Nat
  day : Nat
  hour : Nat
  minute : Nat
  second : Nat
  microsecond : Nat
  valid : ValidFields year month day hour minute second microsecond
  deriving DecidableEq

namespace Naive

/-- `datetime(year, month, ...)`; `none` where Python raises `ValueError`. -/
def of? (y mo d h mi s us : Nat) : Option Naive :=
  if hv : ValidFields y mo d h mi s us then some ⟨y, mo, d, h, mi, s, us, hv⟩
  else none

theorem of?_fields (n : Naive) : of? n.year n.month n.day n.hour n.minute
    n.second n.microsecond = some n := by
  rw [of?, dif_pos n.valid]

/-- The fields as one number, most significant first, so that comparing the
numbers compares the datetimes. -/
def rank (n : Naive) : Nat :=
  (((((n.year * 13 + n.month) * 32 + n.day) * 24 + n.hour) * 60 + n.minute) * 60
    + n.second) * 1000000 + n.microsecond

theorem rank_injective : Function.Injective rank := by
  intro a b h
  obtain ⟨_, hmo, hd, hh, hmi, hs, hu⟩ := a.valid
  obtain ⟨_, hmo', hd', hh', hmi', hs', hu'⟩ := b.valid
  have hd31 := daysInMonth_le a.year a.month
  have hd31' := daysInMonth_le b.year b.month
  simp only [rank] at h
  cases a; cases b
  simp only [mk.injEq]
  dsimp only at *
  omega

instance : LinearOrder Naive := LinearOrder.lift' rank rank_injective

/-- `replace(microsecond=0)` -/
def truncated (n : Naive) : Naive where
  year := n.year
  month := n.month
  day := n.day
  hour := n.hour
  minute := n.minute
  second := n.second
  microsecond := 0
  valid := by
    obtain ⟨hy, hmo, hd, hh, hmi, hs, _⟩ := n.valid
    exact ⟨hy, hmo, hd, hh, hmi, hs, by decide⟩

/-- Days from 0001-01-01, which is day 1. -/
def daysBeforeMonth (year month : Nat) : Nat :=
  ((List.range (month - 1)).map fun m => daysInMonth year (m + 1)).sum

def ymdToOrdinal (year month day : Nat) : Nat :=
  let y := year - 1
  y * 365 + y / 4 - y / 100 + y / 400 + daysBeforeMonth year month + day

/-- The month and day of the `n`-th day (from 0) of a year. -/
def monthDay (year : Nat) : Nat → Nat → Nat → Nat × Nat
  | 0, month, n => (month, n + 1)
  | fuel + 1, month, n =>
      if n < daysInMonth year month then (month, n + 1)
      else monthDay year fuel (month + 1) (n - daysInMonth year month)

def ordinalToYmd (ordinal : Nat) : Nat × Nat × Nat :=
  let n := ordinal - 1
  let n400 := n / 146097
  let n := n % 146097
  let n100 := n / 36524
  let n := n % 36524
  let n4 := n / 1461
  let n := n % 1461
  let n1 := n / 365
  let n := n % 365
  let year := n400 * 400 + n100 * 100 + n4 * 4 + n1 + 1
  -- Day 366 of a leap year falls one past the last full cycle.
  if n1 = 4 ∨ n100 = 4 then (year - 1, 12, 31)
  else (year, monthDay year 11 1 n)

/-- Microseconds since the day before 0001-01-01. -/
def toMicros (n : Naive) : Int :=
  (((ymdToOrdinal n.year n.month n.day * 24 + n.hour) * 60 + n.minute) * 60
    + n.second : Nat) * 1000000 + n.microsecond

/-- The datetime at a number of microseconds; `none` where Python raises
`OverflowError`. -/
def ofMicros (t : Int) : Option Naive :=
  if t < 86400000000 then none
  else
    let t := t.toNat
    let (y, mo, d) := ordinalToYmd (t / 86400000000)
    let r := t % 86400000000
    of? y mo d (r / 3600000000) (r / 60000000 % 60) (r / 1000000 % 60) (r % 1000000)

end Naive

/-- A fixed offset from UTC in microseconds, strictly less than a day. -/
structure Offset where
  micros : Int
  bound : -86400000000 < micros ∧ micros < 86400000000
  deriving DecidableEq

def Offset.utc : Offset := ⟨0, by decide⟩

def Offset.of? (t : Int) : Option Offset :=
  if h : -86400000000 < t ∧ t < 86400000000 then some ⟨t, h⟩ else none

structure Datetime where
  clock : Naive
  tzinfo : Option Offset
  deriving DecidableEq

/-- The microseconds on the clock, less the offset if there is one. -/
def Datetime.micros (d : Datetime) : Int := d.clock.toMicros - d.tzinfo.elim 0 Offset.micros

/-- An aware datetime in UTC. -/
structure Utc where
  clock : Naive
  deriving DecidableEq

namespace Utc

theorem clock_injective : Function.Injective clock := by
  intro a b h
  cases a; cases b
  exact congrArg mk h

/-- Two aware datetimes in one zone compare by their clocks. -/
instance : LinearOrder Utc := LinearOrder.lift' clock clock_injective

def toDatetime (u : Utc) : Datetime := ⟨u.clock, some .utc⟩

def truncated (u : Utc) : Utc := ⟨u.clock.truncated⟩

/-- `u - v`, in microseconds. -/
def since (u v : Utc) : Int := u.clock.toMicros - v.clock.toMicros

end Utc

/-- `dt.astimezone(timezone.utc)` of an aware datetime. -/
def Naive.astimezoneUtc (n : Naive) (tz : Offset) : Option Utc :=
  if tz.micros = 0 then some ⟨n⟩ else (Naive.ofMicros (n.toMicros - tz.micros)).map Utc.mk

/-- `dt.astimezone(timezone.utc) if dt.tzinfo else dt.replace(tzinfo=timezone.utc)` -/
def Datetime.toUtc (d : Datetime) : Option Utc :=
  match d.tzinfo with
  | some tz => d.clock.astimezoneUtc tz
  | none => some ⟨d.clock⟩

theorem Utc.toUtc_toDatetime (u : Utc) : u.toDatetime.toUtc = some u := by
  simp [Utc.toDatetime, Datetime.toUtc, Naive.astimezoneUtc, Offset.utc]

/-! ## `strftime` and `strptime` -/

inductive Field where
  | Y | m | d | H | M | S
  deriving DecidableEq, Repr

inductive Directive where
  | field (f : Field)
  | lit (c : Char)
  deriving DecidableEq, Repr

/-- One directive written out, with leading zeros: `%Y` is of four digits. -/
def Field.format (n : Naive) : Field → List Char
  | .Y => padded 4 n.year
  | .m => padded 2 n.month
  | .d => padded 2 n.day
  | .H => padded 2 n.hour
  | .M => padded 2 n.minute
  | .S => padded 2 n.second

def strftime (n : Naive) : List Directive → List Char
  | [] => []
  | .field f :: ds => f.format n ++ strftime n ds
  | .lit c :: ds => c :: strftime n ds

/-- One position of a group of the regular expression. -/
inductive CharClass where
  | digit
  | range (lo hi : Char)
  | only (c : Char)

def CharClass.accepts : CharClass → Char → Bool
  | .digit, c => (decimalValue? c).isSome
  | .range lo hi, c => lo ≤ c && c ≤ hi
  | .only x, c => c = x

/-- The spellings of each group, in the order the expression tries them. -/
def Field.spellings : Field → List (List CharClass)
  | .Y => [[.digit, .digit, .digit, .digit]]
  | .m => [[.only '1', .range '0' '2'], [.only '0', .range '1' '9'], [.range '1' '9']]
  | .d => [[.only '3', .range '0' '1'], [.range '1' '2', .digit],
      [.only '0', .range '1' '9'], [.range '1' '9'], [.only ' ', .range '1' '9']]
  | .H => [[.only '2', .range '0' '3'], [.range '0' '1', .digit], [.digit]]
  | .M => [[.range '0' '5', .digit], [.digit]]
  | .S => [[.only '6', .range '0' '1'], [.range '0' '5', .digit], [.digit]]

/-- Matches one spelling and returns the number it spells; a leading blank
counts as nothing, as `int` reads it. -/
def matchSpelling : List CharClass → Nat → List Char → Option (Nat × List Char)
  | [], acc, s => some (acc, s)
  | _ :: _, _, [] => none
  | k :: ks, acc, c :: cs =>
      if k.accepts c then matchSpelling ks (10 * acc + (decimalValue? c).getD 0) cs
      else none

/-- What the groups of a match hold; the defaults are those of `strptime`. -/
structure Parsed where
  year : Nat := 1900
  month : Nat := 1
  day : Nat := 1
  hour : Nat := 0
  minute : Nat := 0
  second : Nat := 0

def Parsed.set (p : Parsed) (v : Nat) : Field → Parsed
  | .Y => { p with year := v }
  | .m => { p with month := v }
  | .d => { p with day := v }
  | .H => { p with hour := v }
  | .M => { p with minute := v }
  | .S => { p with second := v }

/-- What a group can read at the front of the text, first spelling first. -/
def Field.readings (f : Field) (s : List Char) : List (Nat × List Char) :=
  f.spellings.filterMap fun spelling => matchSpelling spelling 0 s

/-- All matches of a format at the front of the text, in the order the
backtracking matcher finds them. Literals match in either case, since the
expression is compiled to ignore it. -/
def matchFormat : List Directive → Parsed → List Char → List (Parsed × List Char)
  | [], p, s => [(p, s)]
  | .lit _ :: _, _, [] => []
  | .lit c :: ds, p, x :: xs =>
      if x = c ∨ x = c.toLower ∨ x = c.toUpper then matchFormat ds p xs else []
  | .field f :: ds, p, s =>
      (f.readings s).flatMap fun r => matchFormat ds (p.set r.1 f) r.2

/-- `datetime.strptime(s, fmt)`; `none` where Python raises `ValueError`:
nothing matches, text is left over after the first match, or the date does
not exist. -/
def strptime (fmt : List Directive) (s : List Char) : Option Naive :=
  match matchFormat fmt {} s with
  | (p, []) :: _ => Naive.of? p.year p.month p.day p.hour p.minute p.second 0
  | _ => none

/-! ## `isoformat` and `fromisoformat` -/

def isoClockText (h mi s us : Nat) : List Char :=
  padded 2 h ++ ':' :: (padded 2 mi ++ ':' :: (padded 2 s ++
    if us = 0 then [] else '.' :: padded 6 us))

def isoOffsetText (tz : Offset) : List Char :=
  let t := tz.micros.natAbs
  (if tz.micros < 0 then '-' else '+') ::
    (padded 2 (t / 3600000000) ++ ':' :: (padded 2 (t / 60000000 % 60) ++
      (if t % 60000000 = 0 then [] else
        ':' :: (padded 2 (t / 1000000 % 60) ++
          if t % 1000000 = 0 then [] else '.' :: padded 6 (t % 1000000)))))

def isoDateText (n : Naive) : List Char :=
  padded 4 n.year ++ '-' :: (padded 2 n.month ++ '-' :: padded 2 n.day)

/-- `dt.isoformat(sep)` -/
def Datetime.isoformat (sep : Char) (d : Datetime) : List Char :=
  isoDateText d.clock ++ sep ::
    (isoClockText d.clock.hour d.clock.minute d.clock.second d.clock.microsecond ++
      match d.tzinfo with
      | none => []
      | some tz => isoOffsetText tz)

/-- The fraction after the second: at least one digit, the first six count. -/
def isoFraction : List Char → Option Nat
  | [] => some 0
  | c :: ds =>
      if (c = '.' ∨ c = ',') ∧ ds ≠ [] ∧ ds.all (fun x => (asciiValue? x).isSome) then
        (digits? (min 6 ds.length) 0 ds).map fun p => p.1 * 10 ^ (6 - min 6 ds.length)
      else none

/-- `HH[:MM[:SS[.fff]]]` or the same without the colons. -/
def isoClock (s : List Char) : Option (Nat × Nat × Nat × Nat) :=
  match digits? 2 0 s with
  | none => none
  | some (h, []) => some (h, 0, 0, 0)
  | some (h, ':' :: s) =>
      match digits? 2 0 s with
      | none => none
      | some (mi, []) => some (h, mi, 0, 0)
      | some (mi, ':' :: s) =>
          match digits? 2 0 s with
          | none => none
          | some (sec, s) => (isoFraction s).map fun us => (h, mi, sec, us)
      | some (_, _ :: _) => none
  | some (h, s) =>
      match digits? 2 0 s with
      | none => none
      | some (mi, []) => some (h, mi, 0, 0)
      | some (mi, s) =>
          match digits? 2 0 s with
          | none => none
          | some (sec, s) => (isoFraction s).map fun us => (h, mi, sec, us)

def isoOffset (negative : Bool) (s : List Char) : Option Offset :=
  match isoClock s with
  | none => none
  | some (h, mi, sec, us) =>
      let t : Int := (((h * 60 + mi) * 60 + sec) * 1000000 + us : Nat)
      Offset.of? (if negative then -t else t)

/-- The time of day and what follows it: nothing, `Z` or a signed offset. -/
def isoTime (s : List Char) : Option ((Nat × Nat × Nat × Nat) × Option Offset) :=
  let isZone := fun c : Char => c = '+' || c = '-' || c = 'Z'
  match isoClock (s.takeWhile fun c => !isZone c) with
  | none => none
  | some t =>
      match s.dropWhile fun c => !isZone c with
      | [] => some (t, none)
      | ['Z'] => some (t, some .utc)
      | 'Z' :: _ => none
      | sign :: zone => (isoOffset (sign = '-') zone).map fun tz => (t, some tz)

/-- The Gregorian date of an ISO week date. -/
def isoWeekDate (year week weekday : Nat) : Option (Nat × Nat × Nat) :=
  let first := Naive.ymdToOrdinal year 1 1
  let longYear := first % 7 = 4 ∨ (first % 7 = 3 ∧ isLeap year = true)
  if 1 ≤ year ∧ 1 ≤ week ∧ (week ≤ 52 ∨ (week = 53 ∧ longYear)) ∧
      1 ≤ weekday ∧ weekday ≤ 7 then
    let monday := first + (if 3 < (first + 6) % 7 then 7 else 0) - (first + 6) % 7
    some (Naive.ordinalToYmd (monday + (week - 1) * 7 + (weekday - 1)))
  else none

def isoWeek (year : Nat) (dashed : Bool) (s : List Char) : Option (Nat × Nat × Nat) :=
  match digits? 2 0 s with
  | none => none
  | some (week, []) => isoWeekDate year week 1
  | some (week, c :: cs) =>
      let rest := if dashed then (if c = '-' then some cs else none) else some (c :: cs)
      match rest.bind (digits? 1 0) with
      | some (weekday, []) => isoWeekDate year week weekday
      | _ => none

/-- `YYYY-MM-DD`, `YYYYMMDD` or a week date: the dashes are used throughout or
not at all. -/
def isoDate (s : List Char) : Option (Nat × Nat × Nat) :=
  match digits? 4 0 s with
  | none => none
  | some (year, s) =>
      let dashed := s.head? = some '-'
      let s := if dashed then s.tail else s
      if s.head? = some 'W' then isoWeek year dashed s.tail
      else
        match digits? 2 0 s with
        | none => none
        | some (month, s) =>
            if dashed ∧ s.head? ≠ some '-' then none
            else
              match digits? 2 0 (if dashed then s.tail else s) with
              | some (day, []) => some (year, month, day)
              | _ => none

/-- Where the date ends, told from the fifth and sixth characters; a week date
without dashes is told from the parity of the run of digits after the week. -/
def isoSeparator (s : List Char) : Option Nat :=
  let isDigitAt := fun i : Nat => (s[i]?.bind asciiValue?).isSome
  if s.length = 7 then some 7
  else if s[4]? = some '-' then
    if s[5]? = some 'W' then
      if s[8]? = some '-' then
        if s.length = 9 then none else if isDigitAt 10 then some 8 else some 10
      else some 8
    else some 10
  else if s[4]? = some 'W' then
    let run := ((s.drop 7).takeWhile fun c => (asciiValue? c).isSome).length
    if run < 2 then some (7 + run) else if (7 + run) % 2 = 0 then some 7 else some 8
  else some 8

/-- `datetime.fromisoformat(s)`; `none` where Python raises `ValueError`. -/
def fromisoformat (s : List Char) : Option Datetime :=
  if s.length < 7 then none
  else
    match isoSeparator s with
    | none => none
    | some i =>
        match isoDate (s.take i), s.drop i with
        | some (y, mo, d), [] => (Naive.of? y mo d 0 0 0 0).map fun n => ⟨n, none⟩
        | some (y, mo, d), _ :: t =>
            match isoTime t with
            | none => none
            | some ((h, mi, sec, us), tz) =>
                (Naive.of? y mo d h mi sec us).map fun n => ⟨n, tz⟩
        | none, _ => none

end KepServerLogger.Py
