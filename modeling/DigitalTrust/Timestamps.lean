/-
# Instants and their texts

A library model of instants with microsecond precision: the proleptic Gregorian calendar in UTC, the
texts that a JavaScript `Date` and Postgres' `to_char` make of an instant, and the timestamps of RFC
3339.  An instant is the number of microseconds since 1970-01-01T00:00:00Z.  The calendar counts
days from March, so that a leap day is the last day of its year.
-/
import DigitalTrust.Digits

namespace Timestamps

open Digits

/-! ## The calendar -/

structure Date where
  year : ℤ
  month : ℤ
  day : ℤ
  deriving DecidableEq

/-- Which of the four centuries of an era a day belongs to. -/
def centuryOfEra (doe : ℤ) : ℤ := min (doe / 36524) 3

def yearOfCentury (r : ℤ) : ℤ := 4 * (r / 1461) + min (r % 1461 / 365) 3

def yearOfEra (doe : ℤ) : ℤ :=
  100 * centuryOfEra doe + yearOfCentury (doe - 36524 * centuryOfEra doe)

def daysBefore (y : ℤ) : ℤ := 365 * y + y / 4 - y / 100

/-- The date of a day of a year that starts in March. -/
def ofMarch (y doy : ℤ) : Date :=
  let mp := (5 * doy + 2) / 153
  if mp < 10 then ⟨y, mp + 3, doy - (153 * mp + 2) / 5 + 1⟩
  else ⟨y + 1, mp - 9, doy - (153 * mp + 2) / 5 + 1⟩

/-- The year, from March on, that a date belongs to. -/
def marchYear (d : Date) : ℤ := if d.month ≤ 2 then d.year - 1 else d.year

def marchDay (d : Date) : ℤ := (153 * ((d.month + 9) % 12) + 2) / 5 + d.day - 1

/-- The date of a day, counted from 1970-01-01. -/
def civil (days : ℤ) : Date :=
  let doe := (days + 719468) % 146097
  ofMarch ((days + 719468) / 146097 * 400 + yearOfEra doe) (doe - daysBefore (yearOfEra doe))

/-- The day of a date, counted from 1970-01-01. -/
def daysOf (d : Date) : ℤ :=
  marchYear d / 400 * 146097 + daysBefore (marchYear d % 400) + marchDay d - 719468

/-- A date has a month and a day that two digits suffice for. -/
structure Date.InRange (d : Date) : Prop where
  month : 1 ≤ d.month ∧ d.month ≤ 12
  day : 1 ≤ d.day ∧ d.day ≤ 31

/-- A date is read back from its March day. -/
theorem march_ofMarch {y doy : ℤ} (h : 0 ≤ doy ∧ doy < 366) :
    marchYear (ofMarch y doy) = y ∧ marchDay (ofMarch y doy) = doy ∧ (ofMarch y doy).InRange := by
  unfold ofMarch marchYear marchDay
  dsimp only
  split
  · exact ⟨by dsimp only; omega, by dsimp only; omega, ⟨by dsimp only; omega, by dsimp only; omega⟩⟩
  · exact ⟨by dsimp only; omega, by dsimp only; omega, ⟨by dsimp only; omega, by dsimp only; omega⟩⟩

section Era

variable {doe : ℤ} (h : 0 ≤ doe ∧ doe < 146097)
include h

theorem yearOfEra_bounds : 0 ≤ yearOfEra doe ∧ yearOfEra doe < 400 := by
  unfold yearOfEra yearOfCentury centuryOfEra
  omega

/-- The day of the year is one of a year. -/
theorem dayOfYear_bounds :
    0 ≤ doe - daysBefore (yearOfEra doe) ∧ doe - daysBefore (yearOfEra doe) < 366 := by
  have hc : 0 ≤ centuryOfEra doe ∧ centuryOfEra doe ≤ 3 ∧ 0 ≤ doe - 36524 * centuryOfEra doe ∧
      doe - 36524 * centuryOfEra doe < 36525 := by
    unfold centuryOfEra
    omega
  unfold yearOfEra
  generalize centuryOfEra doe = c at *
  generalize hr : doe - 36524 * c = r at *
  have hy : 0 ≤ yearOfCentury r ∧ yearOfCentury r < 100 ∧ yearOfCentury r / 4 = r / 1461 := by
    unfold yearOfCentury
    omega
  have hbefore : daysBefore (100 * c + yearOfCentury r) =
      36524 * c + 365 * yearOfCentury r + r / 1461 := by
    unfold daysBefore
    omega
  rw [hbefore]
  unfold yearOfCentury
  omega

end Era

theorem civil_inRange (days : ℤ) : (civil days).InRange := by
  have hdoe : 0 ≤ (days + 719468) % 146097 ∧ (days + 719468) % 146097 < 146097 := by omega
  exact (march_ofMarch (dayOfYear_bounds hdoe)).2.2

/-- **Round trip**: the day of the date of a day. -/
theorem daysOf_civil (days : ℤ) : daysOf (civil days) = days := by
  have hdoe : 0 ≤ (days + 719468) % 146097 ∧ (days + 719468) % 146097 < 146097 := by omega
  have hyear := yearOfEra_bounds hdoe
  obtain ⟨hy, hd, -⟩ := march_ofMarch
    (y := (days + 719468) / 146097 * 400 + yearOfEra ((days + 719468) % 146097))
    (dayOfYear_bounds hdoe)
  have hmod : ((days + 719468) / 146097 * 400 + yearOfEra ((days + 719468) % 146097)) % 400 =
      yearOfEra ((days + 719468) % 146097) := by omega
  unfold daysOf civil
  dsimp only
  rw [hy, hd, hmod]
  omega

/-! ## Instants -/

/-- Microseconds since 1970-01-01T00:00:00Z. -/
abbrev Instant := ℤ

/-- A date and a time of the day. -/
structure Fields where
  date : Date
  hour : ℤ
  minute : ℤ
  second : ℤ
  micro : ℤ

/-- Date and time of an instant. -/
def fields (t : Instant) : Fields where
  date := civil (t / 86400000000)
  hour := t % 86400000000 / 3600000000
  minute := t % 3600000000 / 60000000
  second := t % 60000000 / 1000000
  micro := t % 1000000

/-- The instant of a date and a time. -/
def instant (f : Fields) : Instant :=
  daysOf f.date * 86400000000 + f.hour * 3600000000 + f.minute * 60000000 + f.second * 1000000 +
    f.micro

def year (t : Instant) : ℤ := (fields t).date.year

theorem instant_fields (t : Instant) : instant (fields t) = t := by
  unfold instant fields
  dsimp only
  rw [daysOf_civil]
  change (_ : ℤ) = _
  omega

/-- What a JavaScript `Date` keeps of an instant: whole milliseconds. -/
def toDate (t : Instant) : Instant := t / 1000 * 1000

/-! ## Texts -/

/-- The text of date and time after the year, with the given digits for the fraction. -/
def afterYear (f : Fields) (fraction : List Char) : List Char :=
  '-' :: (padded decimal 2 f.date.month.toNat ++ '-' :: (padded decimal 2 f.date.day.toNat ++
    'T' :: (padded decimal 2 f.hour.toNat ++ ':' :: (padded decimal 2 f.minute.toNat ++
      ':' :: (padded decimal 2 f.second.toNat ++ '.' :: (fraction ++ ['Z']))))))

/-- The year in the text of a `Date`. -/
def isoYear (y : ℤ) : List Char :=
  if 0 ≤ y ∧ y ≤ 9999 then padded decimal 4 y.toNat
  else (if 0 < y then '+' else '-') :: padded decimal 6 y.natAbs

/-- `toISOString` of the `Date` of an instant. -/
def toISOString (t : Instant) : List Char :=
  isoYear (year t) ++
    afterYear (fields t) (padded decimal 3 ((fields t).micro / 1000).toNat)

/-- The year in a text of `to_char`: years before Christ are counted backwards, with no sign. -/
def charYear (y : ℤ) : List Char :=
  let n := (if 0 < y then y else 1 - y).toNat
  padded decimal (max 4 (Nat.log 10 n + 1)) n

/-- `to_char(t AT TIME ZONE 'UTC', 'YYYY-MM-DD"T"HH24:MI:SS.US"Z"')`. -/
def toChar (t : Instant) : List Char :=
  charYear (year t) ++ afterYear (fields t) (padded decimal 6 (fields t).micro.toNat)

/-! ## RFC 3339 -/

/-- The difference from UTC in minutes. -/
abbrev Offset := ℤ

structure Parsed where
  date : Date
  separator : Char
  hour : ℕ
  minute : ℕ
  second : ℕ
  fraction : List Char
  offset : Offset

/-- Whether a character is a decimal digit. -/
def isDigit (c : Char) : Bool := (decimalValue c).isSome

/-- The optional fraction of a second, which has at least one digit. -/
def readFraction : List Char → Option (List Char × List Char)
  | [] => some ([], [])
  | c :: t =>
    if c = '.' then
      if t.takeWhile isDigit = [] then none else some (t.takeWhile isDigit, t.dropWhile isDigit)
    else some ([], c :: t)

def readOffset : List Char → Option Offset
  | [] => none
  | c :: t =>
    if c = 'Z' ∨ c = 'z' then if t = [] then some 0 else none
    else if c = '+' ∨ c = '-' then do
      let (h, t) ← readPadded decimal 2 0 t
      let t ← expect ':' t
      let (m, t) ← readPadded decimal 2 0 t
      if h ≤ 23 ∧ m ≤ 59 ∧ t = [] then
        some (if c = '+' then (h * 60 + m : ℤ) else -(h * 60 + m : ℤ))
      else none
    else none

def readDate (t : List Char) : Option (Date × List Char) :=
  (readNumber decimal 4 '-' t).bind fun year =>
  (readNumber decimal 2 '-' year.2).bind fun month =>
  (readPadded decimal 2 0 month.2).bind fun day =>
  if 1 ≤ month.1 ∧ month.1 ≤ 12 ∧ 1 ≤ day.1 ∧ day.1 ≤ 31 then
    some (⟨year.1, month.1, day.1⟩, day.2)
  else none

/-- Whether a character may stand between date and time. -/
def isSeparator (c : Char) : Bool := c = ' ' ∨ c = 't' ∨ c = 'T'

/-- `isRFC3339`, with what was read. -/
def readRfc3339 (text : List Char) : Option Parsed :=
  (readDate text).bind fun date =>
  (date.2.head?.filter isSeparator).bind fun separator =>
  (readNumber decimal 2 ':' date.2.tail).bind fun hour =>
  (readNumber decimal 2 ':' hour.2).bind fun minute =>
  (readPadded decimal 2 0 minute.2).bind fun second =>
  (readFraction second.2).bind fun fraction =>
  (readOffset fraction.2).bind fun offset =>
  if hour.1 ≤ 23 ∧ minute.1 ≤ 59 ∧ second.1 ≤ 60 then
    some ⟨date.1, separator, hour.1, minute.1, second.1, fraction.1, offset⟩
  else none

/-- What a strict check of ISO 8601, and a `Date` that is to be finite, ask for beyond RFC 3339: no
lower-case separator, no leap second, and a day that the calendar has.  The check passes the year as
a number to `Date`, which reads one below 100 as of another century. -/
def Parsed.isISO8601 (p : Parsed) : Bool :=
  p.separator ≠ 't' && p.second ≤ 59 && 100 ≤ p.date.year && civil (daysOf p.date) = p.date

/-- The microseconds that the digits of a fraction stand for; a seventh digit rounds. -/
def microsOf (fraction : List Char) : ℤ :=
  let digits := fraction.filterMap decimalValue
  ((digits.take 6 ++ List.replicate (6 - digits.length) 0).foldl (fun n d => n * 10 + d) 0 : ℕ) +
    (if 5 ≤ digits.getD 6 0 then 1 else 0)

/-- `CAST(text AS timestamptz)`. -/
def Parsed.cast (p : Parsed) : Instant :=
  instant ⟨p.date, p.hour, p.minute, p.second, microsOf p.fraction⟩ - p.offset * 60000000

/-! ## Reading back what was written -/

/-- Date and time of an instant fit their two digits. -/
structure Fields.InRange (f : Fields) : Prop where
  date : f.date.InRange
  hour : 0 ≤ f.hour ∧ f.hour ≤ 23
  minute : 0 ≤ f.minute ∧ f.minute ≤ 59
  second : 0 ≤ f.second ∧ f.second ≤ 59
  micro : 0 ≤ f.micro ∧ f.micro ≤ 999999

theorem fields_inRange (t : Instant) : (fields t).InRange := by
  refine ⟨civil_inRange _, ?_, ?_, ?_, ?_⟩ <;> unfold fields <;> dsimp only <;> omega

theorem read_decimal {k : ℕ} {n : ℕ} (h : n < 10 ^ k) (t : List Char) :
    readPadded decimal k 0 (padded decimal k n ++ t) = some (n, t) :=
  readPadded_padded decimal h t

/-- Padded numbers are digits. -/
theorem isDigit_padded (k n : ℕ) : ∀ c ∈ padded decimal k n, isDigit c = true := by
  induction k with
  | zero => simp [padded]
  | succ k ih =>
    intro c hc
    rcases List.mem_cons.1 hc with rfl | hc
    · exact Option.isSome_iff_exists.2 ⟨_, decimal.value_digit _ (Nat.mod_lt _ decimal.pos)⟩
    · exact ih c hc

theorem readFraction_padded (k n : ℕ) (t : List Char) :
    readFraction ('.' :: (padded decimal (k + 1) n ++ 'Z' :: t)) =
      some (padded decimal (k + 1) n, 'Z' :: t) := by
  have htake : (padded decimal (k + 1) n ++ 'Z' :: t).takeWhile isDigit =
      padded decimal (k + 1) n := by
    rw [List.takeWhile_append_of_pos (isDigit_padded _ _)]
    exact List.append_nil _
  have hdrop : (padded decimal (k + 1) n ++ 'Z' :: t).dropWhile isDigit = 'Z' :: t :=
    List.dropWhile_append_of_pos (isDigit_padded _ _)
  rw [readFraction, if_pos rfl, htake, hdrop, if_neg (by simp [padded])]

/-- What is read from the text of a date and a time. -/
def written (f : Fields) (fraction : List Char) : Parsed :=
  ⟨f.date, 'T', f.hour.toNat, f.minute.toNat, f.second.toNat, fraction, 0⟩

theorem readNumber_decimal {k n : ℕ} (h : n < 10 ^ k) (stop : Char) (t : List Char) :
    readNumber decimal k stop (padded decimal k n ++ stop :: t) = some (n, t) :=
  readNumber_padded decimal h stop t

/-- A date is read back from its text. -/
theorem readDate_text {d : Date} (h : d.InRange) (hy : 0 ≤ d.year ∧ d.year ≤ 9999)
    (t : List Char) :
    readDate (padded decimal 4 d.year.toNat ++ '-' :: (padded decimal 2 d.month.toNat ++
      '-' :: (padded decimal 2 d.day.toNat ++ t))) = some (d, t) := by
  obtain ⟨hmonth, hday⟩ := h
  have hyear : d.year.toNat < 10 ^ 4 := by omega
  have hm : d.month.toNat < 10 ^ 2 := by omega
  have hd : d.day.toNat < 10 ^ 2 := by omega
  rw [readDate, readNumber_decimal hyear, Option.bind_some, readNumber_decimal hm, Option.bind_some,
    read_decimal hd, Option.bind_some, if_pos (by dsimp only; omega),
    Int.toNat_of_nonneg hy.1, Int.toNat_of_nonneg (by omega), Int.toNat_of_nonneg (by omega)]

/-- **Reading back**: a year of four digits, then date and time with a fraction. -/
theorem readRfc3339_text {f : Fields} (h : f.InRange) (hy : 0 ≤ f.date.year ∧ f.date.year ≤ 9999)
    (k n : ℕ) :
    readRfc3339 (padded decimal 4 f.date.year.toNat ++ afterYear f (padded decimal (k + 1) n)) =
      some (written f (padded decimal (k + 1) n)) := by
  obtain ⟨hdate, hhour, hminute, hsecond, -⟩ := h
  have hh : f.hour.toNat < 10 ^ 2 := by omega
  have hm : f.minute.toNat < 10 ^ 2 := by omega
  have hs : f.second.toNat < 10 ^ 2 := by omega
  have hT : (some 'T').filter isSeparator = some 'T' := rfl
  rw [readRfc3339, afterYear, readDate_text hdate hy, Option.bind_some, List.head?_cons, hT,
    Option.bind_some, List.tail_cons, readNumber_decimal hh, Option.bind_some,
    readNumber_decimal hm, Option.bind_some, read_decimal hs, Option.bind_some,
    readFraction_padded, Option.bind_some, show readOffset ['Z'] = some 0 from rfl,
    Option.bind_some, if_pos (by dsimp only; omega), written]

/-- A text that does not start with four digits and a dash is no timestamp. -/
theorem readRfc3339_eq_none {text : List Char} (h : readNumber decimal 4 '-' text = none) :
    readRfc3339 text = none := by
  rw [readRfc3339, readDate, h, Option.bind_none, Option.bind_none]

/-- The value of padded digits. -/
theorem foldl_padded (k n : ℕ) :
    ∀ acc, ((padded decimal k n).filterMap decimalValue).foldl (fun n d => n * 10 + d) acc =
      acc * 10 ^ k + n % 10 ^ k := by
  induction k with
  | zero => simp [padded, Nat.mod_one]
  | succ k ih =>
    intro acc
    have hdigit : decimalValue (decimal.digit (n / decimal.base ^ k % decimal.base)) =
        some (n / 10 ^ k % 10) :=
      decimal.value_digit _ (Nat.mod_lt _ decimal.pos)
    rw [padded, List.filterMap_cons_some hdigit, List.foldl_cons, ih, Nat.mod_pow_succ]
    ring

theorem length_filterMap_padded (k n : ℕ) :
    ((padded decimal k n).filterMap decimalValue).length = k := by
  induction k with
  | zero => rfl
  | succ k ih =>
    have hdigit : decimalValue (decimal.digit (n / decimal.base ^ k % decimal.base)) =
        some (n / 10 ^ k % 10) :=
      decimal.value_digit _ (Nat.mod_lt _ decimal.pos)
    rw [padded, List.filterMap_cons_some hdigit, List.length_cons, ih]

/-- The microseconds in a fraction of at most six digits. -/
theorem microsOf_padded {k n : ℕ} (hk : k ≤ 6) (hn : n < 10 ^ k) :
    microsOf (padded decimal k n) = n * 10 ^ (6 - k) := by
  have hlength := length_filterMap_padded k n
  have hzeros : ∀ j a : ℕ, (List.replicate j 0).foldl (fun n d => n * 10 + d) a = a * 10 ^ j := by
    intro j
    induction j with
    | zero => simp
    | succ j ih =>
      intro a
      rw [List.replicate_succ, List.foldl_cons, ih]
      ring
  unfold microsOf
  dsimp only
  rw [List.take_of_length_le (by omega), hlength, List.foldl_append, foldl_padded, hzeros,
    List.getD_eq_default _ _ (by omega), Nat.zero_mul, Nat.zero_add, Nat.mod_eq_of_lt hn]
  simp

/-- The text of an instant passes the strict check from the year 100 on. -/
theorem isISO8601_written (t : Instant) (fraction : List Char) :
    (written (fields t) fraction).isISO8601 = decide (100 ≤ year t) := by
  have hsecond : (fields t).second.toNat ≤ 59 := by
    have := (fields_inRange t).second
    omega
  have hdate : civil (daysOf (fields t).date) = (fields t).date := by
    rw [fields, daysOf_civil]
  simp only [Parsed.isISO8601, written, hsecond, hdate, ne_eq, not_false_eq_true, Char.reduceEq,
    decide_true, Bool.true_and, Bool.and_true]
  rfl

/-- `CAST` gives the instant with as many microseconds as were written. -/
theorem cast_written {t : Instant} {k : ℕ} (hk : k ≤ 6) {n : ℕ} (hn : n < 10 ^ k) :
    (written (fields t) (padded decimal k n)).cast =
      t / 1000000 * 1000000 + n * 10 ^ (6 - k) := by
  obtain ⟨-, hhour, hminute, hsecond, -⟩ := fields_inRange t
  have hfields := instant_fields t
  have hmicro : (fields t).micro = t % 1000000 := rfl
  unfold instant at hfields
  simp only [Parsed.cast, written, instant, microsOf_padded hk hn, Int.toNat_of_nonneg hhour.1,
    Int.toNat_of_nonneg hminute.1, Int.toNat_of_nonneg hsecond.1]
  push_cast
  change (_ : ℤ) = _ at hfields
  change (_ : ℤ) = _
  generalize (n : ℤ) * 10 ^ (6 - k) = m
  omega

end Timestamps
