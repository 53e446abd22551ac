/-
# Months of the calendar

The months of the proleptic Gregorian calendar in UTC, counted from January of year 0: the instant
with which a month begins, and the month of an instant.

* `monthStart_le_iff` : an instant is in or after a month if it is not before its first instant.
* `toISOString_injective` : the text of a `Date` tells which instant it is.
-/
import DigitalTrust.Timestamps

namespace Timestamps

open Digits

/-! ## Days -/

/-- The month of a date, counted from January of year 0. -/
def monthOf (d : Date) : ℤ := 12 * d.year + (d.month - 1)

def firstOf (k : ℤ) : Date := ⟨k / 12, k % 12 + 1, 1⟩

/-- The first day of a month, counted from 1970-01-01. -/
def monthDay (k : ℤ) : ℤ := daysOf (firstOf k)

/-- The days before a year that starts in March, counted from March of year 0. -/
def marchStart (y : ℤ) : ℤ := 365 * y + y / 4 - y / 100 + y / 400

theorem marchStart_eq (y : ℤ) : y / 400 * 146097 + daysBefore (y % 400) = marchStart y := by
  unfold daysBefore marchStart
  omega

theorem marchStart_succ (y : ℤ) :
    marchStart y + 365 ≤ marchStart (y + 1) ∧ marchStart (y + 1) ≤ marchStart y + 366 := by
  unfold marchStart
  omega

/-- The first day of a month, by the years and months from March on. -/
theorem monthDay_eq (k : ℤ) :
    monthDay k = marchStart ((k - 2) / 12) + (153 * ((k - 2) % 12) + 2) / 5 - 719468 := by
  have hyear : marchYear (firstOf k) = (k - 2) / 12 := by
    unfold marchYear firstOf
    dsimp only
    split_ifs <;> omega
  have hday : marchDay (firstOf k) = (153 * ((k - 2) % 12) + 2) / 5 := by
    unfold marchDay firstOf
    dsimp only
    have hmonth : (k % 12 + 1 + 9) % 12 = (k - 2) % 12 := by omega
    rw [hmonth]
    omega
  rw [monthDay, daysOf, hyear, hday, marchStart_eq]

/-- A month starts before the next. -/
theorem monthDay_lt_succ (k : ℤ) : monthDay k < monthDay (k + 1) := by
  rw [monthDay_eq, monthDay_eq]
  by_cases hlast : (k - 2) % 12 = 11
  · -- March begins a new year
    have hyear : (k + 1 - 2) / 12 = (k - 2) / 12 + 1 := by omega
    have hmonth : (k + 1 - 2) % 12 = 0 := by omega
    have hsucc := marchStart_succ ((k - 2) / 12)
    rw [hyear, hmonth, hlast]
    omega
  · have hyear : (k + 1 - 2) / 12 = (k - 2) / 12 := by omega
    have hmonth : (k + 1 - 2) % 12 = (k - 2) % 12 + 1 := by omega
    rw [hyear, hmonth]
    omega

theorem monthDay_strictMono : StrictMono monthDay := strictMono_int_of_lt_succ monthDay_lt_succ

/-- The days of an era before the next year, unless there is none. -/
theorem lt_daysBefore_succ {doe : ℤ} (h : 0 ≤ doe ∧ doe < 146097) :
    doe < daysBefore (yearOfEra doe + 1) ∨ yearOfEra doe = 399 := by
  have hc : 0 ≤ centuryOfEra doe ∧ centuryOfEra doe ≤ 3 ∧ 0 ≤ doe - 36524 * centuryOfEra doe ∧
      doe - 36524 * centuryOfEra doe < 36525 ∧
      (centuryOfEra doe < 3 → doe - 36524 * centuryOfEra doe < 36524) := by
    unfold centuryOfEra
    omega
  unfold yearOfEra
  generalize centuryOfEra doe = c at *
  generalize hr : doe - 36524 * c = r at *
  have hy : 0 ≤ yearOfCentury r ∧ yearOfCentury r < 100 ∧ yearOfCentury r / 4 = r / 1461 ∧
      r < 365 * (yearOfCentury r + 1) + (yearOfCentury r + 1) / 4 ∨
        yearOfCentury r = 99 ∧ r = 36524 := by
    unfold yearOfCentury
    omega
  generalize yearOfCentury r = y at *
  have hbefore : daysBefore (100 * c + y + 1) =
      36500 * c + 25 * c - c + 365 * (y + 1) + (y + 1) / 4 - (y + 1) / 100 := by
    unfold daysBefore
    omega
  rw [hbefore]
  omega

/-- A day is one of its month. -/
theorem monthDay_civil (days : ℤ) :
    monthDay (monthOf (civil days)) ≤ days ∧ days < monthDay (monthOf (civil days) + 1) := by
  have hdoe : 0 ≤ (days + 719468) % 146097 ∧ (days + 719468) % 146097 < 146097 := by omega
  have hyear := yearOfEra_bounds hdoe
  have hday := dayOfYear_bounds hdoe
  have hnext := lt_daysBefore_succ hdoe
  unfold civil
  dsimp only
  generalize hy : (days + 719468) / 146097 * 400 + yearOfEra ((days + 719468) % 146097) = y
  generalize hd : (days + 719468) % 146097 - daysBefore (yearOfEra ((days + 719468) % 146097)) = doy
    at *
  -- the day, by the years and days from March on
  have hstart : days + 719468 = marchStart y + doy := by
    rw [← marchStart_eq]
    have hmod : y % 400 = yearOfEra ((days + 719468) % 146097) := by omega
    rw [hmod]
    omega
  have hend : days + 719468 < marchStart (y + 1) := by
    rw [← marchStart_eq]
    by_cases hlast : yearOfEra ((days + 719468) % 146097) = 399
    · have hera : (y + 1) / 400 = (days + 719468) / 146097 + 1 := by omega
      have hmod : (y + 1) % 400 = 0 := by omega
      have hzero : daysBefore 0 = 0 := rfl
      rw [hera, hmod, hzero]
      omega
    · have hera : (y + 1) / 400 = (days + 719468) / 146097 := by omega
      have hmod : (y + 1) % 400 = yearOfEra ((days + 719468) % 146097) + 1 := by omega
      rw [hera, hmod]
      omega
  have hmonth : monthOf (ofMarch y doy) - 2 = 12 * y + (5 * doy + 2) / 153 := by
    unfold monthOf ofMarch
    dsimp only
    split_ifs <;> dsimp only <;> omega
  generalize monthOf (ofMarch y doy) = k at *
  generalize hmp : (5 * doy + 2) / 153 = mp at *
  have hyear' : (k - 2) / 12 = y := by omega
  have hmp' : (k - 2) % 12 = mp := by omega
  constructor
  · rw [monthDay_eq, hyear', hmp']
    omega
  · rw [monthDay_eq]
    by_cases hlast : mp = 11
    · have hnextYear : (k + 1 - 2) / 12 = y + 1 := by omega
      have hnextMonth : (k + 1 - 2) % 12 = 0 := by omega
      rw [hnextYear, hnextMonth]
      omega
    · have hnextYear : (k + 1 - 2) / 12 = y := by omega
      have hnextMonth : (k + 1 - 2) % 12 = mp + 1 := by omega
      rw [hnextYear, hnextMonth]
      omega

/-! ## Instants -/

/-- The first instant of a month. -/
def monthStart (k : ℤ) : ℤ := monthDay k * 86400000000

def monthIndex (t : ℤ) : ℤ := monthOf (fields t).date

theorem monthStart_strictMono : StrictMono monthStart := fun _ _ h =>
  mul_lt_mul_of_pos_right (monthDay_strictMono h) (by decide)

/-- An instant is in its month. -/
theorem monthStart_monthIndex (t : ℤ) :
    monthStart (monthIndex t) ≤ t ∧ t < monthStart (monthIndex t + 1) := by
  have hdays := monthDay_civil (t / 86400000000)
  unfold monthStart monthIndex fields
  dsimp only
  omega

/-- An instant is in or after a month if it is not before its first instant. -/
theorem monthStart_le_iff {k t : ℤ} : monthStart k ≤ t ↔ k ≤ monthIndex t := by
  obtain ⟨hle, hlt⟩ := monthStart_monthIndex t
  constructor
  · intro h
    by_contra hnot
    have hafter : monthStart (monthIndex t + 1) ≤ monthStart k :=
      monthStart_strictMono.monotone (by omega)
    omega
  · intro h
    exact (monthStart_strictMono.monotone h).trans hle

theorem lt_monthStart_iff {k t : ℤ} : t < monthStart k ↔ monthIndex t < k := by
  rw [← not_le, monthStart_le_iff, not_le]

/-- The month of its first instant. -/
theorem monthIndex_monthStart (k : ℤ) : monthIndex (monthStart k) = k := by
  have hle : k ≤ monthIndex (monthStart k) := monthStart_le_iff.mp le_rfl
  have hlt : monthIndex (monthStart k) < k + 1 :=
    lt_monthStart_iff.mp (monthStart_strictMono (lt_add_one k))
  omega

/-- Year and month of an instant, by the number of its month. -/
theorem year_eq_monthIndex (t : ℤ) :
    year t = monthIndex t / 12 ∧ (fields t).date.month = monthIndex t % 12 + 1 := by
  have hmonth := (fields_inRange t).date.month
  unfold year monthIndex monthOf
  omega

/-! ## Texts -/

attribute [ext] Date Fields

theorem length_padded (k n : ℕ) : (padded decimal k n).length = k := by
  induction k with
  | zero => rfl
  | succ k ih => rw [padded, List.length_cons, ih]

/-- A number of a fixed width, and what is written after it. -/
theorem padded_append_inj {k n n' : ℕ} (hn : n < 10 ^ k) (hn' : n' < 10 ^ k) {r r' : List Char}
    (h : padded decimal k n ++ r = padded decimal k n' ++ r') : n = n' ∧ r = r' := by
  have hread := congrArg (readPadded decimal k 0) h
  rw [read_decimal hn, read_decimal hn'] at hread
  exact Prod.mk.inj (Option.some.inj hread)

theorem padded_inj {k n n' : ℕ} (hn : n < 10 ^ k) (hn' : n' < 10 ^ k)
    (h : padded decimal k n = padded decimal k n') : n = n' := by
  have happend : padded decimal k n ++ [] = padded decimal k n' ++ [] := by rw [h]
  exact (padded_append_inj hn hn' happend).1

/-- A natural number in decimal. -/
def natText (n : ℕ) : List Char := padded decimal (Nat.log 10 n + 1) n

/-- An integer in decimal. -/
def intText (n : ℤ) : List Char := if n < 0 then '-' :: natText n.natAbs else natText n.natAbs

theorem natText_inj {n n' : ℕ} (h : natText n = natText n') : n = n' := by
  have hlength := congrArg List.length h
  rw [natText, natText, length_padded, length_padded] at hlength
  have hn' : n' < 10 ^ (Nat.log 10 n + 1) := hlength ▸ Nat.lt_pow_succ_log_self (by decide) n'
  rw [natText, natText, ← hlength] at h
  exact padded_inj (Nat.lt_pow_succ_log_self (by decide) n) hn' h

/-- A number does not begin with a sign. -/
theorem natText_ne_cons {c : Char} (hc : isDigit c = false) (n : ℕ) (text : List Char) :
    natText n ≠ c :: text := by
  intro h
  have hmem : c ∈ natText n := h ▸ List.mem_cons_self
  have hdigit := isDigit_padded (Nat.log 10 n + 1) n c hmem
  rw [hc] at hdigit
  cases hdigit

/-- Different numbers have different texts. -/
theorem intText_inj {n n' : ℤ} (h : intText n = intText n') : n = n' := by
  have hminus : isDigit '-' = false := by decide
  unfold intText at h
  split_ifs at h with hn hn' hn'
  · have habs := natText_inj (List.cons.inj h).2
    omega
  · exact absurd h.symm (natText_ne_cons hminus _ _)
  · exact absurd h (natText_ne_cons hminus _ _)
  · have habs := natText_inj h
    omega

theorem length_afterYear (f : Fields) (n : ℕ) :
    (afterYear f (padded decimal 3 n)).length = 20 := by
  simp [afterYear, length_padded]

/-- Different years have different texts. -/
theorem isoYear_inj {y y' : ℤ} (hy : y.natAbs < 10 ^ 6) (hy' : y'.natAbs < 10 ^ 6)
    (h : isoYear y = isoYear y') : y = y' := by
  have hlength := congrArg List.length h
  rw [isoYear, isoYear] at h hlength
  by_cases hshort : 0 ≤ y ∧ y ≤ 9999
  · by_cases hshort' : 0 ≤ y' ∧ y' ≤ 9999
    · rw [if_pos hshort, if_pos hshort'] at h
      have hnat := padded_inj (by omega) (by omega) h
      omega
    · -- four digits, or a sign and six
      rw [if_pos hshort, if_neg hshort', List.length_cons, length_padded, length_padded] at hlength
      omega
  · by_cases hshort' : 0 ≤ y' ∧ y' ≤ 9999
    · rw [if_neg hshort, if_pos hshort', List.length_cons, length_padded, length_padded] at hlength
      omega
    · rw [if_neg hshort, if_neg hshort'] at h
      obtain ⟨hsign, hdigits⟩ := List.cons.inj h
      have hnat := padded_inj hy hy' hdigits
      by_cases hpos : 0 < y
      · by_cases hpos' : 0 < y'
        · omega
        · rw [if_pos hpos, if_neg hpos'] at hsign
          exact absurd hsign (by decide)
      · by_cases hpos' : 0 < y'
        · rw [if_neg hpos, if_pos hpos'] at hsign
          exact absurd hsign (by decide)
        · omega

/-- The text of a `Date` tells which instant it is. -/
theorem toISOString_injective {t t' : ℤ} (ht : 1000 ∣ t) (ht' : 1000 ∣ t')
    (hy : (year t).natAbs < 10 ^ 6) (hy' : (year t').natAbs < 10 ^ 6)
    (h : toISOString t = toISOString t') : t = t' := by
  have hf := fields_inRange t
  have hf' := fields_inRange t'
  obtain ⟨hyear, hafter⟩ := List.append_inj' h (by rw [length_afterYear, length_afterYear])
  have hyear := isoYear_inj hy hy' hyear
  unfold afterYear at hafter
  obtain ⟨hmonth, hafter⟩ := padded_append_inj (by have := hf.date.month; omega)
    (by have := hf'.date.month; omega) (List.cons.inj hafter).2
  obtain ⟨hday, hafter⟩ := padded_append_inj (by have := hf.date.day; omega)
    (by have := hf'.date.day; omega) (List.cons.inj hafter).2
  obtain ⟨hhour, hafter⟩ := padded_append_inj (by have := hf.hour; omega)
    (by have := hf'.hour; omega) (List.cons.inj hafter).2
  obtain ⟨hminute, hafter⟩ := padded_append_inj (by have := hf.minute; omega)
    (by have := hf'.minute; omega) (List.cons.inj hafter).2
  obtain ⟨hsecond, hafter⟩ := padded_append_inj (by have := hf.second; omega)
    (by have := hf'.second; omega) (List.cons.inj hafter).2
  obtain ⟨hmilli, -⟩ := padded_append_inj (by have := hf.micro; omega)
    (by have := hf'.micro; omega) (List.cons.inj hafter).2
  have hmicro : (fields t).micro % 1000 = 0 ∧ (fields t').micro % 1000 = 0 := by
    unfold fields
    dsimp only
    omega
  have hfields : fields t = fields t' := by
    obtain ⟨⟨hmonths, hdays⟩, hhours, hminutes, hseconds, hmicros⟩ := hf
    obtain ⟨⟨hmonths', hdays'⟩, hhours', hminutes', hseconds', hmicros'⟩ := hf'
    refine Fields.ext (Date.ext hyear ?_ ?_) ?_ ?_ ?_ ?_ <;> omega
  calc t = instant (fields t) := (instant_fields t).symm
    _ = instant (fields t') := by rw [hfields]
    _ = t' := instant_fields t'

/-- Years that six digits suffice for. -/
theorem natAbs_year_lt {t : ℤ} (h : monthStart (-11999988) ≤ t ∧ t < monthStart 12000000) :
    (year t).natAbs < 10 ^ 6 := by
  have hlow := monthStart_le_iff.mp h.1
  have hhigh := lt_monthStart_iff.mp h.2
  have hyear := (year_eq_monthIndex t).1
  omega

end Timestamps
