/-
# Partitions of the audit log

`buildMonthlyPartitionSpecs` of `000007_create-audit-log-schema.ts`, and the statements that the
migration and `audit-partition.worker.ts` make of it.

An instant of a `Date` is a whole number of milliseconds, at most a hundred million days from 1970;
here it is counted in microseconds.  `Date.UTC` takes a year from 0 to 99 for one of the twentieth
century, and is not a number outside of that range, so that `toISOString` throws.
-/
import DigitalTrust.Months

namespace DigitalTrust.AuditPartitions

open Digits Timestamps

/-! ## Dates -/

/-- The last instant of a `Date`. -/
def maxTime : ℤ := 8640000000000000000

/-- An instant that a `Date` may have. -/
structure IsTime (t : ℤ) : Prop where
  milliseconds : 1000 ∣ t
  bounds : -maxTime ≤ t ∧ t ≤ maxTime

def getUTCFullYear (t : ℤ) : ℤ := year t

def getUTCMonth (t : ℤ) : ℤ := (fields t).date.month - 1

/-- `new Date(Date.UTC(year, month, 1))`; `none` is the invalid date. -/
def dateUTC (year month : ℤ) : Option ℤ :=
  let fullYear := if 0 ≤ year ∧ year ≤ 99 then 1900 + year else year
  let t := monthStart (12 * fullYear + month)
  if -maxTime ≤ t ∧ t ≤ maxTime then some t else none

/-! ## Specifications of partitions -/

/-- A partition, with its bounds as texts. -/
structure Spec where
  name : List Char
  fromText : List Char
  toText : List Char
  deriving DecidableEq

/-- `audit_log_${yyyy}_${mm}`. -/
def partitionName (t : ℤ) : List Char :=
  "audit_log_".toList ++ (intText (getUTCFullYear t) ++
    '_' :: padded decimal 2 (getUTCMonth t + 1).toNat)

/-- `buildMonthlyPartitionSpecs`; `none` if `toISOString` throws. -/
def buildMonthlyPartitionSpecs (start : ℤ) (monthsAhead : ℕ) : Option (List Spec) :=
  (dateUTC (getUTCFullYear start) (getUTCMonth start)).bind fun cursor =>
    (List.range (monthsAhead + 1)).mapM fun (i : ℕ) =>
      (dateUTC (getUTCFullYear cursor) (getUTCMonth cursor + i)).bind fun lower =>
        (dateUTC (getUTCFullYear cursor) (getUTCMonth cursor + i + 1)).map fun upper =>
          { name := partitionName lower
            fromText := toISOString lower
            toText := toISOString upper }

/-- The instants of a partition: from the one that its first text stands for to before the one
that its second text stands for. -/
def Spec.range (s : Spec) : Set ℤ :=
  {t | ∃ lower upper, IsTime lower ∧ IsTime upper ∧ toISOString lower = s.fromText ∧
    toISOString upper = s.toText ∧ lower ≤ t ∧ t < upper}

def monthSpec (k : ℤ) : Spec where
  name := partitionName (monthStart k)
  fromText := toISOString (monthStart k)
  toText := toISOString (monthStart (k + 1))

def cursorMonth (start : ℤ) : ℤ :=
  if 0 ≤ year start ∧ year start ≤ 99 then monthIndex start + 12 * 1900 else monthIndex start

/-- The bounds of the months are dates. -/
def Representable (k : ℤ) (n : ℕ) : Prop :=
  -maxTime ≤ monthStart k ∧ monthStart (k + n + 1) ≤ maxTime

instance (k : ℤ) (n : ℕ) : Decidable (Representable k n) := inferInstanceAs (Decidable (_ ∧ _))

/-! ## Months -/

theorem isTime_monthStart {k : ℤ} (h : -maxTime ≤ monthStart k ∧ monthStart k ≤ maxTime) :
    IsTime (monthStart k) := by
  refine ⟨?_, h⟩
  unfold monthStart
  omega

/-- The text of a `Date` tells its instant. -/
theorem eq_of_toISOString {t t' : ℤ} (ht : IsTime t) (ht' : IsTime t')
    (h : toISOString t = toISOString t') : t = t' := by
  have hyears : ∀ {t}, IsTime t → (year t).natAbs < 10 ^ 6 := fun {t} ht => by
    refine natAbs_year_lt ?_
    have hlow : monthStart (-11999988) ≤ -maxTime := by decide +kernel
    have hhigh : maxTime < monthStart 12000000 := by decide +kernel
    have hbounds := ht.bounds
    omega
  exact toISOString_injective ht.milliseconds ht'.milliseconds (hyears ht) (hyears ht') h

/-- The instants of the partition of a month are those of the month. -/
theorem mem_range_monthSpec {k t : ℤ} (hk : IsTime (monthStart k))
    (hk' : IsTime (monthStart (k + 1))) : t ∈ (monthSpec k).range ↔ monthIndex t = k := by
  have hmonth : monthStart k ≤ t ∧ t < monthStart (k + 1) ↔ monthIndex t = k := by
    rw [monthStart_le_iff, lt_monthStart_iff]
    omega
  rw [← hmonth]
  constructor
  · rintro ⟨lower, upper, hlower, hupper, hfrom, hto, hle, hlt⟩
    rw [← eq_of_toISOString hlower hk hfrom, ← eq_of_toISOString hupper hk' hto]
    exact ⟨hle, hlt⟩
  · rintro ⟨hle, hlt⟩
    exact ⟨_, _, hk, hk', rfl, rfl, hle, hlt⟩

/-- The year and the month of a month's start. -/
theorem getUTC_monthStart (k : ℤ) :
    getUTCFullYear (monthStart k) = k / 12 ∧ getUTCMonth (monthStart k) = k % 12 := by
  obtain ⟨hyear, hmonth⟩ := year_eq_monthIndex (monthStart k)
  rw [monthIndex_monthStart] at hyear hmonth
  refine ⟨hyear, ?_⟩
  rw [getUTCMonth, hmonth]
  omega

/-- The name of a partition tells its month. -/
theorem monthSpec_name_inj {k k' : ℤ} (h : (monthSpec k).name = (monthSpec k').name) : k = k' := by
  obtain ⟨hyear, hmonth⟩ := getUTC_monthStart k
  obtain ⟨hyear', hmonth'⟩ := getUTC_monthStart k'
  have htail := List.append_cancel_left h
  rw [hyear, hyear', hmonth, hmonth'] at htail
  obtain ⟨hyears, hmonths⟩ := List.append_inj' htail (by simp [length_padded])
  have hy := intText_inj hyears
  have hm := padded_inj (by omega) (by omega) (List.cons.inj hmonths).2
  omega

/-! ## What is built -/

theorem dateUTC_eq {y m : ℤ} (hy : ¬ (0 ≤ y ∧ y ≤ 99)) :
    dateUTC y m = if -maxTime ≤ monthStart (12 * y + m) ∧ monthStart (12 * y + m) ≤ maxTime then
      some (monthStart (12 * y + m)) else none := by
  rw [dateUTC, if_neg hy]

/-- The first cursor, if it is an instant. -/
theorem dateUTC_start (start : ℤ) :
    dateUTC (getUTCFullYear start) (getUTCMonth start) =
      if -maxTime ≤ monthStart (cursorMonth start) ∧ monthStart (cursorMonth start) ≤ maxTime then
        some (monthStart (cursorMonth start)) else none := by
  obtain ⟨hyear, hmonth⟩ := year_eq_monthIndex start
  have hindex : 12 * (if 0 ≤ year start ∧ year start ≤ 99 then 1900 + year start
      else year start) + getUTCMonth start = cursorMonth start := by
    rw [getUTCMonth, cursorMonth]
    split_ifs <;> omega
  rw [dateUTC, getUTCFullYear, hindex]

/-- The cursor is not in one of the years that are misread. -/
theorem cursorMonth_year (start : ℤ) :
    ¬ (0 ≤ cursorMonth start / 12 ∧ cursorMonth start / 12 ≤ 99) := by
  have hyear := (year_eq_monthIndex start).1
  rw [cursorMonth]
  split_ifs <;> omega

/-- The date `i` months after the cursor. -/
theorem dateUTC_cursor (start i : ℤ) :
    dateUTC (getUTCFullYear (monthStart (cursorMonth start)))
        (getUTCMonth (monthStart (cursorMonth start)) + i) =
      if -maxTime ≤ monthStart (cursorMonth start + i) ∧
          monthStart (cursorMonth start + i) ≤ maxTime then
        some (monthStart (cursorMonth start + i)) else none := by
  obtain ⟨hyear, hmonth⟩ := getUTC_monthStart (cursorMonth start)
  have hindex : 12 * (cursorMonth start / 12) + (cursorMonth start % 12 + i) =
      cursorMonth start + i := by omega
  rw [hyear, hmonth, dateUTC_eq (cursorMonth_year start), hindex]

theorem mapM_eq_some {α β : Type} {f : α → Option β} {g : α → β} {xs : List α}
    (h : ∀ x ∈ xs, f x = some (g x)) : xs.mapM f = some (xs.map g) := by
  induction xs with
  | nil => rfl
  | cons x xs ih =>
    have hxs := ih fun y hy => h y (List.mem_cons_of_mem x hy)
    rw [List.mapM_cons, h x List.mem_cons_self, hxs]
    rfl

theorem mapM_eq_none {α β : Type} {f : α → Option β} {xs : List α} {x : α} (hx : x ∈ xs)
    (h : f x = none) : xs.mapM f = none := by
  induction xs with
  | nil => cases hx
  | cons y xs ih =>
    rw [List.mapM_cons]
    rcases List.mem_cons.mp hx with rfl | hx
    · rw [h]
      rfl
    · rw [ih hx]
      cases f y <;> rfl

/-- The months from that of the cursor on, if their bounds are dates. -/
theorem buildMonthlyPartitionSpecs_eq (start : ℤ) (n : ℕ) :
    buildMonthlyPartitionSpecs start n =
      if Representable (cursorMonth start) n then
        some ((List.range (n + 1)).map fun (i : ℕ) => monthSpec (cursorMonth start + i))
      else none := by
  have hmono := monthStart_strictMono.monotone
  rw [buildMonthlyPartitionSpecs, dateUTC_start]
  by_cases hrep : Representable (cursorMonth start) n
  · rw [if_pos hrep]
    obtain ⟨hlow, hhigh⟩ := hrep
    have hbetween : ∀ i : ℤ, 0 ≤ i → i ≤ n + 1 →
        -maxTime ≤ monthStart (cursorMonth start + i) ∧
          monthStart (cursorMonth start + i) ≤ maxTime := fun i h0 hn =>
      ⟨hlow.trans (hmono (by omega)), le_trans (hmono (by omega)) hhigh⟩
    have hfirst := hbetween 0 le_rfl (by omega)
    rw [add_zero] at hfirst
    rw [if_pos hfirst, Option.bind_some]
    refine mapM_eq_some fun i hi => ?_
    have hi := List.mem_range.mp hi
    rw [dateUTC_cursor, if_pos (hbetween i (by omega) (by omega)), Option.bind_some, add_assoc,
      dateUTC_cursor, if_pos (hbetween (i + 1) (by omega) (by omega)), Option.map_some, monthSpec,
      add_assoc]
  · rw [if_neg hrep]
    by_cases hcursor : -maxTime ≤ monthStart (cursorMonth start) ∧
        monthStart (cursorMonth start) ≤ maxTime
    · -- the last month ends after the last date
      rw [if_pos hcursor, Option.bind_some]
      refine mapM_eq_none (List.mem_range.mpr (Nat.lt_succ_self n)) ?_
      have hlast : ¬ (-maxTime ≤ monthStart (cursorMonth start + (n + 1)) ∧
          monthStart (cursorMonth start + (n + 1)) ≤ maxTime) := fun h =>
        hrep ⟨hcursor.1, (add_assoc (cursorMonth start) (n : ℤ) 1).symm ▸ h.2⟩
      rw [add_assoc (getUTCMonth _), dateUTC_cursor start (n + 1), if_neg hlast]
      cases dateUTC (getUTCFullYear (monthStart (cursorMonth start)))
        (getUTCMonth (monthStart (cursorMonth start)) + n) <;> rfl
    · rw [if_neg hcursor, Option.bind_none]

/-- Every bound of the window is an instant. -/
theorem isTime_of_representable {k : ℤ} {n i : ℕ} (h : Representable k n) (hi : i ≤ n) :
    IsTime (monthStart (k + i)) ∧ IsTime (monthStart (k + i + 1)) := by
  have hmono := monthStart_strictMono.monotone
  obtain ⟨hlow, hhigh⟩ := h
  constructor
  · exact isTime_monthStart ⟨hlow.trans (hmono (by omega)), (hmono (by omega)).trans hhigh⟩
  · exact isTime_monthStart ⟨hlow.trans (hmono (by omega)), (hmono (by omega)).trans hhigh⟩

/-- A partition that is built is that of a month whose bounds are dates. -/
theorem mem_built {start : ℤ} {n : ℕ} {specs : List Spec}
    (h : buildMonthlyPartitionSpecs start n = some specs) {s : Spec} (hs : s ∈ specs) :
    ∃ k, s = monthSpec k ∧ IsTime (monthStart k) ∧ IsTime (monthStart (k + 1)) := by
  rw [buildMonthlyPartitionSpecs_eq] at h
  split_ifs at h with hrep
  rw [← Option.some.inj h] at hs
  obtain ⟨i, hi, rfl⟩ := List.mem_map.mp hs
  have hle : i ≤ n := Nat.lt_succ_iff.mp (List.mem_range.mp hi)
  exact ⟨_, rfl, isTime_of_representable hrep hle⟩

/-- Two partitions have the same month or no instant in common. -/
theorem compatible {start start' : ℤ} {n n' : ℕ} {specs specs' : List Spec}
    (h : buildMonthlyPartitionSpecs start n = some specs)
    (h' : buildMonthlyPartitionSpecs start' n' = some specs') {s s' : Spec} (hs : s ∈ specs)
    (hs' : s' ∈ specs') :
    (s.name = s'.name → s.fromText = s'.fromText ∧ s.toText = s'.toText) ∧
      (s.name ≠ s'.name → Disjoint s.range s'.range) := by
  obtain ⟨k, rfl, hlower, hupper⟩ := mem_built h hs
  obtain ⟨k', rfl, hlower', hupper'⟩ := mem_built h' hs'
  constructor
  · intro hname
    rw [monthSpec_name_inj hname]
    exact ⟨rfl, rfl⟩
  · intro hname
    rw [Set.disjoint_left]
    intro t ht ht'
    rw [mem_range_monthSpec hlower hupper] at ht
    rw [mem_range_monthSpec hlower' hupper'] at ht'
    exact hname (by rw [← ht, ← ht'])

/-! ## The months from that of the start on -/

/-- Half-open intervals, one after the other, without a gap or an overlap. -/
structure Tiling (specs : List Spec) (lower upper : ℤ) : Prop where
  union : ∀ t, (∃ s ∈ specs, t ∈ s.range) ↔ lower ≤ t ∧ t < upper
  disjoint : specs.Pairwise fun s s' => Disjoint s.range s'.range

/-- The call returns what it should: a partition for the month of the start and for each of the
`n` months after it. -/
def TilesMonths (start : ℤ) (n : ℕ) : Prop :=
  ∃ specs, buildMonthlyPartitionSpecs start n = some specs ∧ specs.length = n + 1 ∧
    (specs.map Spec.name).Nodup ∧
    Tiling specs (monthStart (monthIndex start)) (monthStart (monthIndex start + n + 1))

theorem nodup_names (k : ℤ) (n : ℕ) :
    (((List.range (n + 1)).map fun (i : ℕ) => monthSpec (k + i)).map Spec.name).Nodup := by
  rw [List.map_map]
  refine List.Nodup.map (fun i j hij => ?_) List.nodup_range
  have hmonth := monthSpec_name_inj hij
  omega

/-- The months after each other tile the time from the first to the last. -/
theorem tiling_months {k : ℤ} {n : ℕ} (h : Representable k n) :
    Tiling ((List.range (n + 1)).map fun (i : ℕ) => monthSpec (k + i)) (monthStart k)
      (monthStart (k + n + 1)) := by
  have hmem : ∀ i ≤ n, ∀ t, t ∈ (monthSpec (k + (i : ℕ))).range ↔ monthIndex t = k + i :=
    fun i hi t =>
      mem_range_monthSpec (isTime_of_representable h hi).1 (isTime_of_representable h hi).2
  constructor
  · intro t
    rw [monthStart_le_iff, lt_monthStart_iff]
    constructor
    · rintro ⟨s, hs, ht⟩
      obtain ⟨i, hi, rfl⟩ := List.mem_map.mp hs
      have hi := List.mem_range.mp hi
      have hmonth := (hmem i (by omega) t).mp ht
      omega
    · rintro ⟨hle, hlt⟩
      have hi : (monthIndex t - k).toNat ≤ n := by omega
      refine ⟨_, List.mem_map_of_mem (List.mem_range.mpr (Nat.lt_succ_of_le hi)), ?_⟩
      exact (hmem _ hi t).mpr (by omega)
  · rw [List.pairwise_map]
    refine List.nodup_range.imp_of_mem fun {i j} hi hj hne => ?_
    have hi := List.mem_range.mp hi
    have hj := List.mem_range.mp hj
    rw [Set.disjoint_left]
    intro t ht ht'
    have hmonth := (hmem i (by omega) t).mp ht
    have hmonth' := (hmem j (by omega) t).mp ht'
    omega

/-- A call that does what it should has not misread the year. -/
theorem representable_of_tilesMonths {start : ℤ} {n : ℕ} (h : TilesMonths start n) :
    ¬ (0 ≤ year start ∧ year start ≤ 99) ∧ Representable (monthIndex start) n := by
  obtain ⟨specs, hbuild, -, -, htiling⟩ := h
  rw [buildMonthlyPartitionSpecs_eq] at hbuild
  split_ifs at hbuild with hrep
  -- the first instant of the start's month is in one of the partitions
  have hlt : monthStart (monthIndex start) < monthStart (monthIndex start + n + 1) :=
    monthStart_strictMono (by omega)
  obtain ⟨s, hs, hmem⟩ := (htiling.union (monthStart (monthIndex start))).mpr ⟨le_rfl, hlt⟩
  rw [← Option.some.inj hbuild] at hs
  obtain ⟨i, hi, rfl⟩ := List.mem_map.mp hs
  have hle : i ≤ n := Nat.lt_succ_iff.mp (List.mem_range.mp hi)
  have htimes := isTime_of_representable hrep hle
  rw [mem_range_monthSpec htimes.1 htimes.2, monthIndex_monthStart] at hmem
  have hyear : ¬ (0 ≤ year start ∧ year start ≤ 99) := fun hyear => by
    rw [cursorMonth, if_pos hyear] at hmem
    omega
  rw [cursorMonth, if_neg hyear] at hrep
  exact ⟨hyear, hrep⟩

/-- The partitions tile the months from the start on, unless `Date.UTC` misreads its year or has no
date for a bound; and of any two calls, partitions of one name have the same bounds, and others are
disjoint. -/
theorem partitions_tile_iff (start : ℤ) (n : ℕ) :
    (TilesMonths start n ↔
      ¬ (0 ≤ year start ∧ year start ≤ 99) ∧ Representable (monthIndex start) n) ∧
    ∀ specs start' n' specs', buildMonthlyPartitionSpecs start n = some specs →
      buildMonthlyPartitionSpecs start' n' = some specs' → ∀ s ∈ specs, ∀ s' ∈ specs',
        (s.name = s'.name → s.fromText = s'.fromText ∧ s.toText = s'.toText) ∧
          (s.name ≠ s'.name → Disjoint s.range s'.range) := by
  refine ⟨⟨representable_of_tilesMonths, ?_⟩,
    fun specs start' n' specs' h h' s hs s' hs' => compatible h h' hs hs'⟩
  rintro ⟨hyear, hrep⟩
  have hcursor : cursorMonth start = monthIndex start := if_neg hyear
  refine ⟨(List.range (n + 1)).map fun (i : ℕ) => monthSpec (monthIndex start + i), ?_, ?_, ?_, ?_⟩
  · rw [buildMonthlyPartitionSpecs_eq, hcursor, if_pos hrep]
  · rw [List.length_map, List.length_range]
  · exact nodup_names _ n
  · exact tiling_months hrep

/-- 2026-07-15T12:00:00Z. -/
def july : ℤ := 1784116800000000

theorem partitions_tile_iff_july : IsTime july ∧ TilesMonths july 2 := by
  refine ⟨⟨by decide, by decide⟩, (partitions_tile_iff july 2).1.mpr ⟨?_, ?_⟩⟩
  · decide +kernel
  · decide +kernel

/-- 0050-06-15T00:00:00Z. -/
def year50 : ℤ := -60575040000000000

/-- A start in the year 50: the partitions are those of 1950. -/
theorem early_year_misplaced :
    IsTime year50 ∧ ¬ TilesMonths year50 1 ∧
      buildMonthlyPartitionSpecs year50 1 = some
        [⟨"audit_log_1950_06".toList, "1950-06-01T00:00:00.000Z".toList,
            "1950-07-01T00:00:00.000Z".toList⟩,
          ⟨"audit_log_1950_07".toList, "1950-07-01T00:00:00.000Z".toList,
            "1950-08-01T00:00:00.000Z".toList⟩] := by
  refine ⟨⟨by decide, by decide⟩, fun h => ?_, by decide +kernel⟩
  have hyear : 0 ≤ year year50 ∧ year year50 ≤ 99 := by decide +kernel
  exact (representable_of_tilesMonths h).1 hyear

/-! ## Maintenance -/

/-- The months ahead of a job: a number that is configured, if it is finite and not negative. -/
def monthsAhead (configured : Option ℚ) : ℕ :=
  match configured with
  | some q => if 0 ≤ q then ⌊q⌋.toNat else 3
  | none => 3

/-- `CREATE TABLE IF NOT EXISTS … PARTITION OF audit_log`, which refuses a partition that overlaps
another one. -/
inductive Creates (s : Spec) (table : List Spec) : List Spec → Prop
  | present (h : s.name ∈ table.map Spec.name) : Creates s table table
  | new (h : s.name ∉ table.map Spec.name) (hdisjoint : ∀ p ∈ table, Disjoint p.range s.range) :
      Creates s table (table ++ [s])

/-- A statement of the migration or of a run of the worker, at any time and with any number of
months ahead. -/
inductive Maintains : List Spec → List Spec → Prop
  | create {table table' : List Spec} {now : ℤ} {configured : Option ℚ} {specs : List Spec}
      {s : Spec} (hbuild : buildMonthlyPartitionSpecs now (monthsAhead configured) = some specs)
      (hs : s ∈ specs) (hcreate : Creates s table table') : Maintains table table'

/-- The partitions of a table are some that were built, no two with the same name. -/
structure Maintained (table : List Spec) : Prop where
  built : ∀ p ∈ table, ∃ now n specs, buildMonthlyPartitionSpecs now n = some specs ∧ p ∈ specs
  names : (table.map Spec.name).Nodup

/-- A created partition keeps a table maintained. -/
theorem Maintained.step {table table' : List Spec} (h : Maintained table)
    (hstep : Maintains table table') : Maintained table' := by
  obtain ⟨hbuild, hs, hcreate⟩ := hstep
  cases hcreate with
  | present _ => exact h
  | new hname _ =>
    refine ⟨fun p hp => ?_, ?_⟩
    · rcases List.mem_append.mp hp with hp | hp
      · exact h.built p hp
      · rw [List.mem_singleton.mp hp]
        exact ⟨_, _, _, hbuild, hs⟩
    · rw [List.map_append, List.map_singleton, List.nodup_append]
      refine ⟨h.names, by simp, fun a ha b hb => ?_⟩
      rw [List.mem_singleton.mp hb]
      exact ne_of_mem_of_not_mem ha hname

/-- Whichever statements of whichever runs have been made, in whichever order: no two partitions
have an instant in common, and the next statement is not refused. -/
theorem maintenance_disjoint {table : List Spec} (h : Relation.ReflTransGen Maintains [] table) :
    (table.Pairwise fun p q => Disjoint p.range q.range) ∧
      ∀ now n specs, buildMonthlyPartitionSpecs now n = some specs → ∀ s ∈ specs,
        ∃ table', Creates s table table' := by
  have hmaintained : Maintained table := by
    induction h with
    | refl => exact ⟨by simp, by simp⟩
    | tail _ hstep ih => exact ih.step hstep
  constructor
  · refine (List.pairwise_map.mp hmaintained.names).imp_of_mem fun {p q} hp hq hname => ?_
    obtain ⟨_, _, _, hbuild, hmem⟩ := hmaintained.built p hp
    obtain ⟨_, _, _, hbuild', hmem'⟩ := hmaintained.built q hq
    exact (compatible hbuild hbuild' hmem hmem').2 hname
  · intro now n specs hbuild s hs
    by_cases hname : s.name ∈ table.map Spec.name
    · exact ⟨table, .present hname⟩
    · refine ⟨_, .new hname fun p hp => ?_⟩
      obtain ⟨_, _, _, hbuild', hmem⟩ := hmaintained.built p hp
      refine (compatible hbuild' hbuild hmem hs).2 fun heq => hname ?_
      exact heq ▸ List.mem_map_of_mem hp

/-- 2026-08-15T12:00:00Z. -/
def august : ℤ := 1786795200000000

def partition2026 (month next : String) : Spec :=
  ⟨("audit_log_2026_" ++ month).toList, ("2026-" ++ month ++ "-01T00:00:00.000Z").toList,
    ("2026-" ++ next ++ "-01T00:00:00.000Z").toList⟩

/-- A run in July 2026 has made its first partition, and one in August its last: they have no
instant in common, and the last statement of the run in July is not refused. -/
theorem maintenance_disjoint_july :
    Relation.ReflTransGen Maintains [] [partition2026 "07" "08", partition2026 "11" "12"] ∧
      Disjoint (partition2026 "07" "08").range (partition2026 "11" "12").range ∧
      ∃ table', Creates (partition2026 "10" "11")
        [partition2026 "07" "08", partition2026 "11" "12"] table' := by
  have hjuly : buildMonthlyPartitionSpecs july (monthsAhead none) =
      some [partition2026 "07" "08", partition2026 "08" "09", partition2026 "09" "10",
        partition2026 "10" "11"] := by decide +kernel
  have haugust : buildMonthlyPartitionSpecs august (monthsAhead none) =
      some [partition2026 "08" "09", partition2026 "09" "10", partition2026 "10" "11",
        partition2026 "11" "12"] := by decide +kernel
  have hfirst : Relation.ReflTransGen Maintains [] [partition2026 "07" "08"] :=
    .single (.create hjuly (by simp) (.new (by simp) (by simp)))
  obtain ⟨table', hcreate⟩ := (maintenance_disjoint hfirst).2 august _ _ haugust
    (partition2026 "11" "12") (by simp)
  cases hcreate with
  | present h => exact absurd h (by decide +kernel)
  | new hname hdisjoint =>
    have hrun := hfirst.tail (.create haugust (by simp) (.new hname hdisjoint))
    exact ⟨hrun, hdisjoint _ (by simp), (maintenance_disjoint hrun).2 july _ _ hjuly _ (by simp)⟩

end DigitalTrust.AuditPartitions
