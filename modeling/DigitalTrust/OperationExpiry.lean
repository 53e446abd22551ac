/-
# Expiry dates of operations

`operation-ttl.util.ts` from the tenant's configuration to the date.  A duration has to be positive
and finite, and nothing keeps it below the last instant that a date can stand for.
-/
import DigitalTrust.Binary64
import DigitalTrust.StateMapping
import DigitalTrust.TokenScopes

namespace DigitalTrust.OperationExpiry

open Json Binary64

/-! ## Durations -/

def hourMs : ℕ := 60 * 60 * 1000

def dayMs : ℕ := 24 * hourMs

inductive DurationUnit where
  | ms
  | s
  | m
  | h
  | d
  deriving DecidableEq

def DurationUnit.text : DurationUnit → Text
  | ms => ['m', 's']
  | s => ['s']
  | m => ['m']
  | h => ['h']
  | d => ['d']

def DurationUnit.toMs : DurationUnit → ℕ
  | ms => 1
  | s => 1000
  | m => 60 * 1000
  | h => hourMs
  | d => dayMs

/-- The unit of a text, in either case. -/
def unitOf (t : Text) : Option DurationUnit :=
  [.ms, .s, .m, .h, .d].find? fun unit => t.map Char.toLower = unit.text

/-- The optional fraction `(?:\.\d+)?` in front, and the text after it. -/
def fraction : Text → Text × Text
  | '.' :: r => if (digits r).1 = [] then ([], '.' :: r) else digits r
  | t => ([], t)

/-- `DURATION_PATTERN.exec` : the digits before and after the point, and the unit. -/
def durationPattern (t : Text) : Option ((Text × Text) × DurationUnit) :=
  let int := digits t
  let frac := fraction int.2
  if int.1 = [] then none else (unitOf frac.2).map fun unit => ((int.1, frac.1), unit)

def parseDurationMs : Value → Option Double
  | .number text =>
    if numberValue text ≤ 0 then none
    else match toDouble (numberValue text) with
      | .finite x => if 0 < x then some (.finite x) else none
      | .infinity => none
  | .string s =>
    (durationPattern (TokenScopes.trim s)).bind fun found =>
      match toDouble (decimalFraction found.1.1 found.1.2) with
      | .finite amount => if amount ≤ 0 then none else some (toDouble (amount * found.2.toMs))
      | .infinity => none
  | _ => none

/-! ## Configuration -/

inductive OperationTtlKey where
  | completedViewed
  | completedUnviewed
  | failedViewed
  | failedUnviewed
  | pendingStale

def configKeyMap : OperationTtlKey → Text
  | .completedViewed => "completed_viewed".toList
  | .completedUnviewed => "completed_unviewed".toList
  | .failedViewed => "failed_viewed".toList
  | .failedUnviewed => "failed_unviewed".toList
  | .pendingStale => "pending_stale".toList

def defaultOperationTtlMs : OperationTtlKey → ℕ
  | .completedViewed => 1 * hourMs
  | .completedUnviewed => 72 * hourMs
  | .failedViewed => 24 * hourMs
  | .failedUnviewed => 7 * dayMs
  | .pendingStale => 24 * hourMs

def defaultCreatedTtlMs : ℕ := 72 * hourMs

/-- `rawOverrides[configKey]`; what is not an object has no such member. -/
def rawOverride (tenantConfig : Option Value) (key : OperationTtlKey) : Option Value :=
  (tenantConfig.bind (Value.member "operation_ttl".toList)).bind (Value.member (configKeyMap key))

/-- The entry of `resolveOperationTtlMs`. -/
def resolveOperationTtlMs (tenantConfig : Option Value) (key : OperationTtlKey) : Double :=
  ((rawOverride tenantConfig key).bind parseDurationMs).getD (.finite (defaultOperationTtlMs key))

/-! ## Dates -/

/-- The last instant of a `Date`, in milliseconds. -/
def maxTime : ℕ := 8640000000000000

/-- `new Date(time)`; `none` is an invalid date. -/
def newDate : Double → Option ℤ
  | .finite time => if time ≤ maxTime then some ⌊time⌋ else none
  | .infinity => none

/-- `date.getTime() + ttl`. -/
def plus (time : ℕ) : Double → Double
  | .finite ttl => toDouble (time + ttl)
  | .infinity => .infinity

def computeOperationExpiresAt (state : OperationState) (createdAt : ℕ) (viewedAt : Option ℕ)
    (tenantConfig : Option Value) : Option ℤ :=
  let ttl := resolveOperationTtlMs tenantConfig
  match state with
  | .pending => newDate (plus createdAt (ttl .pendingStale))
  | .processing => newDate (plus createdAt (.finite defaultCreatedTtlMs))
  | .completed =>
    match viewedAt with
    | some viewedAt => newDate (plus viewedAt (ttl .completedViewed))
    | none => newDate (plus createdAt (ttl .completedUnviewed))
  | .failed =>
    match viewedAt with
    | some viewedAt => newDate (plus viewedAt (ttl .failedViewed))
    | none => newDate (plus createdAt (ttl .failedUnviewed))

/-! ## Durations that are read exactly -/

/-- The value is a text of decimal digits with the number `n`, then the unit, with blanks around. -/
def IsDuration (v : Value) (n : ℕ) (unit : DurationUnit) : Prop :=
  ∃ s ds rest, v = .string s ∧ TokenScopes.trim s = ds ++ rest ∧ ds ≠ [] ∧
    (∀ c ∈ ds, c.isDigit = true) ∧ decimalNumber ds = n ∧ rest.map Char.toLower = unit.text

/-- A digit and a point have no other case. -/
theorem toLower_of_digit_or_point {c : Char} (h : c.isDigit = true ∨ c = '.') : c.toLower = c := by
  rcases h with h | rfl
  · unfold Char.toLower
    rw [dif_neg]
    simp only [Char.isDigit, Bool.and_eq_true, decide_eq_true_eq, ge_iff_le,
      UInt32.le_iff_toNat_le] at h ⊢
    have h9 : '9'.val.toNat = 57 := rfl
    have hA : 'A'.val.toNat = 65 := rfl
    omega
  · decide

variable {unit : DurationUnit} {n : ℕ}

/-- No unit begins with a digit or a point. -/
theorem unit_head {rest : Text} (h : rest.map Char.toLower = unit.text) :
    ∃ c cs, rest = c :: cs ∧ c.isDigit = false ∧ c ≠ '.' := by
  cases rest with
  | nil => cases unit <;> cases h
  | cons c cs =>
    have hhead : ∀ d, c.toLower = d → d ∈ ['m', 's', 'h', 'd'] → c.isDigit = false ∧ c ≠ '.' := by
      intro d hd hmem
      by_contra hc
      have hc' : c.isDigit = true ∨ c = '.' := by
        by_cases hdigit : c.isDigit = true
        · exact .inl hdigit
        · exact .inr (by_contra fun hpoint => hc ⟨by simpa using hdigit, hpoint⟩)
      rw [toLower_of_digit_or_point hc'] at hd
      subst hd
      rcases hc' with hdigit | rfl
      · simp only [List.mem_cons, List.not_mem_nil, or_false] at hmem
        rcases hmem with rfl | rfl | rfl | rfl <;> exact absurd hdigit (by decide)
      · exact absurd hmem (by decide)
    refine ⟨c, cs, rfl, ?_⟩
    cases unit <;> exact hhead _ (List.cons.inj h).1 (by decide)

theorem unitOf_eq {rest : Text} (h : rest.map Char.toLower = unit.text) :
    unitOf rest = some unit := by
  rw [unitOf, h]
  cases unit <;> decide

/-- The pattern finds the digits and the unit. -/
theorem durationPattern_eq {ds rest : Text} (hne : ds ≠ []) (hds : ∀ c ∈ ds, c.isDigit = true)
    (hrest : rest.map Char.toLower = unit.text) :
    durationPattern (ds ++ rest) = some ((ds, []), unit) := by
  obtain ⟨c, cs, rfl, hdigit, hpoint⟩ := unit_head hrest
  have hdigits : digits (ds ++ c :: cs) = (ds, c :: cs) := by
    rw [digits, List.span_eq_takeWhile_dropWhile, List.takeWhile_append_of_pos hds,
      List.dropWhile_append_of_pos hds, List.takeWhile_cons_of_neg (by simp [hdigit]),
      List.dropWhile_cons_of_neg (by simp [hdigit]), List.append_nil]
  have hfraction : fraction (c :: cs) = ([], c :: cs) := by
    unfold fraction
    split
    · rename_i heq
      exact absurd (List.cons.inj heq).1 hpoint
    · rfl
  simp [durationPattern, hdigits, hfraction, hne, unitOf_eq hrest]

/-- A duration of a positive safe number of milliseconds. -/
def SafeDuration (v : Value) (n : ℕ) (unit : DurationUnit) : Prop :=
  IsDuration v n unit ∧ 0 < n * unit.toMs ∧ n * unit.toMs < 2 ^ 53

/-- A duration of a safe number of milliseconds is read as that number. -/
theorem parseDurationMs_eq {v : Value} (h : SafeDuration v n unit) :
    parseDurationMs v = some (.finite (n * unit.toMs : ℕ)) := by
  obtain ⟨⟨s, ds, rest, rfl, htrim, hne, hds, hn, hrest⟩, hpos, hsafe⟩ := h
  have hn0 : 0 < n := Nat.pos_of_mul_pos_right hpos
  have hunit : 0 < unit.toMs := Nat.pos_of_mul_pos_left hpos
  have hamount : toDouble (decimalFraction ds []) = .finite n := by
    have hvalue : decimalFraction ds [] = n := by simp [decimalFraction, decimalNumber, ← hn]
    rw [hvalue]
    exact toDouble_natCast (lt_of_le_of_lt (Nat.le_mul_of_pos_right n hunit) hsafe)
  have hproduct : toDouble ((n : ℚ) * unit.toMs) = .finite (n * unit.toMs : ℕ) := by
    rw [← toDouble_natCast hsafe]
    push_cast
    rfl
  have hnotle : ¬(n : ℚ) ≤ 0 := by exact_mod_cast hn0.not_ge
  simp only [parseDurationMs, htrim, durationPattern_eq hne hds hrest, Option.bind_some, hamount,
    if_neg hnotle, hproduct]

/-- An entry of the configuration that is absent, malformed, or a duration of a safe number of
milliseconds. -/
def Admissible (raw : Option Value) : Prop :=
  raw.bind parseDurationMs = none ∨ ∃ v n unit, raw = some v ∧ SafeDuration v n unit

/-! ## The date -/

def year2200 : ℕ := 7258118400000

def baseTime (state : OperationState) (createdAt : ℕ) (viewedAt : Option ℕ) : ℕ :=
  match state with
  | .pending | .processing => createdAt
  | .completed | .failed => viewedAt.getD createdAt

/-- The entry of the configuration that applies; none does to an operation in progress. -/
def usedKey (state : OperationState) (viewed : Bool) : Option OperationTtlKey :=
  match state with
  | .pending => some .pendingStale
  | .processing => none
  | .completed => some (if viewed then .completedViewed else .completedUnviewed)
  | .failed => some (if viewed then .failedViewed else .failedUnviewed)

/-- The time to live under an entry. -/
def usedTtl (tenantConfig : Option Value) : Option OperationTtlKey → Double
  | some key => resolveOperationTtlMs tenantConfig key
  | none => .finite defaultCreatedTtlMs

theorem computeOperationExpiresAt_eq (state : OperationState) (createdAt : ℕ) (viewedAt : Option ℕ)
    (tenantConfig : Option Value) :
    computeOperationExpiresAt state createdAt viewedAt tenantConfig =
      newDate (plus (baseTime state createdAt viewedAt)
        (usedTtl tenantConfig (usedKey state viewedAt.isSome))) := by
  cases state <;> cases viewedAt <;> rfl

/-- The sum of two numbers of milliseconds is a date if it is not past the last one. -/
theorem newDate_plus (time : ℕ) :
    newDate (plus time (.finite n)) =
      if time + n ≤ maxTime then some ((time + n : ℕ) : ℤ) else none := by
  have hcast : (time : ℚ) + n = ((time + n : ℕ) : ℚ) := by push_cast; rfl
  rw [plus, hcast]
  by_cases hsafe : time + n < 2 ^ 53
  · rw [toDouble_natCast hsafe, newDate, Int.floor_natCast]
    simp only [Nat.cast_le]
  · have hlarge : ((2 : ℚ) ^ 53) ≤ ((time + n : ℕ) : ℚ) := by exact_mod_cast not_lt.mp hsafe
    have hpast : ¬time + n ≤ maxTime := by
      rw [maxTime]
      omega
    rw [if_neg hpast]
    cases hx : toDouble ((time + n : ℕ) : ℚ) with
    | infinity => rfl
    | finite x =>
      have hle := le_toDouble hlarge hx
      rw [newDate, if_neg]
      rw [not_le, maxTime]
      exact lt_of_lt_of_le (by norm_num) hle

theorem defaultOperationTtlMs_bounds (key : OperationTtlKey) :
    0 < defaultOperationTtlMs key ∧ defaultOperationTtlMs key ≤ 7 * dayMs := by
  cases key <;> decide

/-- If the entry that applies is a duration, it does not lead past the last date. -/
def Fits (tenantConfig : Option Value) (used : Option OperationTtlKey) (time : ℕ) : Prop :=
  ∀ key ∈ used, ∀ v ∈ rawOverride tenantConfig key, ∀ n unit,
    SafeDuration v n unit → time + n * unit.toMs ≤ maxTime

/-- A time to live of a week at most leads to a date. -/
theorem fits_of_le {time : ℕ} (htime : time ≤ year2200) (hn : n ≤ 7 * dayMs) :
    time + n ≤ maxTime := by
  have hweek : 7 * dayMs = 604800000 := rfl
  rw [year2200] at htime
  rw [maxTime]
  omega

/-- An admissible entry gives a positive number of milliseconds: the one it names, or a default. -/
theorem usedTtl_eq {tenantConfig : Option Value}
    (hconfig : ∀ key, Admissible (rawOverride tenantConfig key)) (used : Option OperationTtlKey) :
    ∃ n : ℕ, usedTtl tenantConfig used = .finite n ∧ 0 < n ∧
      ∀ time ≤ year2200, time + n ≤ maxTime ↔ Fits tenantConfig used time := by
  cases used with
  | none =>
    refine ⟨defaultCreatedTtlMs, rfl, by decide, fun time htime => ?_⟩
    exact iff_of_true (fits_of_le htime (by decide)) (fun key hkey => absurd hkey (by simp))
  | some key =>
    rcases hconfig key with hnone | ⟨v, n, unit, hraw, hsafe⟩
    · refine ⟨defaultOperationTtlMs key, by simp [usedTtl, resolveOperationTtlMs, hnone],
        (defaultOperationTtlMs_bounds key).1, fun time htime => ?_⟩
      refine iff_of_true (fits_of_le htime (defaultOperationTtlMs_bounds key).2) ?_
      intro key' hkey v hv n unit hsafe
      obtain rfl := Option.mem_some.mp hkey
      rw [Option.mem_def.mp hv, Option.bind_some, parseDurationMs_eq hsafe] at hnone
      cases hnone
    · refine ⟨n * unit.toMs, ?_, hsafe.2.1, fun time _ => ⟨fun hle => ?_, fun hfits => ?_⟩⟩
      · simp [usedTtl, resolveOperationTtlMs, hraw, parseDurationMs_eq hsafe]
      · intro key' hkey v' hv' n' unit' hsafe'
        obtain rfl := Option.mem_some.mp hkey
        obtain rfl : v' = v := Option.mem_unique hv' hraw
        -- one text is read as one number
        have heq := (parseDurationMs_eq hsafe').symm.trans (parseDurationMs_eq hsafe)
        have hcast := Double.finite.inj (Option.some.inj heq)
        have heq' : n' * unit'.toMs = n * unit.toMs := by exact_mod_cast hcast
        rwa [heq']
      · exact hfits key (Option.mem_some_self key) v hraw n unit hsafe

/-- The base time is no later than 2200. -/
theorem baseTime_le {state : OperationState} {createdAt : ℕ} {viewedAt : Option ℕ}
    (hcreated : createdAt ≤ year2200) (hviewed : ∀ t ∈ viewedAt, t ≤ year2200) :
    baseTime state createdAt viewedAt ≤ year2200 := by
  have hget : viewedAt.getD createdAt ≤ year2200 := by
    cases viewedAt with
    | none => exact hcreated
    | some t => exact hviewed t rfl
  cases state with
  | pending | processing => exact hcreated
  | completed | failed => exact hget

/-- For every admissible configuration, state and time up to the year 2200: the expiry is a valid
date, later than the time it is computed from, if and only if the entry that applies does not lead
past the last date. -/
theorem expiry_valid_iff (tenantConfig : Option Value)
    (hconfig : ∀ key, Admissible (rawOverride tenantConfig key)) (state : OperationState)
    (createdAt : ℕ) (viewedAt : Option ℕ) (hcreated : createdAt ≤ year2200)
    (hviewed : ∀ t ∈ viewedAt, t ≤ year2200) :
    (∃ date, computeOperationExpiresAt state createdAt viewedAt tenantConfig = some date ∧
        date ≤ maxTime ∧ baseTime state createdAt viewedAt < date) ↔
      Fits tenantConfig (usedKey state viewedAt.isSome) (baseTime state createdAt viewedAt) := by
  obtain ⟨n, hn, hpos, hfits⟩ := usedTtl_eq hconfig (usedKey state viewedAt.isSome)
  rw [computeOperationExpiresAt_eq, hn, newDate_plus, ← hfits _ (baseTime_le hcreated hviewed)]
  generalize baseTime state createdAt viewedAt = time
  constructor
  · rintro ⟨date, hdate, -, -⟩
    by_contra hle
    rw [if_neg hle] at hdate
    cases hdate
  · intro hle
    refine ⟨((time + n : ℕ) : ℤ), if_pos hle, by exact_mod_cast hle, ?_⟩
    exact_mod_cast Nat.lt_add_of_pos_right hpos

def sampleConfig (duration : String) : Option Value :=
  some (.object [("operation_ttl".toList,
    .object [("pending_stale".toList, .string duration.toList)])])

theorem rawOverride_sampleConfig (duration : String) (key : OperationTtlKey) :
    rawOverride (sampleConfig duration) key =
      if "pending_stale".toList = configKeyMap key then some (.string duration.toList)
      else none := by
  have hmember : ∀ (k name : Text) (v : Value),
      Value.member name (.object [(k, v)]) = if k = name then some v else none := by
    intro k name v
    by_cases h : k = name <;> simp [Value.member, h]
  rw [rawOverride, sampleConfig, Option.bind_some, hmember, if_pos rfl, Option.bind_some, hmember]

theorem admissible_sampleConfig {duration : String}
    (h : SafeDuration (.string duration.toList) n unit) (key : OperationTtlKey) :
    Admissible (rawOverride (sampleConfig duration) key) := by
  rw [rawOverride_sampleConfig]
  split_ifs
  · exact .inr ⟨_, n, unit, rfl, h⟩
  · exact .inl rfl

theorem computeOperationExpiresAt_sampleConfig {duration : String}
    (h : SafeDuration (.string duration.toList) n unit) (hpast : maxTime < n * unit.toMs) :
    computeOperationExpiresAt .pending 0 none (sampleConfig duration) = none := by
  have hkey : "pending_stale".toList = configKeyMap .pendingStale := rfl
  have hresolve : resolveOperationTtlMs (sampleConfig duration) .pendingStale =
      .finite (n * unit.toMs : ℕ) := by
    rw [resolveOperationTtlMs, rawOverride_sampleConfig, if_pos hkey, Option.bind_some,
      parseDurationMs_eq h, Option.getD_some]
  rw [computeOperationExpiresAt, hresolve, newDate_plus, if_neg]
  rw [Nat.zero_add]
  exact hpast.not_ge

/-- A pending operation that expires two hours after its creation. -/
theorem expiry_valid_iff_twoHours :
    SafeDuration (.string "2h".toList) 2 .h ∧
      ((∃ date, computeOperationExpiresAt .pending 0 none (sampleConfig "2h") = some date ∧
          date ≤ maxTime ∧ baseTime .pending 0 none < date) ↔
        Fits (sampleConfig "2h") (usedKey .pending false) (baseTime .pending 0 none)) := by
  have hsafe : SafeDuration (.string "2h".toList) 2 .h :=
    ⟨⟨_, ['2'], ['h'], rfl, by decide +kernel, by decide, by simp, rfl, rfl⟩, by decide, by decide⟩
  exact ⟨hsafe, expiry_valid_iff _ (admissible_sampleConfig hsafe) .pending 0 none (by decide)
    (by simp)⟩

/-- A hundred million and one days are a safe number of milliseconds, and no date is that late: the
expiry of an operation created at the epoch is an invalid date. -/
theorem expiry_invalid :
    SafeDuration (.string "100000001d".toList) 100000001 .d ∧
      computeOperationExpiresAt .pending 0 none (sampleConfig "100000001d") = none := by
  have hsafe : SafeDuration (.string "100000001d".toList) 100000001 .d :=
    ⟨⟨_, "100000001".toList, ['d'], rfl, by decide +kernel, by simp, by simp, by decide +kernel,
      rfl⟩, by decide, by decide⟩
  refine ⟨hsafe, computeOperationExpiresAt_sampleConfig hsafe ?_⟩
  norm_num [DurationUnit.toMs, dayMs, hourMs, maxTime]

end DigitalTrust.OperationExpiry
