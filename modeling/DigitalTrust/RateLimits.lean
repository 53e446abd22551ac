/-
# Rate limits

`rate-limit-key.ts`, `rate-limit-hit.repository.ts` and `rate-limit-storage.service.ts`: the
limiter counts the hits recorded for a caller and a route in a window that ends with the call, and
records the call unless the caller is over its limit already.
-/
import DigitalTrust.Json
import DigitalTrust.TextSearch
import DigitalTrust.UriComponent

namespace DigitalTrust.RateLimits

open Json TextSearch

/-! ## Keys -/

def keySeparator : Text := "::".toList

/-- The pair that a key stands for. -/
structure RateLimitKey where
  tracker : Text
  routeKey : Text
deriving DecidableEq

inductive KeyFailure where
  /-- `throw new Error(message)`. -/
  | error (message : Text)
  /-- `decodeURIComponent` throws a `URIError`. -/
  | uriError

def buildRateLimitKey (tracker routeKey : Text) : Text :=
  UriComponent.encode tracker ++ (keySeparator ++ UriComponent.encode routeKey)

/-- `decodeURIComponent`. -/
def decodeComponent (t : Text) : Except KeyFailure Text :=
  match UriComponent.decode t with
  | some text => .ok text
  | none => .error .uriError

def parseRateLimitKey (key : Text) : Except KeyFailure RateLimitKey :=
  match indexOf keySeparator key with
  | none => .error (.error ("Malformed rate limit key: ".toList ++ key))
  | some separatorIndex => do
    let tracker ← decodeComponent (key.take separatorIndex)
    let routeKey ← decodeComponent (key.drop (separatorIndex + keySeparator.length))
    return { tracker, routeKey }

theorem colon_not_unescaped : ':' ∉ UriComponent.unescaped := by decide +kernel

/-- No colon is left in an escaped text. -/
theorem colon_not_mem_encode (t : Text) : ':' ∉ UriComponent.encode t := by
  intro h
  rcases UriComponent.encode_alphabet h with hmem | heq
  · exact colon_not_unescaped hmem
  · exact absurd heq (by decide)

@[simp] theorem decodeComponent_encode (t : Text) :
    decodeComponent (UriComponent.encode t) = .ok t := by
  rw [decodeComponent, UriComponent.decode_encode]

/-- A key is read back as the pair it was built from. -/
theorem parseRateLimitKey_build (tracker routeKey : Text) :
    parseRateLimitKey (buildRateLimitKey tracker routeKey) = .ok ⟨tracker, routeKey⟩ := by
  have hindex : indexOf keySeparator (buildRateLimitKey tracker routeKey) =
      some (UriComponent.encode tracker).length :=
    indexOf_append (colon_not_mem_encode tracker) _
  have hdrop : (buildRateLimitKey tracker routeKey).drop
      ((UriComponent.encode tracker).length + keySeparator.length) =
        UriComponent.encode routeKey := by
    rw [buildRateLimitKey, ← List.append_assoc, ← List.length_append, List.drop_left]
  have htake : (buildRateLimitKey tracker routeKey).take (UriComponent.encode tracker).length =
      UriComponent.encode tracker := List.take_left
  rw [parseRateLimitKey, hindex]
  simp only [htake, hdrop, decodeComponent_encode]
  rfl

/-! ## Hits -/

/-- A row of `rate_limit_hits`. -/
structure RateLimitHit where
  tracker : Text
  routeKey : Text
  hitAt : ℤ

/-- `repository.insert({ tracker, routeKey })`; the database sets `hit_at`. -/
def recordHit (k : RateLimitKey) (hitAt : ℤ) (hits : List RateLimitHit) : List RateLimitHit :=
  hits ++ [{ tracker := k.tracker, routeKey := k.routeKey, hitAt }]

/-- `repository.count({ where: { tracker, routeKey, hitAt: MoreThanOrEqual(since) } })`. -/
def countSince (k : RateLimitKey) (since : ℤ) (hits : List RateLimitHit) : ℕ :=
  hits.countP fun h => h.tracker = k.tracker ∧ h.routeKey = k.routeKey ∧ since ≤ h.hitAt

theorem countSince_recordHit (k k' : RateLimitKey) (since hitAt : ℤ) (hits : List RateLimitHit) :
    countSince k since (recordHit k' hitAt hits) =
      countSince k since hits + if k' = k ∧ since ≤ hitAt then 1 else 0 := by
  obtain ⟨tracker, routeKey⟩ := k
  obtain ⟨tracker', routeKey'⟩ := k'
  simp [countSince, recordHit, List.countP_append, List.countP_cons, and_assoc]

/-! ## The storage service -/

structure RateLimitStorageRecord where
  totalHits : ℕ
  timeToExpire : ℕ
  isBlocked : Bool
  timeToBlockExpire : ℕ

/-- What a guard passes to the limiter at every call of a route. -/
structure Throttle where
  ttl : ℕ
  limit : ℕ
  blockDuration : ℕ

/-- The two moments of a call that matter: `Date.now()` at its start, which ends the window, and
the `hit_at` that its hit gets if it is recorded. -/
structure Call where
  now : ℤ
  hitAt : ℤ

/-- `Math.ceil(milliseconds / 1000)`. -/
def seconds (milliseconds : ℕ) : ℕ := (milliseconds + 999) / 1000

def existingHits (th : Throttle) (k : RateLimitKey) (c : Call) (hits : List RateLimitHit) : ℕ :=
  countSince k (c.now - th.ttl) hits

/-- `increment`, with the rows of `rate_limit_hits` before and after. -/
def increment (key : Text) (th : Throttle) (c : Call) (hits : List RateLimitHit) :
    Except KeyFailure RateLimitStorageRecord × List RateLimitHit :=
  match parseRateLimitKey key with
  | .error e => (.error e, hits)
  | .ok k =>
    let existing := existingHits th k c hits
    let alreadyBlocked := decide (th.limit < existing)
    let hits := if alreadyBlocked then hits else recordHit k c.hitAt hits
    let totalHits := if alreadyBlocked then existing else existing + 1
    let isBlocked := decide (th.limit < totalHits)
    (.ok {
      totalHits
      timeToExpire := seconds th.ttl
      isBlocked
      timeToBlockExpire :=
        if isBlocked then
          seconds (if th.blockDuration = 0 then th.ttl else th.blockDuration)
        else 0 }, hits)

def admitted : Except KeyFailure RateLimitStorageRecord → Bool
  | .ok r => !r.isBlocked
  | .error _ => false

def blocked : Except KeyFailure RateLimitStorageRecord → Bool
  | .ok r => r.isBlocked
  | .error _ => false

/-- The call finds the caller over its limit already. -/
def alreadyBlocked (key : Text) (th : Throttle) (c : Call) (hits : List RateLimitHit) : Bool :=
  match parseRateLimitKey key with
  | .error _ => false
  | .ok k => decide (th.limit < existingHits th k c hits)

/-- What is known of an admitted call. -/
theorem of_admitted {key : Text} {th : Throttle} {c : Call} {hits : List RateLimitHit}
    (h : admitted (increment key th c hits).1 = true) :
    ∃ k, parseRateLimitKey key = .ok k ∧ existingHits th k c hits < th.limit ∧
      (increment key th c hits).2 = recordHit k c.hitAt hits := by
  unfold increment at h ⊢
  cases hkey : parseRateLimitKey key with
  | error e =>
    rw [hkey] at h
    exact absurd h (by simp [admitted])
  | ok k =>
    rw [hkey] at h
    refine ⟨k, rfl, ?_⟩
    by_cases hover : th.limit < existingHits th k c hits
    · simp [admitted, hover] at h
    · simp only [admitted, hover, decide_false, Bool.false_eq_true, if_false,
        Bool.not_eq_true', decide_eq_false_iff_not, not_lt] at h
      exact ⟨by omega, by simp [hover]⟩

/-- A call takes no hit away. -/
theorem countSince_le_increment (key : Text) (th : Throttle) (c : Call) (k : RateLimitKey)
    (since : ℤ) (hits : List RateLimitHit) :
    countSince k since hits ≤ countSince k since (increment key th c hits).2 := by
  unfold increment
  cases parseRateLimitKey key with
  | error e => exact le_rfl
  | ok k' =>
    by_cases hover : th.limit < existingHits th k' c hits
    · simp [hover]
    · simp only [hover, decide_false, Bool.false_eq_true, if_false]
      rw [countSince_recordHit]
      exact Nat.le_add_right _ _

/-- A call that finds the caller over its limit is not recorded. -/
theorem increment_of_alreadyBlocked {key : Text} {th : Throttle} {c : Call}
    {hits : List RateLimitHit} (h : alreadyBlocked key th c hits = true) :
    (increment key th c hits).2 = hits := by
  unfold alreadyBlocked at h
  unfold increment
  cases hkey : parseRateLimitKey key with
  | error e => rfl
  | ok k =>
    rw [hkey] at h
    simp only at h ⊢
    rw [h, if_pos rfl]

/-- A key leaves the hits of every other pair as they are. -/
theorem countSince_increment_build {k k' : RateLimitKey} (hne : k ≠ k') (th : Throttle) (c : Call)
    (since : ℤ) (hits : List RateLimitHit) :
    countSince k' since (increment (buildRateLimitKey k.tracker k.routeKey) th c hits).2 =
      countSince k' since hits := by
  unfold increment
  rw [parseRateLimitKey_build]
  by_cases hover : th.limit < existingHits th k c hits
  · simp [hover]
  · simp only [hover, decide_false, Bool.false_eq_true, if_false]
    rw [countSince_recordHit, if_neg (fun h => hne h.1), Nat.add_zero]

/-- **Keys and buckets.**  A key built from a tracker and a route is read back as that pair; keys
of distinct pairs differ, and a call of one pair changes no count of another. -/
theorem parse_build_buckets (tracker routeKey tracker' routeKey' : Text) :
    parseRateLimitKey (buildRateLimitKey tracker routeKey) = .ok ⟨tracker, routeKey⟩ ∧
    ((tracker, routeKey) ≠ (tracker', routeKey') →
      buildRateLimitKey tracker routeKey ≠ buildRateLimitKey tracker' routeKey' ∧
      ∀ (th : Throttle) (c : Call) (since : ℤ) (hits : List RateLimitHit),
        countSince ⟨tracker', routeKey'⟩ since
            (increment (buildRateLimitKey tracker routeKey) th c hits).2 =
          countSince ⟨tracker', routeKey'⟩ since hits) := by
  refine ⟨parseRateLimitKey_build tracker routeKey, fun hne => ?_⟩
  have hkeys : (⟨tracker, routeKey⟩ : RateLimitKey) ≠ ⟨tracker', routeKey'⟩ := by
    intro h
    injection h with h₁ h₂
    exact hne (by rw [h₁, h₂])
  refine ⟨fun heq => hkeys ?_, fun th c since hits => ?_⟩
  · have hparse := parseRateLimitKey_build tracker routeKey
    rw [heq, parseRateLimitKey_build] at hparse
    exact (Except.ok.inj hparse).symm
  · exact countSince_increment_build hkeys th c since hits

/-- An address with the separator in it, and a route with a percent sign. -/
theorem parse_build_buckets_mapped :
    parseRateLimitKey (buildRateLimitKey "::ffff:127.0.0.1".toList "50%::x".toList) =
      .ok ⟨"::ffff:127.0.0.1".toList, "50%::x".toList⟩ ∧
    buildRateLimitKey "::ffff:127.0.0.1".toList "50%::x".toList ≠
      buildRateLimitKey "::ffff:127.0.0.1::50%".toList "x".toList := by
  have h := parse_build_buckets "::ffff:127.0.0.1".toList "50%::x".toList
    "::ffff:127.0.0.1::50%".toList "x".toList
  exact ⟨h.1, (h.2 (by decide +kernel)).1⟩

/-! ## Calls one after another -/

/-- The answers to calls of a key. -/
def outcomes (key : Text) (th : Throttle) :
    List RateLimitHit → List Call → List (Except KeyFailure RateLimitStorageRecord)
  | _, [] => []
  | hits, c :: calls =>
    (increment key th c hits).1 :: outcomes key th (increment key th c hits).2 calls

def serve (key : Text) (th : Throttle) (hits : List RateLimitHit) (calls : List Call) :
    List RateLimitHit :=
  calls.foldl (fun hits c => (increment key th c hits).2) hits

/-- The calls that were let through. -/
def admittedCalls (key : Text) (th : Throttle) (hits : List RateLimitHit) (calls : List Call) :
    List Call :=
  ((calls.zip (outcomes key th hits calls)).filter fun p => admitted p.2).map Prod.fst

@[simp] theorem length_outcomes (key : Text) (th : Throttle) (hits : List RateLimitHit)
    (calls : List Call) : (outcomes key th hits calls).length = calls.length := by
  induction calls generalizing hits with
  | nil => rfl
  | cons c calls ih => rw [outcomes, List.length_cons, ih, List.length_cons]

theorem outcomes_concat (key : Text) (th : Throttle) (hits : List RateLimitHit)
    (calls : List Call) (c : Call) :
    outcomes key th hits (calls ++ [c]) =
      outcomes key th hits calls ++ [(increment key th c (serve key th hits calls)).1] := by
  induction calls generalizing hits with
  | nil => rfl
  | cons d calls ih => rw [List.cons_append, outcomes, ih, outcomes, List.cons_append]; rfl

theorem serve_concat (key : Text) (th : Throttle) (hits : List RateLimitHit) (calls : List Call)
    (c : Call) :
    serve key th hits (calls ++ [c]) = (increment key th c (serve key th hits calls)).2 := by
  rw [serve, List.foldl_append]
  rfl

/-- One more call at the end is let through or not. -/
theorem admittedCalls_concat (key : Text) (th : Throttle) (hits : List RateLimitHit)
    (calls : List Call) (c : Call) :
    admittedCalls key th hits (calls ++ [c]) =
      admittedCalls key th hits calls ++
        if admitted (increment key th c (serve key th hits calls)).1 then [c] else [] := by
  have hlen : calls.length = (outcomes key th hits calls).length := (length_outcomes ..).symm
  rw [admittedCalls, outcomes_concat, List.zip_append hlen, List.filter_append, List.map_append]
  cases h : admitted (increment key th c (serve key th hits calls)).1 <;>
    simp [admittedCalls, h]

/-! ## The bound -/

/-- Every admitted call is among the hits that are counted later. -/
theorem countP_admittedCalls_le {key : Text} {k : RateLimitKey}
    (hkey : parseRateLimitKey key = .ok k) (th : Throttle) (hits : List RateLimitHit)
    (calls : List Call) (since : ℤ) :
    (admittedCalls key th hits calls).countP (fun c => since ≤ c.hitAt) ≤
      countSince k since (serve key th hits calls) := by
  -- from the end of the sequence: a new admitted call is a new row
  induction calls using List.reverseRecOn with
  | nil => exact Nat.zero_le _
  | append_singleton calls c ih =>
    rw [admittedCalls_concat, serve_concat, List.countP_append]
    by_cases hadm : admitted (increment key th c (serve key th hits calls)).1 = true
    · obtain ⟨k', hkey', -, hserve⟩ := of_admitted hadm
      obtain rfl : k = k' := Except.ok.inj (hkey.symm.trans hkey')
      rw [if_pos hadm, hserve, countSince_recordHit]
      simp only [List.countP_singleton, decide_eq_true_eq, true_and]
      omega
    · rw [if_neg hadm, List.countP_nil, Nat.add_zero]
      exact ih.trans (countSince_le_increment ..)

/-- A closed interval as long as the window meets no more admitted calls than the limit. -/
theorem countP_meets_le (key : Text) (th : Throttle) (hits : List RateLimitHit)
    (calls : List Call) (a : ℤ) :
    (admittedCalls key th hits calls).countP (fun c => c.now ≤ a + th.ttl ∧ a ≤ c.hitAt) ≤
      th.limit := by
  induction calls using List.reverseRecOn with
  | nil => exact Nat.zero_le _
  | append_singleton calls c ih =>
    rw [admittedCalls_concat, List.countP_append]
    by_cases hadm : admitted (increment key th c (serve key th hits calls)).1 = true
    · by_cases hmeets : c.now ≤ a + th.ttl ∧ a ≤ c.hitAt
      · -- the last call of the interval counted every earlier one
        obtain ⟨k, hkey, hlt, -⟩ := of_admitted hadm
        have hearlier :
            (admittedCalls key th hits calls).countP
                (fun c => c.now ≤ a + th.ttl ∧ a ≤ c.hitAt) ≤
              (admittedCalls key th hits calls).countP
                (fun d => c.now - th.ttl ≤ d.hitAt) := by
          refine List.countP_mono_left fun d _ hd => ?_
          simp only [decide_eq_true_eq] at hd ⊢
          omega
        have hcounted := countP_admittedCalls_le hkey th hits calls (c.now - th.ttl)
        rw [existingHits] at hlt
        rw [if_pos hadm, List.countP_singleton, if_pos (by simpa using hmeets)]
        omega
      · rw [if_pos hadm, List.countP_singleton, if_neg (by simpa using hmeets)]
        exact ih
    · rw [if_neg hadm]
      exact ih

/-- Some moment of the call lies in the interval from `a`, with it, to `b`, without it. -/
def Call.inIco (a b : ℤ) (c : Call) : Bool := decide (c.now < b ∧ a ≤ c.hitAt)

/-- Some moment of the call lies in the interval from `a`, without it, to `b`, with it. -/
def Call.inIoc (a b : ℤ) (c : Call) : Bool := decide (c.now ≤ b ∧ a < c.hitAt)

/-- **The bound.**  A half-open interval as long as the window, wherever it lies, holds no more
admitted calls than the limit. -/
theorem admitted_le_limit (key : Text) (th : Throttle) (hits : List RateLimitHit)
    (calls : List Call) (a : ℤ) :
    (admittedCalls key th hits calls).countP (Call.inIco a (a + th.ttl)) ≤ th.limit ∧
    (admittedCalls key th hits calls).countP (Call.inIoc a (a + th.ttl)) ≤ th.limit := by
  constructor
  · refine (List.countP_mono_left fun c _ hc => ?_).trans (countP_meets_le key th hits calls a)
    simp only [Call.inIco, decide_eq_true_eq] at hc ⊢
    exact ⟨hc.1.le, hc.2⟩
  · refine (List.countP_mono_left fun c _ hc => ?_).trans (countP_meets_le key th hits calls a)
    simp only [Call.inIoc, decide_eq_true_eq] at hc ⊢
    exact ⟨hc.1, hc.2.le⟩

/-! ## Calls that leave no trace -/

/-- The elements at the positions that are kept. -/
def keepAt {α : Type*} : (ℕ → Bool) → List α → List α
  | _, [] => []
  | keep, x :: xs =>
    if keep 0 then x :: keepAt (fun i => keep (i + 1)) xs else keepAt (fun i => keep (i + 1)) xs

/-- Which calls find the caller over its limit already. -/
def overLimit (key : Text) (th : Throttle) : List RateLimitHit → List Call → List Bool
  | _, [] => []
  | hits, c :: calls =>
    alreadyBlocked key th c hits :: overLimit key th (increment key th c hits).2 calls

/-- **Calls over the limit consume nothing.**  Any of the calls that find more hits in their
window than the limit can be left out: the answers to all others stay the same. -/
theorem outcomes_keep_of_over_limit (key : Text) (th : Throttle) (hits : List RateLimitHit)
    (calls : List Call) (keep : ℕ → Bool)
    (hkeep : ∀ i < calls.length, keep i = false → (overLimit key th hits calls)[i]? = some true) :
    outcomes key th hits (keepAt keep calls) = keepAt keep (outcomes key th hits calls) := by
  induction calls generalizing hits keep with
  | nil => rfl
  | cons c calls ih =>
    have htail := ih (increment key th c hits).2 (fun i => keep (i + 1)) fun i hi hdrop => by
      simpa [overLimit] using hkeep (i + 1) (by simpa using hi) hdrop
    cases h : keep 0 with
    | true =>
      simp only [keepAt, h, if_true, outcomes]
      rw [htail]
    | false =>
      -- the call left out has not changed the hits
      have hover : alreadyBlocked key th c hits = true := by
        simpa [overLimit] using hkeep 0 (Nat.zero_lt_succ _) h
      simp only [keepAt, h, Bool.false_eq_true, if_false, outcomes]
      rw [← htail, increment_of_alreadyBlocked hover]

/-- The calls are made one after another, by one clock. -/
def TimeOrdered (calls : List Call) : Prop :=
  (∀ c ∈ calls, c.now ≤ c.hitAt) ∧ calls.Pairwise fun c d => c.hitAt ≤ d.now

instance (calls : List Call) : Decidable (TimeOrdered calls) :=
  inferInstanceAs (Decidable (_ ∧ _))

def sampleThrottle : Throttle := { ttl := 10000, limit := 1, blockDuration := 0 }

def sampleKey : Text := buildRateLimitKey "::1".toList "Tenants.list".toList

def callAt (t : ℤ) : Call := ⟨t, t⟩

/-- The third of four calls finds two hits and can be left out. -/
theorem outcomes_keep_of_over_limit_third :
    outcomes sampleKey sampleThrottle []
        (keepAt (· ≠ 2) [callAt 0, callAt 5000, callAt 6000, callAt 20000]) =
      keepAt (· ≠ 2) (outcomes sampleKey sampleThrottle []
        [callAt 0, callAt 5000, callAt 6000, callAt 20000]) :=
  outcomes_keep_of_over_limit sampleKey sampleThrottle []
    [callAt 0, callAt 5000, callAt 6000, callAt 20000] (· ≠ 2) (by decide +kernel)

/-- A call that finds exactly as many hits as the limit is turned away and recorded all the same:
the second of three calls makes the limiter turn the third away too. -/
theorem blocked_call_consumes :
    TimeOrdered [callAt 0, callAt 5000, callAt 11000] ∧
    ¬ ∀ keep : ℕ → Bool,
        (∀ i < 3, keep i = false →
          ((outcomes sampleKey sampleThrottle []
            [callAt 0, callAt 5000, callAt 11000])[i]?.map blocked) = some true) →
        (outcomes sampleKey sampleThrottle []
            (keepAt keep [callAt 0, callAt 5000, callAt 11000])).map blocked =
          keepAt keep ((outcomes sampleKey sampleThrottle []
            [callAt 0, callAt 5000, callAt 11000]).map blocked) := by
  refine ⟨by decide +kernel, fun h => ?_⟩
  have hsame := h (· ≠ 1) (by decide +kernel)
  exact absurd hsame (by decide +kernel)

end DigitalTrust.RateLimits
