/-
# Rounding to double precision

A library model of the numbers that a runtime with IEEE 754 doubles computes with, as far as they
are not negative: a result is rounded to the nearest multiple of the unit in its last place, ties to
even, and is infinite from `2 ^ 1024` on.

* `toDouble_natCast` : natural numbers below `2 ^ 53` are not changed.
* `le_toDouble` : nothing from `2 ^ 53` on is rounded to something below.
-/
import Mathlib

namespace Binary64

inductive Double where
  | finite (q : ℚ)
  | infinity
  deriving DecidableEq

/-- The nearest integer, the even one of two. -/
def roundHalfEven (q : ℚ) : ℤ :=
  let r := q - ⌊q⌋
  if r < 1 / 2 then ⌊q⌋
  else if 1 / 2 < r then ⌊q⌋ + 1
  else if ⌊q⌋ % 2 = 0 then ⌊q⌋ else ⌊q⌋ + 1

/-- The exponent of the unit in the last place: 53 digits in all, and none below `2 ^ (-1074)`. -/
def exponent (q : ℚ) : ℤ := max (Int.log 2 q - 52) (-1074)

/-- The multiple of the unit in the last place that is nearest to `q`. -/
def nearest (q : ℚ) : ℚ := roundHalfEven (q / 2 ^ exponent q) * 2 ^ exponent q

/-- The double nearest to a number that is not negative. -/
def toDouble (q : ℚ) : Double := if nearest q < 2 ^ 1024 then .finite (nearest q) else .infinity

theorem roundHalfEven_intCast (n : ℤ) : roundHalfEven n = n := by
  simp [roundHalfEven]

theorem floor_le_roundHalfEven (q : ℚ) : ⌊q⌋ ≤ roundHalfEven q := by
  simp only [roundHalfEven]
  split_ifs <;> omega

/-- A natural number below `2 ^ 53` is a multiple of its unit in the last place. -/
theorem nearest_natCast {n : ℕ} (hn : n < 2 ^ 53) : nearest n = n := by
  have hlog : Nat.log 2 n ≤ 52 := by
    rcases Nat.eq_zero_or_pos n with rfl | hpos
    · simp
    · exact Nat.lt_succ_iff.mp (Nat.log_lt_of_lt_pow hpos.ne' hn)
  -- the unit is one or a fraction with a power of two below
  obtain ⟨k, hk⟩ : ∃ k : ℕ, exponent n = -(k : ℤ) := by
    refine ⟨(-exponent n).toNat, ?_⟩
    have : exponent n ≤ 0 := by
      rw [exponent, Int.log_natCast]
      omega
    omega
  have hunits : (n : ℚ) / 2 ^ exponent (n : ℚ) = ((n * 2 ^ k : ℕ) : ℤ) := by
    rw [hk, zpow_neg, zpow_natCast, div_inv_eq_mul]
    push_cast
    rfl
  rw [nearest, hunits, roundHalfEven_intCast, ← hunits]
  exact div_mul_cancel₀ _ (zpow_ne_zero _ two_ne_zero)

theorem toDouble_natCast {n : ℕ} (hn : n < 2 ^ 53) : toDouble n = .finite n := by
  have hsmall : (n : ℚ) < 2 ^ 1024 := by
    have h : (n : ℚ) < 2 ^ 53 := by exact_mod_cast hn
    exact h.trans (pow_lt_pow_right₀ one_lt_two (by norm_num))
  rw [toDouble, nearest_natCast hn, if_pos hsmall]

/-- From `2 ^ 53` on, the unit in the last place is at least two, and there are `2 ^ 52` of them. -/
theorem le_nearest {q : ℚ} (hq : 2 ^ 53 ≤ q) : 2 ^ 53 ≤ nearest q := by
  have hpos : 0 < q := lt_of_lt_of_le (by norm_num) hq
  have hlog : 53 ≤ Int.log 2 q := by
    have h := Int.log_mono_right (b := 2) (by norm_num : (0 : ℚ) < 2 ^ 53) hq
    have h53 : Int.log 2 ((2 : ℚ) ^ 53) = 53 := by
      exact_mod_cast Int.log_zpow (R := ℚ) one_lt_two 53
    exact h53 ▸ h
  have hexp : exponent q = Int.log 2 q - 52 := max_eq_left (by omega)
  have hunit : (2 : ℚ) ≤ 2 ^ exponent q := by
    have h := zpow_le_zpow_right₀ (one_le_two (α := ℚ)) (by omega : 1 ≤ exponent q)
    simpa using h
  have hunits : (2 ^ 52 : ℚ) ≤ q / 2 ^ exponent q := by
    rw [le_div_iff₀ (lt_of_lt_of_le two_pos hunit), hexp]
    calc (2 ^ 52 : ℚ) * 2 ^ (Int.log 2 q - 52) = 2 ^ Int.log 2 q := by
          rw [← zpow_natCast, ← zpow_add₀ two_ne_zero]
          congr 1
          push_cast
          ring
      _ ≤ q := by exact_mod_cast Int.zpow_log_le_self (R := ℚ) one_lt_two hpos
  have hround : (2 ^ 52 : ℚ) ≤ roundHalfEven (q / 2 ^ exponent q) := by
    have hfloor : (2 ^ 52 : ℤ) ≤ ⌊q / 2 ^ exponent q⌋ := Int.le_floor.mpr (by exact_mod_cast hunits)
    exact_mod_cast hfloor.trans (floor_le_roundHalfEven _)
  calc (2 ^ 53 : ℚ) = 2 ^ 52 * 2 := by norm_num
    _ ≤ nearest q := mul_le_mul hround hunit two_pos.le (le_trans (by positivity) hround)

theorem le_toDouble {q x : ℚ} (hq : 2 ^ 53 ≤ q) (hx : toDouble q = .finite x) : 2 ^ 53 ≤ x := by
  rw [toDouble] at hx
  split_ifs at hx
  obtain rfl := Double.finite.inj hx
  exact le_nearest hq

end Binary64
