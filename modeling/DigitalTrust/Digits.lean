/-
# Numbers of a fixed width

A library for texts in which numbers are written with a fixed number of digits in some
base, and read back.  `readPadded_padded` is the round trip.
-/
import Mathlib

namespace Digits

structure Base where
  base : ℕ
  digit : ℕ → Char
  value : Char → Option ℕ
  pos : 0 < base
  value_digit : ∀ d < base, value (digit d) = some d

def decimalValue (c : Char) : Option ℕ :=
  if '0' ≤ c ∧ c ≤ '9' then some (c.toNat - 48) else none

def decimal : Base where
  base := 10
  digit d := Char.ofNat (48 + d)
  value := decimalValue
  pos := by decide
  value_digit := by decide +kernel

def hexValue (c : Char) : Option ℕ :=
  if '0' ≤ c ∧ c ≤ '9' then some (c.toNat - 48)
  else if 'a' ≤ c ∧ c ≤ 'f' then some (c.toNat - 87)
  else if 'A' ≤ c ∧ c ≤ 'F' then some (c.toNat - 55)
  else none

/-- Hexadecimal digits, written in lower case and read in either. -/
def hexadecimal : Base where
  base := 16
  digit d := "0123456789abcdef".toList.getD d '0'
  value := hexValue
  pos := by decide
  value_digit := by decide +kernel

variable (b : Base)

/-- The last `k` digits of a number. -/
def padded : ℕ → ℕ → List Char
  | 0, _ => []
  | k + 1, n => b.digit (n / b.base ^ k % b.base) :: padded k n

/-- Read `k` digits; `acc` is the number in front of them. -/
def readPadded : ℕ → ℕ → List Char → Option (ℕ × List Char)
  | 0, acc, t => some (acc, t)
  | _ + 1, _, [] => none
  | k + 1, acc, c :: t => (b.value c).bind fun d => readPadded k (acc * b.base + d) t

def expect (c : Char) : List Char → Option (List Char)
  | c' :: t => if c' = c then some t else none
  | [] => none

/-- A number of `k` digits and the character after it. -/
def readNumber (k : ℕ) (stop : Char) (t : List Char) : Option (ℕ × List Char) :=
  (readPadded b k 0 t).bind fun r => (expect stop r.2).map fun t => (r.1, t)

/-- Reading back what was written. -/
theorem readPadded_append (k : ℕ) :
    ∀ n acc t, readPadded b k acc (padded b k n ++ t) =
      some (acc * b.base ^ k + n % b.base ^ k, t) := by
  induction k with
  | zero => simp [readPadded, padded, Nat.mod_one]
  | succ k ih =>
    intro n acc t
    have hdigit := b.value_digit _ (Nat.mod_lt (n / b.base ^ k) b.pos)
    rw [padded, List.cons_append, readPadded, hdigit, Option.bind_some, ih, Nat.mod_pow_succ]
    congr 2
    ring

/-- **Round trip** for a number that fits. -/
theorem readPadded_padded {k n : ℕ} (h : n < b.base ^ k) (t : List Char) :
    readPadded b k 0 (padded b k n ++ t) = some (n, t) := by
  rw [readPadded_append, Nat.zero_mul, Nat.zero_add, Nat.mod_eq_of_lt h]

@[simp] theorem expect_cons (c : Char) (t : List Char) : expect c (c :: t) = some t := if_pos rfl

theorem readNumber_padded {k n : ℕ} (h : n < b.base ^ k) (stop : Char) (t : List Char) :
    readNumber b k stop (padded b k n ++ stop :: t) = some (n, t) := by
  rw [readNumber, readPadded_padded b h, Option.bind_some, expect_cons, Option.map_some]

/-- A text that starts with no digit has no number in front. -/
theorem readNumber_eq_none {k : ℕ} {stop c : Char} {t : List Char} (hc : b.value c = none) :
    readNumber b (k + 1) stop (c :: t) = none := by
  rw [readNumber, readPadded, hc, Option.bind_none, Option.bind_none]

end Digits
