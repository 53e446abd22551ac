/-
# Retry policies

A call under a retry policy is a first attempt and, while the attempts fail in a way that the
policy handles, a bounded number of further ones.  What the attempts come to is a tape, whose entry
`j` is read only if attempt `j` is made.
-/
import Mathlib.Data.List.Basic

namespace Retry

variable {α : Type*}

/-- The attempts of a call: a first one, and up to `more` further ones while the last one is
retryable. -/
def attempts (retryable : α → Bool) : ℕ → (ℕ → α) → List α
  | 0, tape => [tape 0]
  | more + 1, tape =>
    tape 0 :: if retryable (tape 0) then attempts retryable more fun n => tape (n + 1) else []

/-- The attempt that ends the call. -/
def last (retryable : α → Bool) : ℕ → (ℕ → α) → α
  | 0, tape => tape 0
  | more + 1, tape =>
    if retryable (tape 0) then last retryable more fun n => tape (n + 1) else tape 0

/-- Attempt `j` is made: it is within the bound, and every attempt before it is retryable. -/
def Made (retryable : α → Bool) (more : ℕ) (tape : ℕ → α) (j : ℕ) : Prop :=
  j ≤ more ∧ ∀ k < j, retryable (tape k) = true

variable {retryable : α → Bool} {more : ℕ} {tape : ℕ → α}

theorem made_zero : Made retryable more tape 0 :=
  ⟨Nat.zero_le _, fun k hk => absurd hk (Nat.not_lt_zero k)⟩

theorem not_made_succ_zero (j : ℕ) : ¬ Made retryable 0 tape (j + 1) :=
  fun h => Nat.not_succ_le_zero j h.1

/-- A later try is made after a retried one. -/
theorem made_succ_succ (j : ℕ) :
    Made retryable (more + 1) tape (j + 1) ↔
      retryable (tape 0) = true ∧ Made retryable more (fun n => tape (n + 1)) j := by
  constructor
  · rintro ⟨hj, hearlier⟩
    refine ⟨hearlier 0 (Nat.succ_pos j), Nat.le_of_succ_le_succ hj, ?_⟩
    intro k hk
    exact hearlier (k + 1) (Nat.succ_lt_succ hk)
  · rintro ⟨hfirst, hj, hlater⟩
    refine ⟨Nat.succ_le_succ hj, ?_⟩
    intro k hk
    cases k with
    | zero => exact hfirst
    | succ k => exact hlater k (Nat.lt_of_succ_lt_succ hk)

/-- If an attempt is made, so are those before it. -/
theorem Made.earlier {i j : ℕ} (h : Made retryable more tape j) (hij : i ≤ j) :
    Made retryable more tape i :=
  ⟨Nat.le_trans hij h.1, fun k hk => h.2 k (Nat.lt_of_lt_of_le hk hij)⟩

/-- Attempt `j` of the call is entry `j` of the tape, if it is made. -/
theorem attempts_getElem?_eq_some (j : ℕ) (a : α) :
    (attempts retryable more tape)[j]? = some a ↔ Made retryable more tape j ∧ tape j = a := by
  -- along the recursion of `attempts`, the tape shifted by one attempt
  induction more generalizing tape j with
  | zero =>
    cases j with
    | zero => simp [attempts, made_zero]
    | succ j => simp [attempts, not_made_succ_zero]
  | succ more ih =>
    cases j with
    | zero => simp [attempts, made_zero]
    | succ j =>
      rw [attempts, List.getElem?_cons_succ, made_succ_succ]
      by_cases hfirst : retryable (tape 0) = true
      · rw [if_pos hfirst, ih]
        simp [hfirst]
      · rw [if_neg hfirst]
        simp [hfirst]

/-- At most one element of a list has a property iff no two do. -/
theorem countP_le_one_iff (p : α → Bool) (l : List α) :
    l.countP p ≤ 1 ↔ l.Pairwise fun a b => ¬ (p a = true ∧ p b = true) := by
  induction l with
  | nil => simp
  | cons a l ih =>
    rw [List.pairwise_cons, List.countP_cons]
    by_cases ha : p a = true
    · have hnone : l.countP p = 0 ↔ ∀ b ∈ l, ¬ (p a = true ∧ p b = true) := by
        simp [List.countP_eq_zero, ha]
      rw [if_pos ha, ← hnone, ← ih]
      omega
    · rw [if_neg ha, Nat.add_zero, ih]
      simp [ha]

/-- At most one of the attempts made has a property iff no attempt that has it is followed
by another one that is made and has it. -/
theorem countP_attempts_le_one_iff (p : α → Bool) :
    (attempts retryable more tape).countP p ≤ 1 ↔
      ∀ i j, i < j → Made retryable more tape j → ¬ (p (tape i) = true ∧ p (tape j) = true) := by
  rw [countP_le_one_iff, List.pairwise_iff_getElem]
  constructor
  · intro hpair i j hij hmade
    obtain ⟨hj, hjeq⟩ := List.getElem?_eq_some_iff.mp
      ((attempts_getElem?_eq_some j _).mpr ⟨hmade, rfl⟩)
    obtain ⟨hi, hieq⟩ := List.getElem?_eq_some_iff.mp
      ((attempts_getElem?_eq_some i _).mpr ⟨hmade.earlier (Nat.le_of_lt hij), rfl⟩)
    have h := hpair i j hi hj hij
    rwa [hieq, hjeq] at h
  · intro hnone i j hi hj hij
    obtain ⟨-, hieq⟩ := (attempts_getElem?_eq_some i _).mp (List.getElem?_eq_getElem hi)
    obtain ⟨hmade, hjeq⟩ := (attempts_getElem?_eq_some j _).mp (List.getElem?_eq_getElem hj)
    rw [← hieq, ← hjeq]
    exact hnone i j hij hmade

end Retry
