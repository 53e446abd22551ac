/-
# Transition systems

A library for systems given by a step function: the states that are reached by steps which all meet
a condition, invariants of them, and systems whose own steps come to an end because each of them
lowers a measure.
-/
import Mathlib

namespace Transitions

variable {S A : Type} (step : S → A → Option S)

/-- The states reached from `s₀` by steps that all meet `C`, a condition on the action and on the
state before. -/
inductive Reach (C : A → S → Prop) (s₀ : S) : S → Prop
  | init : Reach C s₀ s₀
  | step {s s' : S} (a : A) : Reach C s₀ s → C a s → step s a = some s' → Reach C s₀ s'

/-- The state after a list of actions that all meet `C`. -/
def run (C : A → S → Bool) (s : S) : List A → Option S
  | [] => some s
  | a :: as => if C a s then (step s a).bind fun s' => run C s' as else none

variable {step} {s₀ : S}

/-- What every step keeps holds in every state that is reached. -/
theorem Reach.invariant {C : A → S → Prop} {I : S → Prop} (h₀ : I s₀)
    (hstep : ∀ s a s', I s → C a s → step s a = some s' → I s') {s : S}
    (h : Reach step C s₀ s) : I s := by
  induction h with
  | init => exact h₀
  | step a _ hC hs ih => exact hstep _ a _ ih hC hs

/-- The state after a list of actions is reached. -/
theorem Reach.run {C : A → S → Bool} {s s' : S} (as : List A)
    (h : Reach step (fun a s => C a s = true) s₀ s) (hrun : run step C s as = some s') :
    Reach step (fun a s => C a s = true) s₀ s' := by
  induction as generalizing s with
  | nil => exact Option.some.inj hrun ▸ h
  | cons a as ih =>
    rw [Transitions.run, Option.ite_none_right_eq_some, Option.bind_eq_some_iff] at hrun
    obtain ⟨hC, s₁, hs, hrest⟩ := hrun
    exact ih (.step a h hC hs) hrest

/-- Steps that keep an invariant and lower a measure are no more than the measure says. -/
theorem length_le_of_run {C : A → S → Bool} {I : S → Prop} {μ : S → ℕ}
    (hstep : ∀ s a s', I s → C a s = true → step s a = some s' → I s' ∧ μ s' < μ s) {s s' : S}
    {as : List A} (hs : I s) (hrun : run step C s as = some s') : I s' ∧ as.length ≤ μ s := by
  induction as generalizing s with
  | nil => exact ⟨Option.some.inj hrun ▸ hs, Nat.zero_le _⟩
  | cons a as ih =>
    rw [Transitions.run, Option.ite_none_right_eq_some, Option.bind_eq_some_iff] at hrun
    obtain ⟨hC, s₁, hs₁, hrest⟩ := hrun
    obtain ⟨hI, hlt⟩ := hstep s a s₁ hs hC hs₁
    obtain ⟨hI', hle⟩ := ih hI hrest
    refine ⟨hI', ?_⟩
    rw [List.length_cons]
    omega

end Transitions
