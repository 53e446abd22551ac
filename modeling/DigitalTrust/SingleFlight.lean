/-
# One call at a time

A library model of the protocol by which callers share a call that must not be repeated: a caller
claims the slot, makes the call, and the slot becomes free again only when that call is known not
to have happened.  `separated` is what the protocol is for.
-/
import Mathlib

namespace SingleFlight

/-- What a log tells about a slot; `o` is the ticket of a claim. -/
inductive Act (O : Type) where
  | claim (o : O)
  | call (o : O)
  | release (o : O)

inductive Slot (O : Type) where
  | free
  | claimed (o : O)
  | called (o : O)

variable {O A : Type} [DecidableEq O]

/-- The ticket of the claim that a slot is taken by. -/
def Slot.ticket : Slot O → Option O
  | free => none
  | claimed o => some o
  | called o => some o

/-- What an act does to a slot; `none` when the slot does not accept it.  A release with
another ticket than the call's is not about this slot. -/
def step : Slot O → Act O → Option (Slot O)
  | .free, .claim o => some (.claimed o)
  | .claimed o, .call o' => if o' = o then some (.called o) else none
  | .called o, .release o' => if o' = o then some .free else some (.called o)
  | .free, .release _ => some .free
  | .claimed o, .release _ => some (.claimed o)
  | _, _ => none

def run (s : Slot O) : List (Act O) → Option (Slot O)
  | [] => some s
  | a :: acts => (step s a).bind fun s' => run s' acts

theorem run_append (s : Slot O) (l l' : List (Act O)) :
    run s (l ++ l') = (run s l).bind fun s' => run s' l' := by
  induction l generalizing s with
  | nil => rfl
  | cons a l ih =>
    simp only [List.cons_append, run]
    cases step s a with
    | none => rfl
    | some s' => exact ih s'

/-- A call takes a slot that was claimed with the same ticket. -/
theorem step_call {s s' : Slot O} {o : O} (h : step s (.call o) = some s') :
    s = .claimed o ∧ s' = .called o := by
  cases s with
  | claimed o' =>
    simp only [step] at h
    split_ifs at h with ho
    exact ⟨by rw [ho], by rw [← Option.some.inj h, ho]⟩
  | free => simp [step] at h
  | called o' => simp [step] at h

/-- Only the release of its call ends the time of a called slot. -/
theorem run_called {o : O} {s' : Slot O} (acts : List (Act O))
    (h : run (.called o) acts = some s') : s' = .called o ∨ .release o ∈ acts := by
  induction acts with
  | nil => exact Or.inl (Option.some.inj h).symm
  | cons a acts ih =>
    simp only [run] at h
    cases a with
    | claim o' => simp [step] at h
    | call o' => simp [step] at h
    | release o' =>
      by_cases ho : o' = o
      · subst ho
        exact Or.inr (List.mem_cons_self)
      · simp only [step, if_neg ho, Option.bind_some] at h
        exact (ih h).imp id (List.mem_cons_of_mem _)

/-- Releases alone leave a free slot free. -/
theorem run_free_releases (acts : List (Act O)) (h : ∀ a ∈ acts, ∃ o, a = .release o) :
    run .free acts = some .free := by
  induction acts with
  | nil => rfl
  | cons a acts ih =>
    obtain ⟨o, rfl⟩ := h _ List.mem_cons_self
    exact ih fun a ha => h a (List.mem_cons_of_mem _ ha)

/-- **Separation.**  In a log whose acts a slot accepts, two calls are separated by the
release of the first. -/
theorem separated {act : A → Option (Act O)} {s s' : Slot O} {pre mid post : List A} {a b : A}
    {o₁ o₂ : O} (h : run s ((pre ++ a :: mid ++ b :: post).filterMap act) = some s')
    (ha : act a = some (.call o₁)) (hb : act b = some (.call o₂)) :
    ∃ c ∈ mid, act c = some (.release o₁) := by
  simp only [List.filterMap_append, List.filterMap_cons, ha, hb, run_append] at h
  obtain ⟨s₁, hpre, hpost⟩ := Option.bind_eq_some_iff.mp h
  obtain ⟨s₂, hs₂, hpre⟩ := Option.bind_eq_some_iff.mp hpre
  simp only [run] at hpre hpost
  obtain ⟨s₃, hcall₁, hmid⟩ := Option.bind_eq_some_iff.mp hpre
  obtain ⟨s₄, hcall₂, -⟩ := Option.bind_eq_some_iff.mp hpost
  obtain rfl := (step_call hcall₁).2
  obtain rfl := (step_call hcall₂).1
  rcases run_called _ hmid with hsame | hmem
  · simp at hsame
  · simpa using List.mem_filterMap.mp hmem

/-- A slot that a list of acts leaves taken by a new ticket was claimed with it, and not
claimed again. -/
theorem run_claimed {o : O} {s s' : Slot O} (acts : List (Act O)) (h : run s acts = some s')
    (ho : s'.ticket = some o) : (s.ticket = some o ∧ ∀ o', .claim o' ∉ acts) ∨
      ∃ pre post, acts = pre ++ .claim o :: post ∧ ∀ o', .claim o' ∉ post := by
  induction acts generalizing s with
  | nil =>
    obtain rfl : s = s' := Option.some.inj h
    exact Or.inl ⟨ho, fun o' => List.not_mem_nil⟩
  | cons a acts ih =>
    obtain ⟨s₁, hstep, hrun⟩ := Option.bind_eq_some_iff.mp h
    rcases ih hrun with ⟨hticket, hnone⟩ | ⟨pre, post, rfl, hnone⟩
    · -- the ticket is there after the first act: claimed by it, or there before
      cases a with
      | claim o' =>
        cases s with
        | free =>
          obtain rfl : Slot.claimed o' = s₁ := Option.some.inj hstep
          obtain rfl : o' = o := Option.some.inj hticket
          exact Or.inr ⟨[], acts, rfl, hnone⟩
        | claimed _ => simp [step] at hstep
        | called _ => simp [step] at hstep
      | call o' =>
        obtain ⟨rfl, rfl⟩ := step_call hstep
        exact Or.inl ⟨hticket, fun o'' => by simp [hnone o'']⟩
      | release o' =>
        refine Or.inl ⟨?_, fun o'' => by simp [hnone o'']⟩
        cases s with
        | free =>
          obtain rfl : Slot.free = s₁ := Option.some.inj hstep
          simp [Slot.ticket] at hticket
        | claimed o'' =>
          obtain rfl : Slot.claimed o'' = s₁ := Option.some.inj hstep
          exact hticket
        | called o'' =>
          simp only [step] at hstep
          split_ifs at hstep
          · obtain rfl : Slot.free = s₁ := Option.some.inj hstep
            simp [Slot.ticket] at hticket
          · obtain rfl : Slot.called o'' = s₁ := Option.some.inj hstep
            exact hticket
    · exact Or.inr ⟨a :: pre, post, rfl, hnone⟩

/-- **The last claim.**  In a log that leaves a free slot taken, the ticket is that of the
last claim. -/
theorem last_claim {act : A → Option (Act O)} {s : Slot O} {o : O} {log : List A}
    (h : run .free (log.filterMap act) = some s) (ho : s.ticket = some o) :
    ∃ pre a post, log = pre ++ a :: post ∧ act a = some (.claim o) ∧
      ∀ b ∈ post, ∀ o', act b ≠ some (.claim o') := by
  rcases run_claimed _ h ho with ⟨hfree, -⟩ | ⟨pre, post, hacts, hnone⟩
  · simp [Slot.ticket] at hfree
  · obtain ⟨l₁, l₂, rfl, -, h₂⟩ := List.filterMap_eq_append_iff.mp hacts
    obtain ⟨l₃, a, l₄, rfl, hskip, ha, h₄⟩ := List.filterMap_eq_cons_iff.mp h₂
    refine ⟨l₁ ++ l₃, a, l₄, by simp, ha, fun b hb o' hbo => hnone o' ?_⟩
    rw [← h₄]
    exact List.mem_filterMap.mpr ⟨b, hb, hbo⟩

end SingleFlight
