/-
# Nested scopes

A library for sequences of events that open and close scopes inside each other, where each scope is
kept or undone when it is closed.

* `Nesting` is what a well-bracketed sequence of events means; `exists_nesting` says that every
  well-bracketed sequence is the sequence of a nesting.
* `Nesting.survivors` are the items of which every enclosing scope was kept, `Nesting.releases` says
  which of them become known at which event.
-/
import Mathlib

namespace NestedScopes

/-- A scope is opened, an item is met, or the scope opened last is closed, to be kept or undone. -/
inductive Event (α : Type) where
  | enter
  | item (a : α)
  | leave (kept : Bool)

/-- Items and scopes, one after the other; a scope has such a sequence inside. -/
inductive Nesting (α : Type) where
  | nil
  | item (a : α) (rest : Nesting α)
  | scope (inner : Nesting α) (kept : Bool) (rest : Nesting α)

variable {α : Type}

def Nesting.events : Nesting α → List (Event α)
  | nil => []
  | item a rest => .item a :: rest.events
  | scope inner kept rest => .enter :: (inner.events ++ .leave kept :: rest.events)

/-- With `d` scopes open, the events close each scope that they open, and these `d`. -/
def wellBracketedFrom : ℕ → List (Event α) → Bool
  | d, [] => d = 0
  | d, .enter :: es => wellBracketedFrom (d + 1) es
  | d, .item _ :: es => wellBracketedFrom d es
  | 0, .leave _ :: _ => false
  | d + 1, .leave _ :: es => wellBracketedFrom d es

/-- Every scope is opened before it is closed, and none is left open. -/
def WellBracketed (es : List (Event α)) : Prop := wellBracketedFrom 0 es = true

instance (es : List (Event α)) : Decidable (WellBracketed es) :=
  inferInstanceAs (Decidable (_ = true))

/-- Closing scopes, with what follows each closing. -/
def closings (cs : List (Bool × Nesting α)) : List (Event α) :=
  cs.flatMap fun c => .leave c.1 :: c.2.events

/-- With `d` scopes open, the events are a nesting, then `d` closings with a nesting after each. -/
theorem exists_nesting_closings (es : List (Event α)) :
    ∀ d, wellBracketedFrom d es = true →
      ∃ (t : Nesting α) (cs : List (Bool × Nesting α)),
        cs.length = d ∧ es = t.events ++ closings cs := by
  induction es with
  | nil =>
    intro d h
    refine ⟨.nil, [], ?_, rfl⟩
    exact (of_decide_eq_true h).symm
  | cons e es ih =>
    intro d h
    cases e with
    | enter =>
      obtain ⟨t, cs, hcs, rfl⟩ := ih (d + 1) h
      -- the scope opened here is the one that the first closing closes
      cases cs with
      | nil => cases hcs
      | cons c cs =>
        refine ⟨.scope t c.1 c.2, cs, Nat.succ.inj hcs, ?_⟩
        simp [closings, Nesting.events]
    | item a =>
      obtain ⟨t, cs, hcs, rfl⟩ := ih d h
      exact ⟨.item a t, cs, hcs, rfl⟩
    | leave kept =>
      cases d with
      | zero => cases h
      | succ d =>
        obtain ⟨t, cs, hcs, rfl⟩ := ih d h
        exact ⟨.nil, (kept, t) :: cs, congrArg (· + 1) hcs, rfl⟩

/-- A well-bracketed sequence is the sequence of a nesting. -/
theorem WellBracketed.exists_nesting {es : List (Event α)} (h : WellBracketed es) :
    ∃ t : Nesting α, t.events = es := by
  obtain ⟨t, cs, hcs, rfl⟩ := exists_nesting_closings es 0 h
  obtain rfl := List.length_eq_zero_iff.mp hcs
  exact ⟨t, (List.append_nil _).symm⟩

/-! ## Items that survive -/

/-- The items in order, each with what became of its enclosing scopes, the outermost first. -/
def Nesting.items : Nesting α → List (α × List Bool)
  | nil => []
  | item a rest => (a, []) :: rest.items
  | scope inner kept rest => inner.items.map (fun x => (x.1, kept :: x.2)) ++ rest.items

/-- The items of which every enclosing scope was kept, in order. -/
def Nesting.survivors (t : Nesting α) : List α :=
  (t.items.filter fun x => x.2.all id).map Prod.fst

@[simp] theorem Nesting.survivors_nil : (nil : Nesting α).survivors = [] := rfl

@[simp] theorem Nesting.survivors_item (a : α) (rest : Nesting α) :
    (item a rest).survivors = a :: rest.survivors := rfl

@[simp] theorem Nesting.survivors_scope (inner : Nesting α) (kept : Bool) (rest : Nesting α) :
    (scope inner kept rest).survivors =
      (if kept then inner.survivors else []) ++ rest.survivors := by
  cases kept <;> simp [survivors, items, List.filter_map, Function.comp_def]

/-- What becomes known to survive at each event: an item outside every scope at once, and the items
of an outermost scope when that scope is closed. -/
def Nesting.releases : Nesting α → List (List α)
  | nil => []
  | item a rest => [a] :: rest.releases
  | scope inner kept rest =>
    [] :: (List.replicate inner.events.length [] ++
      (if kept then inner.survivors else []) :: rest.releases)

/-- In the end all survivors are known, each once and in order. -/
theorem Nesting.flatten_releases (t : Nesting α) : t.releases.flatten = t.survivors := by
  induction t with
  | nil => rfl
  | item a rest ih => simp [releases, ih]
  | scope inner kept rest _ ih => simp [releases, ih]

end NestedScopes
