/-
# A table with the journal of its changes

A library for programs that overlap and whose statements each commit on their own: the shared state
is a table together with every change made to a row of it so far, tagged with the call that made
it.  `Journal.save` is the `save` of an object-relational mapper: it reads the row once more and
writes, in a second statement, the columns in which the entity differs from the row just read.
-/
import DigitalTrust.Interleaving
import DigitalTrust.Table

namespace Interleaving

variable {S L α : Type} {C : L → S → Prop} {I : S → Prop}

/-- A statement that never has to wait, and what follows if it fails. -/
def Proc.attempt (l : L) (f : S → S) (failed : Proc S L α) (k : S → Proc S L α) : Proc S L α :=
  .act l true (fun s => some (f s)) fun r => match r with
    | some s => k s
    | none => failed

/-- Go on with the value of a computation, or end with its error. -/
def Proc.demand {ε β : Type} (x : Except ε β) (k : β → Proc S L (Except ε α)) :
    Proc S L (Except ε α) :=
  match x with
  | .ok b => k b
  | .error e => .ret (.error e)

/-- The program without its result. -/
def Proc.discard : Proc S L α → Proc S L Unit
  | .ret _ => .ret ()
  | .act l e f k => .act l e f fun r => (k r).discard

namespace Contract

variable {κ : Contract S} {i : ℕ} {post : α → S → Prop} {P : S → Prop}

theorem Ok.attempt {l : L} {f : S → S} {failed : Proc S L α} {k : S → Proc S L α}
    (hfailed : κ.Ok C i post failed P)
    (h : ∀ s, κ.inv s → P s → C l s → κ.inv (f s) ∧ (∀ j, j ≠ some i → κ.rely j s (f s)) ∧
      ∃ P', P' (f s) ∧ κ.Stable i P' ∧ κ.Ok C i post (k s) P') :
    κ.Ok C i post (.attempt l f failed k) P :=
  ⟨fun s _ hs hP hc hf => Option.some.inj hf ▸ h s hs hP hc, fun _ => hfailed⟩

theorem Ok.demand {ε β : Type} {post : Except ε α → S → Prop} {x : Except ε β}
    {k : β → Proc S L (Except ε α)} (herror : ∀ e s, κ.inv s → P s → post (.error e) s)
    (h : ∀ b, x = .ok b → κ.Ok C i post (k b) P) : κ.Ok C i post (.demand x k) P := by
  cases x with
  | ok b => exact h b rfl
  | error e => exact herror e

/-- A result may be ignored. -/
theorem Ok.discard {p : Proc S L α} (h : κ.Ok C i post p P) :
    κ.Ok C i (fun _ _ => True) p.discard P := by
  induction p generalizing P with
  | ret a => exact fun _ _ _ => trivial
  | act l e f k ih =>
    refine ⟨fun s s' hs hP hC hf => ?_, fun he => ih none (h.2 he)⟩
    obtain ⟨hs', hrely, P', hP', hstable, hk⟩ := h.1 s s' hs hP hC hf
    exact ⟨hs', hrely, P', hP', hstable, ih (some s) hk⟩

end Contract

namespace Proc.Maintains

theorem attempt {l : L} {f : S → S} {failed : Proc S L α} {k : S → Proc S L α}
    (hfailed : failed.Maintains C I) (h : ∀ s, I s → C l s → I (f s) ∧ (k s).Maintains C I) :
    (Proc.attempt l f failed k).Maintains C I :=
  ⟨fun s _ hs hc hf => Option.some.inj hf ▸ h s hs hc, fun _ => hfailed⟩

theorem demand {ε β : Type} {x : Except ε β} {k : β → Proc S L (Except ε α)}
    (h : ∀ b, x = .ok b → (k b).Maintains C I) : (Proc.demand x k).Maintains C I := by
  cases x with
  | ok b => exact h b rfl
  | error e => exact trivial

/-- Following the plain contract is maintaining the invariant. -/
theorem of_ok {i : ℕ} {p : Proc S L α}
    (h : (Contract.plain I).Ok C i (fun _ _ => True) p fun _ => True) : p.Maintains C I := by
  induction p with
  | ret a => exact trivial
  | act l e f k ih =>
    refine ⟨fun s s' hs hC hf => ?_, fun he => ih none (h.2 he)⟩
    obtain ⟨hs', -, P', hP', hstable, hk⟩ := h.1 s s' hs trivial hC hf
    -- the others may do anything, so a stable assertion holds in every state
    exact ⟨hs', ih (some s) (hk.pre fun s'' hs'' _ => hstable s' s'' hs' hs'' hP' trivial)⟩

theorem discard {p : Proc S L α} (h : p.Maintains C I) : p.discard.Maintains C I :=
  of_ok (h.ok (i := 0)).discard

end Proc.Maintains

end Interleaving

/-! ## Journals -/

namespace Relational

open Interleaving

/-- One change of a row, and the call that made it. -/
structure Change (ι α T : Type) where
  call : T
  key : ι
  before : α
  after : α
  deriving DecidableEq

/-- A table, the changes made to it, latest first, and whatever else is shared. -/
structure Journal (ι α T X : Type) where
  table : Table ι α
  changes : List (Change ι α T)
  rest : X

/-- The changes of one row, latest first, lead from one value to another. -/
def Leads {ι α T : Type} (first : Option α) : List (Change ι α T) → Option α → Prop
  | [], last => last = first
  | c :: cs, last => last = some c.after ∧ Leads first cs (some c.before)

namespace Journal

variable {ι α T X : Type} [DecidableEq ι]

/-- `UPDATE ... WHERE`. -/
def update (j : Journal ι α T X) (call : T) (p : ι → α → Bool) (u : α → α) :
    Journal ι α T X :=
  { j with
    table := j.table.update p u
    changes := (j.table.select p).map (fun x => ⟨call, x.1, x.2, u x.2⟩) ++ j.changes }

/-- `UPDATE ... WHERE id = key`, with a further condition. -/
def updateRow (j : Journal ι α T X) (call : T) (key : ι) (p : α → Bool) (u : α → α) :
    Journal ι α T X :=
  j.update call (fun k a => decide (k = key) && p a) u

/-- The journal is complete, and every change satisfies `P`. -/
structure Recorded (t₀ : Table ι α) (P : Change ι α T → Prop) (j : Journal ι α T X) : Prop where
  complete : ∀ k, Leads (t₀.row k) (j.changes.filter fun c => c.key = k) (j.table.row k)
  every : ∀ c ∈ j.changes, P c

/-- Nothing has been changed yet. -/
theorem Recorded.start (t : Table ι α) (P : Change ι α T → Prop) (x : X) :
    Recorded t P ⟨t, [], x⟩ :=
  ⟨fun _ => rfl, fun _ hc => absurd hc List.not_mem_nil⟩

end Journal

namespace Table

variable {ι α : Type} [DecidableEq ι]

/-- Of the rows found, at most one is under a given key. -/
theorem select_filter_key (t : Table ι α) (p : ι → α → Bool) (k : ι) :
    (t.select p).filter (fun x => x.1 = k) =
      ((t.row k).filter (p k)).toList.map fun a => (k, a) := by
  have hnodup : (((t.select p).filter fun x => x.1 = k).map Prod.fst).Nodup :=
    (t.nodup_select p).sublist (List.filter_sublist.map _)
  have hmem : ∀ x, x ∈ (t.select p).filter (fun x => x.1 = k) ↔
      x.1 = k ∧ t.row k = some x.2 ∧ p k x.2 = true := by
    intro x
    rw [List.mem_filter, mem_select, decide_eq_true_eq]
    constructor
    · rintro ⟨h, rfl⟩
      exact ⟨rfl, h⟩
    · rintro ⟨rfl, h⟩
      exact ⟨h, rfl⟩
  match hl : (t.select p).filter fun x => x.1 = k with
  | [] =>
    rw [hl] at hmem
    cases hrow : (t.row k).filter (p k) with
    | none => rw [hl, Option.toList_none, List.map_nil]
    | some a =>
      obtain ⟨ha, hp⟩ := Option.filter_eq_some_iff.mp hrow
      exact absurd ((hmem (k, a)).mpr ⟨rfl, ha, hp⟩) List.not_mem_nil
  | [x] =>
    rw [hl] at hmem
    obtain ⟨rfl, hrow, hp⟩ := (hmem x).mp (List.mem_singleton.mpr rfl)
    rw [hl, Option.filter_eq_some_iff.mpr ⟨hrow, hp⟩, Option.toList_some, List.map_singleton]
  | x :: y :: l =>
    rw [hl] at hmem hnodup
    have hx := (hmem x).mp (by simp)
    have hy := (hmem y).mp (by simp)
    simp [hx.1, hy.1] at hnodup

end Table

namespace Journal

variable {ι α T X : Type} [DecidableEq ι] {t₀ : Table ι α} {P : Change ι α T → Prop}
  {j : Journal ι α T X}

/-- The changes after an update: those of the rows that it meets, and the earlier ones. -/
theorem mem_changes_update {call : T} {p : ι → α → Bool} {u : α → α} {c : Change ι α T} :
    c ∈ (j.update call p u).changes ↔
      (∃ a, j.table.row c.key = some a ∧ p c.key a = true ∧ c = ⟨call, c.key, a, u a⟩) ∨
        c ∈ j.changes := by
  rw [Journal.update, List.mem_append, List.mem_map]
  refine or_congr_left ⟨?_, ?_⟩
  · rintro ⟨x, hx, rfl⟩
    obtain ⟨hrow, hp⟩ := Table.mem_select.mp hx
    exact ⟨x.2, hrow, hp, rfl⟩
  · rintro ⟨a, hrow, hp, hc⟩
    exact ⟨(c.key, a), Table.mem_select.mpr ⟨hrow, hp⟩, hc.symm⟩

/-- An update keeps the journal complete, and adds the changes of the rows that it meets. -/
theorem Recorded.update (h : Recorded t₀ P j) {call : T} {p : ι → α → Bool} {u : α → α}
    (hP : ∀ k a, j.table.row k = some a → p k a = true → P ⟨call, k, a, u a⟩) :
    Recorded t₀ P (j.update call p u) := by
  constructor
  · intro k
    have hfilter : (j.update call p u).changes.filter (fun c => c.key = k) =
        (((j.table.row k).filter (p k)).toList.map fun a => ⟨call, k, a, u a⟩) ++
          j.changes.filter fun c => c.key = k := by
      rw [Journal.update, List.filter_append, List.filter_map]
      have hselect := congrArg (List.map fun x : ι × α => (⟨call, x.1, x.2, u x.2⟩ : Change ι α T))
        (j.table.select_filter_key p k)
      rw [List.map_map] at hselect
      exact congrArg (· ++ _) hselect
    rw [hfilter]
    have hrow : (j.update call p u).table.row k =
        (j.table.row k).map fun a => if p k a then u a else a := j.table.row_update p u k
    rw [hrow]
    have hcomplete := h.complete k
    cases hk : j.table.row k with
    | none => simpa [hk] using hcomplete
    | some a =>
      rw [hk] at hcomplete
      by_cases hp : p k a = true
      · simpa [Option.filter, hp, Leads] using hcomplete
      · simpa [Option.filter, hp] using hcomplete
  · intro c hc
    obtain ⟨a, hrow, hp, hc⟩ | hc := mem_changes_update.mp hc
    · exact hc ▸ hP c.key a hrow hp
    · exact h.every c hc

/-- An update of one row that meets it records one change. -/
theorem changes_updateRow {call : T} {key : ι} {p : α → Bool} {u : α → α} {a : α}
    (hrow : j.table.row key = some a) (hp : p a = true) :
    (j.updateRow call key p u).changes = ⟨call, key, a, u a⟩ :: j.changes := by
  have hselect : j.table.select (fun k a => decide (k = key) && p a) = [(key, a)] := by
    have hkey := j.table.select_filter_key (fun k a => decide (k = key) && p a) key
    rw [hrow, Option.filter_some, if_pos (by simpa using hp), Option.toList_some,
      List.map_singleton] at hkey
    rw [← hkey, Table.select, List.filter_filter]
    refine List.filter_congr fun x _ => ?_
    cases decide (x.1 = key) <;> simp
  rw [Journal.updateRow, Journal.update, hselect, List.map_singleton, List.singleton_append]

/-- The same for an update of one row. -/
theorem Recorded.updateRow (h : Recorded t₀ P j) {call : T} {key : ι} {p : α → Bool} {u : α → α}
    (hP : ∀ a, j.table.row key = some a → p a = true → P ⟨call, key, a, u a⟩) :
    Recorded t₀ P (j.updateRow call key p u) := by
  refine h.update fun k a hrow hp => ?_
  rw [Bool.and_eq_true, decide_eq_true_eq] at hp
  obtain ⟨rfl, hp⟩ := hp
  exact hP a hrow hp

/-- A row is what it was at the beginning, or what some change has left. -/
theorem Recorded.row (h : Recorded t₀ P j) {k : ι} {a : α} (ha : j.table.row k = some a) :
    t₀.row k = some a ∨ ∃ c ∈ j.changes, c.key = k ∧ c.after = a := by
  have hcomplete := h.complete k
  rw [ha] at hcomplete
  match hl : j.changes.filter fun c => c.key = k with
  | [] =>
    rw [hl] at hcomplete
    exact Or.inl hcomplete.symm
  | c :: cs =>
    rw [hl] at hcomplete
    have hmem : c ∈ j.changes.filter fun c => c.key = k := hl ▸ List.mem_cons_self
    obtain ⟨hc, hkey⟩ := List.mem_filter.mp hmem
    exact Or.inr ⟨c, hc, of_decide_eq_true hkey, (Option.some.inj hcomplete.1).symm⟩

/-- What is shared beside the table does not matter. -/
theorem Recorded.rest (h : Recorded t₀ P j) (x : X) : Recorded t₀ P { j with rest := x } :=
  ⟨h.complete, h.every⟩

/-! ## Saving an entity -/

section Save

variable [DecidableEq α] {L β : Type} {C : L → Journal ι α T X → Prop}

/-- How a mapper saves an entity: the row that its `UPDATE` leaves, given the entity, the row
that it has read and the row that it meets, and whether the constraints accept a row. -/
structure Mapping (ι α : Type) where
  merge : α → α → α → α
  accepts : Table ι α → ι → α → Bool

/-- The `UPDATE` of a `save`, which also commits: `done` is what becomes of the rest.  `none`
if it meets no row or the constraints refuse it. -/
def stored (m : Mapping ι α) (call : T) (key : ι) (entity read : α) (done : X → X)
    (j : Journal ι α T X) : Option (Journal ι α T X) :=
  match j.table.row key with
  | none => none
  | some a =>
    if m.accepts j.table key (m.merge entity read a) then
      some { j.updateRow call key (fun _ => true) (m.merge entity read) with rest := done j.rest }
    else none

/-- `save` of an entity that was read earlier.  No call of these systems deletes a row, so the
row is found again. -/
def save (m : Mapping ι α) (call : T) (reload store : L) (key : ι) (entity : α) (done : X → X)
    (failed k : Proc (Journal ι α T X) L β) : Proc (Journal ι α T X) L β :=
  .attempt reload id failed fun j =>
    match j.table.row key with
    | none => failed
    | some read =>
      if entity = read then
        .attempt store (fun j => { j with rest := done j.rest }) failed fun _ => k
      else
        let commit := stored m call key entity read done
        .attempt store (fun j => (commit j).getD j) failed fun j =>
          if (commit j).isSome then k else failed

/-- The rule for a `save`, under an assertion that the others leave alone: the `UPDATE` has to
keep the contract for a row that was read under the same assertion. -/
theorem ok_save {κ : Contract (Journal ι α T X)} {i : ℕ} {post : β → Journal ι α T X → Prop}
    {A : Journal ι α T X → Prop} {m : Mapping ι α} {call : T} {reload store : L} {key : ι}
    {entity : α} {done : X → X} {failed k : Proc (Journal ι α T X) L β}
    (hrefl : ∀ j o, κ.rely o j j) (hA : κ.Stable i A) (hfailed : κ.Ok C i post failed A)
    (hk : κ.Ok C i post k fun _ => True)
    (hdone : ∀ j, κ.inv j → A j → κ.inv { j with rest := done j.rest } ∧
      ∀ o, o ≠ some i → κ.rely o j { j with rest := done j.rest })
    (hstore : ∀ j read, κ.inv j → A j → C reload j → j.table.row key = some read → entity ≠ read →
      ∀ j' a, κ.inv j' → A j' → C store j' → j'.table.row key = some a →
        κ.inv { j'.updateRow call key (fun _ => true) (m.merge entity read) with
          rest := done j'.rest } ∧
        ∀ o, o ≠ some i → κ.rely o j'
          { j'.updateRow call key (fun _ => true) (m.merge entity read) with
            rest := done j'.rest }) :
    κ.Ok C i post (save m call reload store key entity done failed k) A := by
  refine .attempt hfailed fun j hj hAj hreload => ⟨hj, fun o _ => hrefl j o, A, hAj, hA, ?_⟩
  cases hread : j.table.row key with
  | none => exact hfailed
  | some read =>
    simp only
    split_ifs with heq
    · refine .attempt hfailed fun j' hj' hAj' _ => ?_
      obtain ⟨hinv, hrely⟩ := hdone j' hj' hAj'
      exact ⟨hinv, hrely, fun _ => True, trivial, .const True, hk⟩
    · refine .attempt hfailed fun j' hj' hAj' hstored => ?_
      -- a row that is there and accepted is written; otherwise the call fails
      by_cases hwrites : ∃ a, j'.table.row key = some a ∧
          m.accepts j'.table key (m.merge entity read a) = true
      · obtain ⟨a, hrow, haccepts⟩ := hwrites
        obtain ⟨hinv, hrely⟩ := hstore j read hj hAj hreload hread heq j' a hj' hAj' hstored hrow
        have heffect : stored m call key entity read done j' = some
            { j'.updateRow call key (fun _ => true) (m.merge entity read) with
              rest := done j'.rest } := by
          simp only [stored, hrow, haccepts, if_true]
        simp only [heffect, Option.getD_some, Option.isSome_some, if_true]
        exact ⟨hinv, hrely, fun _ => True, trivial, .const True, hk⟩
      · have heffect : stored m call key entity read done j' = none := by
          unfold stored
          cases hrow : j'.table.row key with
          | none => rfl
          | some a => exact if_neg fun haccepts => hwrites ⟨a, hrow, haccepts⟩
        simp only [heffect, Option.getD_none, Option.isSome_none, Bool.false_eq_true, if_false]
        exact ⟨hj', fun o _ => hrefl j' o, A, hAj', hA, hfailed⟩

/-- A `save` keeps the journal if what it does to the row that it meets is allowed. -/
theorem maintains_save {m : Mapping ι α} {call : T} {reload store : L} {key : ι} {entity : α}
    {done : X → X} {failed k : Proc (Journal ι α T X) L β}
    (hfailed : failed.Maintains C (Recorded t₀ P)) (hk : k.Maintains C (Recorded t₀ P))
    (h : ∀ j read j' a, C reload j → j.table.row key = some read → C store j' →
      j'.table.row key = some a → entity ≠ read → P ⟨call, key, a, m.merge entity read a⟩) :
    (save m call reload store key entity done failed k).Maintains C (Recorded t₀ P) := by
  refine .of_ok (ok_save (i := 0) (fun _ _ => trivial) (.const True) hfailed.ok hk.ok
    (fun j hj _ => ⟨hj.rest _, fun _ _ => trivial⟩) ?_)
  intro j read _ _ hreload hread heq j' a hj' _ hstore _
  refine ⟨(hj'.updateRow fun a' ha' _ => ?_).rest _, fun _ _ => trivial⟩
  exact h j read j' a' hreload hread hstore ha' heq

end Save

end Journal

end Relational
