/-
# The first view of an operation

`operation.service.ts`: an operation expires some time after it was created or, once it has ended,
after it was first viewed.  Polls and `markViewed` stamp the first view together with a new expiry,
in a statement that is guarded by `viewed_at IS NULL` only; the workers move the state together with
the expiry, in a statement that is guarded by the state.  The expiry of a first view is computed
from the state that the call has read, which need not be the state any more when it is written.

Every write of the row is one statement or is made under the row's lock until its commit, so that
each write below stands for a commit.
-/
import DigitalTrust.Interleaving
import DigitalTrust.OperationExpiry

namespace DigitalTrust.OperationViews

open Interleaving
open Json (Value)
open OperationExpiry (computeOperationExpiresAt)

/-! ## The row -/

/-- The row of the operation, with the tenant's configuration from which its expiry was computed. -/
structure OperationRow where
  createdAt : ℕ
  state : OperationState
  viewedAt : Option ℕ
  expiresAt : ℤ
  config : Option Value

/-- The row, if it is there, how often the first view was written, and how often the operation was
moved into a final state. -/
structure State where
  row : Option OperationRow
  views : ℕ
  ended : ℕ

/-- `createOperation`; the database refuses an invalid date. -/
def State.created (now : ℕ) (config : Option Value) : State where
  row := (computeOperationExpiresAt .pending now none config).map fun expiresAt =>
    ⟨now, .pending, none, expiresAt, config⟩
  views := 0
  ended := 0

/-- Statements that can be told apart in a run: the write of a first view, with how often the
operation had been moved into a final state when its call read the operation. -/
inductive Label where
  | step
  | firstView (ended : ℕ)

abbrev Program := Proc State Label Unit

/-- `markFirstView`: `UPDATE ... WHERE viewed_at IS NULL`. -/
def State.markFirstView (viewedAt : ℕ) (expiresAt : ℤ) (config : Option Value) (s : State) :
    State :=
  match s.row with
  | none => s
  | some row =>
    if row.viewedAt = none then
      { s with
        row := some { row with viewedAt := some viewedAt, expiresAt, config }
        views := s.views + 1 }
    else s

/-- `transitionIfForward`: `UPDATE ... WHERE state IN (fromStates)`. -/
def State.transitionIfForward (fromStates : List OperationState) (state : OperationState)
    (expiresAt : ℤ) (config : Option Value) (s : State) : State :=
  match s.row with
  | none => s
  | some row =>
    if row.state ∈ fromStates then
      { s with
        row := some { row with state, expiresAt, config }
        ended := if state.isTerminal then s.ended + 1 else s.ended }
    else s

/-- The `DELETE` of the purge. -/
def State.delete (s : State) : State := { s with row := none }

/-! ## Calls -/

/-- A read that may fail, and then ends the program. -/
def read (k : State → Program) : Program := .statement .step true id () k

/-- A write with a date; the database refuses an invalid one. -/
def withDate (date : Option ℤ) (write : ℤ → Program) : Program := date.elim (.ret ()) write

def applyViewed (operation : OperationRow) (ended now : ℕ) (config : Option Value) : Program :=
  -- the tenant is read first
  read fun _ =>
    withDate (computeOperationExpiresAt operation.state operation.createdAt (some now) config)
      fun expiresAt =>
        .statement (.firstView ended) true (State.markFirstView now expiresAt config) () fun s =>
          -- a row that was stamped by another call is read again
          if s.row.any fun row => row.viewedAt = none then .ret () else read fun _ => .ret ()

/-- A poll: `findByIdForTenant` and the begin of `prepareForRead`. -/
def poll (now : ℕ) (config : Option Value) : Program :=
  read fun s => match s.row with
    | none => .ret ()
    | some operation =>
      if operation.state.isTerminal && operation.viewedAt.isNone then
        applyViewed operation s.ended now config
      else .ret ()

def markViewed (now : ℕ) (config : Option Value) : Program :=
  read fun s => match s.row with
    | none => .ret ()
    | some operation =>
      if operation.viewedAt.isSome then .ret () else applyViewed operation s.ended now config

def transitionStateIfForward (state : OperationState) (fromStates : List OperationState)
    (config : Option Value) : Program :=
  read fun s => match s.row with
    | none => .ret ()
    | some operation =>
      -- the tenant is read, then the row is written
      read fun _ =>
        withDate (computeOperationExpiresAt state operation.createdAt operation.viewedAt config)
          fun expiresAt =>
            .statement .step true (State.transitionIfForward fromStates state expiresAt config) ()
              fun s => if s.row.any fun row => row.state ∈ fromStates then read fun _ => .ret ()
                else .ret ()

/-- `purgeExpiredBatch`: the statement chooses the row before it obtains its lock. -/
def purgeExpiredBatch (now : ℕ) : Program :=
  read fun s =>
    if s.row.any fun row => row.expiresAt < (now : ℤ) then
      .statement .step true State.delete () fun _ => .ret ()
    else .ret ()

inductive Request where
  | poll (now : ℕ) (config : Option Value)
  | markViewed (now : ℕ) (config : Option Value)
  | transition (state : OperationState) (fromStates : List OperationState) (config : Option Value)
  | purge (now : ℕ)

/-- The calls that read, move and purge the operation. -/
def service : System State Label Request where
  prog r _ := match r with
    | .poll now config => OperationViews.poll now config
    | .markViewed now config => OperationViews.markViewed now config
    | .transition state fromStates config => transitionStateIfForward state fromStates config
    | .purge now => purgeExpiredBatch now
  crash := none

/-! ## What holds of the row -/

/-- The expiry of the row is that of the state it is in, under the configuration that the writer of
the expiry has read, from the first view or as if there had been none. -/
def Current (row : OperationRow) : Prop :=
  ∃ viewedAt, (viewedAt = none ∨ viewedAt = row.viewedAt) ∧
    computeOperationExpiresAt row.state row.createdAt viewedAt row.config = some row.expiresAt

/-- The schedule: if the write of a first view matches the row, the operation was not moved into a
final state since its call read it. -/
def undisturbed : Label → State → Bool
  | .step, _ => true
  | .firstView ended, s => (s.row.all fun row => row.viewedAt.isSome) || s.ended = ended

/-- What holds between any two statements of an operation created at `createdAt`; the last clause
only under the condition on the schedule. -/
structure Invariant (strict : Prop) (createdAt : ℕ) (s : State) : Prop where
  created : ∀ row, s.row = some row → row.createdAt = createdAt
  once : s.views ≤ 1
  unviewed : ∀ row, s.row = some row → row.viewedAt = none → s.views = 0
  terminal : strict → ∀ row, s.row = some row → row.state.isTerminal = true → Current row

/-- What time does to the row: it keeps its first view, and enters a final state by a transition
that is counted. -/
structure Later (s s' : State) : Prop where
  ended : s.ended ≤ s'.ended
  row : ∀ row', s'.row = some row' → ∃ row, s.row = some row ∧
    (row.viewedAt = none ∨ row'.viewedAt = row.viewedAt) ∧
      (s'.ended = s.ended → row'.state.isTerminal = true → row.state = row'.state)

theorem Later.refl (s : State) : Later s s :=
  ⟨le_rfl, fun row hrow => ⟨row, hrow, .inr rfl, fun _ _ => rfl⟩⟩

/-- Later states compose. -/
theorem Later.trans {s s' s'' : State} (h : Later s s') (h' : Later s' s'') : Later s s'' := by
  refine ⟨h.ended.trans h'.ended, fun row'' hrow'' => ?_⟩
  obtain ⟨row', hrow', hviewed', hstate'⟩ := h'.row row'' hrow''
  obtain ⟨row, hrow, hviewed, hstate⟩ := h.row row' hrow'
  refine ⟨row, hrow, ?_, fun heq hterminal => ?_⟩
  · rcases hviewed with hnone | hsame
    · exact .inl hnone
    · rw [← hsame]
      exact hviewed'
  · have hle := h.ended
    have hle' := h'.ended
    have heq' := hstate' (by omega) hterminal
    rw [← heq'] at hterminal ⊢
    exact hstate (by omega) hterminal

/-! ### Statements -/

section Proofs

variable {strict : Prop} {C : Label → State → Prop} {createdAt : ℕ} {s s₀ : State}
  {config : Option Value} {expiresAt : ℤ} {operation : OperationRow}

/-- A first view moves on. -/
theorem later_markFirstView (viewedAt : ℕ) :
    Later s (s.markFirstView viewedAt expiresAt config) := by
  unfold State.markFirstView
  cases hrow : s.row with
  | none => exact .refl s
  | some row =>
    dsimp only
    split_ifs with hnone
    · refine ⟨le_rfl, fun row' hrow' => ⟨row, hrow, .inl hnone, fun _ _ => ?_⟩⟩
      obtain rfl := Option.some.inj hrow'
      rfl
    · exact .refl s

/-- A forward transition moves on. -/
theorem later_transitionIfForward (fromStates : List OperationState) (state : OperationState) :
    Later s (s.transitionIfForward fromStates state expiresAt config) := by
  unfold State.transitionIfForward
  cases hrow : s.row with
  | none => exact .refl s
  | some row =>
    dsimp only
    split_ifs with hmem hterminal
    · refine ⟨Nat.le_succ _, fun row' hrow' => ⟨row, hrow, .inr ?_, fun heq => ?_⟩⟩
      · obtain rfl := Option.some.inj hrow'
        rfl
      · exact absurd heq (Nat.succ_ne_self _)
    · refine ⟨le_rfl, fun row' hrow' => ⟨row, hrow, .inr ?_, fun _ hterminal' => ?_⟩⟩
      all_goals obtain rfl := Option.some.inj hrow'
      · rfl
      · exact absurd hterminal' hterminal
    · exact .refl s

/-- The write of a first view, by a call that has computed the expiry from what it has read. -/
theorem Invariant.markFirstView (h : Invariant strict createdAt s) (hread : Later s₀ s)
    (hoperation : s₀.row = some operation) (hcreated : operation.createdAt = createdAt)
    {viewedAt : ℕ} (hexpires : computeOperationExpiresAt operation.state operation.createdAt
      (some viewedAt) config = some expiresAt)
    (hschedule : strict → undisturbed (.firstView s₀.ended) s = true) :
    Invariant strict createdAt (s.markFirstView viewedAt expiresAt config) := by
  unfold State.markFirstView
  cases hrow : s.row with
  | none => exact h
  | some row =>
    dsimp only
    split_ifs with hnone
    · refine ⟨fun row' hrow' => ?_, ?_, fun row' hrow' hnone' => ?_,
        fun hstrict row' hrow' hterminal => ?_⟩
      · obtain rfl := Option.some.inj hrow'
        exact h.created row hrow
      · have hzero := h.unviewed row hrow hnone
        simp [hzero]
      · obtain rfl := Option.some.inj hrow'
        simp at hnone'
      · obtain rfl := Option.some.inj hrow'
        -- the row has ended, and before the call read it: so the call has read the state it is in
        have hended : s.ended = s₀.ended := by
          simpa [undisturbed, hrow, hnone] using hschedule hstrict
        obtain ⟨row₀, hrow₀, -, hstate⟩ := hread.row row hrow
        obtain rfl := Option.mem_unique hrow₀ hoperation
        refine ⟨some viewedAt, .inr rfl, ?_⟩
        dsimp only
        rw [← hstate hended hterminal, h.created row hrow, ← hcreated]
        exact hexpires
    · exact h

/-- A guarded transition writes the expiry of the state that it writes. -/
theorem Invariant.transitionIfForward (h : Invariant strict createdAt s) (hread : Later s₀ s)
    (hoperation : s₀.row = some operation) (hcreated : operation.createdAt = createdAt)
    {fromStates : List OperationState} {state : OperationState}
    (hexpires : computeOperationExpiresAt state operation.createdAt operation.viewedAt config =
      some expiresAt) :
    Invariant strict createdAt (s.transitionIfForward fromStates state expiresAt config) := by
  unfold State.transitionIfForward
  cases hrow : s.row with
  | none => exact h
  | some row =>
    dsimp only
    by_cases hmem : row.state ∈ fromStates
    · rw [if_pos hmem]
      refine ⟨fun row' hrow' => ?_, h.once, fun row' hrow' hnone => ?_, fun _ row' hrow' _ => ?_⟩
      all_goals obtain rfl := Option.some.inj hrow'
      · exact h.created row hrow
      · exact h.unviewed row hrow hnone
      · obtain ⟨row₀, hrow₀, hviewed, -⟩ := hread.row row hrow
        obtain rfl := Option.mem_unique hrow₀ hoperation
        refine ⟨row₀.viewedAt, ?_, ?_⟩
        · rcases hviewed with hnone | hsame
          · exact .inl hnone
          · exact .inr hsame.symm
        · dsimp only
          rw [h.created row hrow, ← hcreated]
          exact hexpires
    · rw [if_neg hmem]
      exact h

/-! ### Programs -/

/-- The invariant, and that the row only gets later. -/
def contract (strict : Prop) (createdAt : ℕ) : Contract State where
  inv := Invariant strict createdAt
  rely _ := Later
  start _ _ := True

/-- What was read stays in the past. -/
theorem stable_later (i : ℕ) (s₀ : State) : (contract strict createdAt).Stable i (Later s₀) :=
  fun _ _ _ _ h hrely => h.trans hrely

/-- A program of process `i` that keeps the contract after the state `s₀` was read. -/
abbrev Keeps (strict : Prop) (createdAt : ℕ) (C : Label → State → Prop) (i : ℕ) (p : Program)
    (s₀ : State) : Prop :=
  (contract strict createdAt).Ok C i (fun _ _ => True) p (Later s₀)

variable {i : ℕ}

theorem keeps_ret : Keeps strict createdAt C i (.ret ()) s₀ := fun _ _ _ => trivial

/-- A read changes nothing, and what it finds is later than what was read before. -/
theorem ok_read {P : State → Prop} {k : State → Program}
    (hk : ∀ s, Invariant strict createdAt s → P s → Keeps strict createdAt C i (k s) s) :
    (contract strict createdAt).Ok C i (fun _ _ => True) (read k) P :=
  .statement (fun _ _ _ _ => trivial) fun s hs hP _ =>
    ⟨hs, fun _ _ => .refl s, Later s, .refl s, stable_later i s, hk s hs hP⟩

/-- A read after which the program still goes by what it has read before. -/
theorem keeps_read {k : State → Program} (hk : ∀ s, Keeps strict createdAt C i (k s) s₀) :
    Keeps strict createdAt C i (read k) s₀ :=
  .statement (fun _ _ _ _ => trivial) fun s hs hP _ =>
    ⟨hs, fun _ _ => .refl s, Later s₀, hP, stable_later i s₀, hk s⟩

theorem keeps_withDate {date : Option ℤ} {write : ℤ → Program}
    (h : ∀ d, date = some d → Keeps strict createdAt C i (write d) s₀) :
    Keeps strict createdAt C i (withDate date write) s₀ := by
  cases date with
  | none => exact keeps_ret
  | some d => exact h d rfl

/-- A write that keeps the invariant. -/
theorem keeps_write {l : Label} {f : State → State} {k : State → Program}
    (hlater : ∀ s, Later s (f s))
    (hf : ∀ s, Invariant strict createdAt s → Later s₀ s → C l s →
      Invariant strict createdAt (f s))
    (hk : ∀ s, Keeps strict createdAt C i (k s) s₀) :
    Keeps strict createdAt C i (.statement l true f () k) s₀ :=
  .statement (fun _ _ _ _ => trivial) fun s hs hP hl =>
    ⟨hf s hs hP hl, fun _ _ => hlater s, Later s₀, hP.trans (hlater s), stable_later i s₀, hk s⟩

/-- Applying a view keeps the invariant. -/
theorem applyViewed_keeps (hC : strict → ∀ l s, C l s → undisturbed l s = true)
    (hoperation : s₀.row = some operation) (hcreated : operation.createdAt = createdAt) (now : ℕ)
    (config : Option Value) :
    Keeps strict createdAt C i (applyViewed operation s₀.ended now config) s₀ := by
  refine keeps_read fun _ => keeps_withDate fun expiresAt hexpires => ?_
  refine keeps_write (fun _ => later_markFirstView now) (fun s hs hP hl => ?_) fun s => ?_
  · exact hs.markFirstView hP hoperation hcreated hexpires fun hstrict => hC hstrict _ _ hl
  · split_ifs
    · exact keeps_ret
    · exact keeps_read fun _ => keeps_ret

/-- Every call keeps the contract. -/
theorem service_keeps (hC : strict → ∀ l s, C l s → undisturbed l s = true) (r : Request) :
    (contract strict createdAt).Ok C i (fun _ _ => True) (service.prog r i) fun _ => True := by
  cases r with
  | poll now config =>
    refine ok_read fun s hs _ => ?_
    cases hrow : s.row with
    | none => exact keeps_ret
    | some operation =>
      dsimp only
      split_ifs
      · exact applyViewed_keeps hC hrow (hs.created operation hrow) now config
      · exact keeps_ret
  | markViewed now config =>
    refine ok_read fun s hs _ => ?_
    cases hrow : s.row with
    | none => exact keeps_ret
    | some operation =>
      dsimp only
      split_ifs
      · exact keeps_ret
      · exact applyViewed_keeps hC hrow (hs.created operation hrow) now config
  | transition state fromStates config =>
    refine ok_read fun s₀ hs₀ _ => ?_
    cases hrow : s₀.row with
    | none => exact keeps_ret
    | some operation =>
      refine keeps_read fun _ => keeps_withDate fun expiresAt hexpires => ?_
      refine keeps_write (fun _ => later_transitionIfForward fromStates state)
        (fun s hs hP _ => ?_) fun s => ?_
      · exact hs.transitionIfForward hP hrow (hs₀.created operation hrow) hexpires
      · split_ifs
        · exact keeps_read fun _ => keeps_ret
        · exact keeps_ret
  | purge now =>
    refine ok_read fun s _ _ => ?_
    split_ifs
    · refine keeps_write (fun s => ⟨le_rfl, fun row hrow => by simp [State.delete] at hrow⟩)
        (fun s hs _ _ => ?_) fun _ => keeps_ret
      exact ⟨by simp [State.delete], hs.once, by simp [State.delete], by simp [State.delete]⟩
    · exact keeps_ret

/-- A created operation meets the invariant. -/
theorem created_invariant : Invariant strict createdAt (State.created createdAt config) := by
  have hrow : ∀ row, (State.created createdAt config).row = some row →
      row.createdAt = createdAt ∧ row.state = .pending := by
    intro row hrow
    obtain ⟨expiresAt, -, rfl⟩ := Option.map_eq_some_iff.mp hrow
    exact ⟨rfl, rfl⟩
  refine ⟨fun row h => (hrow row h).1, Nat.zero_le _, fun _ _ _ => rfl,
    fun _ row h hterminal => ?_⟩
  rw [(hrow row h).2] at hterminal
  exact absurd hterminal (by decide)

/-- The invariant holds in every state that is reached. -/
theorem invariant_of_reach (hC : strict → ∀ l s, C l s → undisturbed l s = true)
    {c : Config State Label} (hc : Reach service C (State.created createdAt config) c) :
    Invariant strict createdAt c.state := by
  have hfollows : Contract.Follows service (contract strict createdAt) C :=
    ⟨fun _ => .const True, fun r _ => service_keeps hC r, fun g hg => by simp [service] at hg⟩
  exact (Contract.sound hfollows created_invariant (fun _ => trivial) hc).inv

end Proofs

/-! ### Main results -/

/-- **The first view is written at most once**, in every run. -/
theorem first_view_once {createdAt : ℕ} {config : Option Value} {c : Config State Label}
    (hc : Reach service Always (State.created createdAt config) c) : c.state.views ≤ 1 := by
  have hinv : Invariant False createdAt c.state := invariant_of_reach False.elim hc
  exact hinv.once

/-- **The expiry of an operation that has ended** is that of the state it is in, in every run in
which no transition into a final state falls between the read and the write of a first view. -/
theorem terminal_expiry_current (createdAt : ℕ) (config : Option Value) (c : Config State Label)
    (hc : Reach service (fun l s => undisturbed l s = true) (State.created createdAt config) c) :
    c.state.views ≤ 1 ∧ ∀ row, c.state.row = some row → row.state.isTerminal = true →
      Current row := by
  have hinv : Invariant True createdAt c.state := invariant_of_reach (fun _ _ _ h => h) hc
  exact ⟨hinv.once, hinv.terminal trivial⟩

/-! ## Views that cross a transition -/

/-- A call reads the pending operation and stamps it after a worker has moved it to `state`; then
a worker completes it. -/
def crossedRun (state : OperationState) : List (Move Request) :=
  [.spawn (.markViewed 5 none), .run 0, .run 0,
    .spawn (.transition state (operationStatesBelow state) none), .run 1, .run 1, .run 1, .run 0,
    .spawn (.transition .completed (operationStatesBelow .completed) none), .run 2, .run 2, .run 2]

def State.dates (s : State) : Option (OperationState × Option ℕ × ℤ) :=
  s.row.map fun row => (row.state, row.viewedAt, row.expiresAt)

/-- The first view of an operation in progress, which is completed afterwards. -/
theorem terminal_expiry_current_processing :
    ∃ c, Reach service (fun l s => undisturbed l s = true) (State.created 0 none) c ∧
      c.state.dates = some (.completed, some 5, 3600005) ∧
      ∀ row, c.state.row = some row → row.state.isTerminal = true → Current row := by
  have hresult : (service.execIf undisturbed ⟨State.created 0 none, []⟩
      (crossedRun .processing)).map (fun c => c.state.dates) =
        some (some (.completed, some 5, 3600005)) := by
    decide +kernel
  obtain ⟨c, hexec, hdates⟩ := Option.map_eq_some_iff.mp hresult
  have hreach := reach_execIf hexec
  exact ⟨c, hreach, hdates, (terminal_expiry_current 0 none c hreach).2⟩

/-- A view read before the operation was completed and written after it: the completed operation
expires as if it were still pending. -/
theorem stale_expiry_after_completion :
    ∃ c, Reach service Always (State.created 0 none) c ∧
      ∃ row, c.state.row = some row ∧ row.state = .completed ∧ ¬Current row ∧
        computeOperationExpiresAt .pending row.createdAt row.viewedAt row.config =
          some row.expiresAt := by
  have hresult : (service.exec ⟨State.created 0 none, []⟩ (crossedRun .completed)).any
      (fun c => c.state.row.any fun row => row.createdAt = 0 ∧ row.state = .completed ∧
        row.viewedAt = some 5 ∧ row.expiresAt = 86400000 ∧ row.config.isNone) = true := by
    decide +kernel
  obtain ⟨c, hexec, hc⟩ := Option.any_eq_true _ _ |>.mp hresult
  obtain ⟨row, hrow, hcolumns⟩ := Option.any_eq_true _ _ |>.mp hc
  obtain ⟨hcreated, hstate, hviewed, hexpires, hconfig⟩ := of_decide_eq_true hcolumns
  rw [Option.isNone_iff_eq_none] at hconfig
  refine ⟨c, reach_exec hexec, row, hrow, hstate, ?_, ?_⟩
  · rintro ⟨viewedAt, hviewedAt, hcurrent⟩
    rw [hstate, hcreated, hconfig, hexpires] at hcurrent
    rw [hviewed] at hviewedAt
    rcases hviewedAt with rfl | rfl
    · exact absurd hcurrent (by decide +kernel)
    · exact absurd hcurrent (by decide +kernel)
  · rw [hcreated, hviewed, hexpires, hconfig]
    decide +kernel

/-- Two calls that have both read the operation before either stamps it. -/
theorem first_view_once_race :
    ∃ c, Reach service Always (State.created 0 none) c ∧ c.state.views = 1 ∧
      c.state.views ≤ 1 := by
  have hresult : (service.exec ⟨State.created 0 none, []⟩
      [.spawn (.markViewed 5 none), .spawn (.markViewed 6 none), .run 0, .run 1, .run 0, .run 1,
        .run 0, .run 1]).map (fun c => c.state.views) = some 1 := by
    decide +kernel
  obtain ⟨c, hexec, hviews⟩ := Option.map_eq_some_iff.mp hresult
  have hreach := reach_exec hexec
  exact ⟨c, hreach, hviews, first_view_once hreach⟩

end DigitalTrust.OperationViews
