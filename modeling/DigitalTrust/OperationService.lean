/-
# Operations

The reads and writes of `operation/operation.repository.ts` and the state changes of
`operation/operation.service.ts`, as programs of process `i`.  A function that takes
the transaction's `EntityManager` runs inside the transaction of process `i`; one
that does not reads what is committed.

Beside each function stands what a transaction that calls it can count on: the row it
has locked, the row it has written, and the guard that the written row met.
-/
import DigitalTrust.StoreRules
import DigitalTrust.StoreAlone
import DigitalTrust.Schema
import DigitalTrust.OperationExpiry

namespace DigitalTrust

open ReadCommitted

/-- JavaScript's `if (value)` for an optional string. -/
def truthy (value : Option String) : Bool := value.any fun s => s ≠ ""

/-- An answer of the agent, or the error raised in its place. -/
def answer {α : Type} (a : Except Failure α) : Service α :=
  match a with
  | .ok v => pure v
  | .error e => raise e

/-! ## Repository -/

/-- `findById` inside the transaction. -/
def findOperationIn (i : ℕ) (id : Uuid) : Service (Option Operation) :=
  selectIn .step i fun d => d.row (.operation id)

/-- `findById` without a manager. -/
def findOperation (id : Uuid) : Service (Option Operation) :=
  select .step fun d => d.row (.operation id)

/-- The row, if it belongs to the tenant. -/
def forTenant (tenantId : Uuid) (op : Option Operation) : Option Operation :=
  op.filter fun op => op.tenantId = tenantId

def findOperationForTenant (id tenantId : Uuid) : Service (Option Operation) :=
  select .step fun d => forTenant tenantId (d.row (.operation id))

/-- `findByIdForTenant` inside the transaction. -/
def findOperationForTenantIn (i : ℕ) (id tenantId : Uuid) : Service (Option Operation) :=
  selectIn .step i fun d => forTenant tenantId (d.row (.operation id))

/-- The condition of `findByExternalIdForTenant`. -/
def Operation.inFlightFor (tenantId : Uuid) (externalId : String) (types : List OperationType)
    (op : Operation) : Bool :=
  op.tenantId = tenantId && op.externalId = some externalId && op.type ∈ types && op.inFlight

/-- The condition of `findLatestByExternalIdAndTypeForTenant`. -/
def Operation.matches (tenantId : Uuid) (externalId : String) (types : List OperationType)
    (op : Operation) : Bool :=
  op.tenantId = tenantId && op.externalId = some externalId && op.type ∈ types

/-- `findByExternalIdForTenant`: the most recent Operation in flight. -/
def findByExternalIdForTenant (tenantId : Uuid) (externalId : String)
    (types : List OperationType) : Service (Option (Uuid × Operation)) :=
  select (.inFlightLookup tenantId externalId types) fun d =>
    latest (operations (Operation.inFlightFor tenantId externalId types) d)

def existsByExternalIdForTenant (tenantId : Uuid) (externalId : String)
    (types : List OperationType) : Service Bool :=
  select .step fun d => !(operations (Operation.matches tenantId externalId types) d).isEmpty

/-- `findLatestByExternalIdAndTypeForTenant`: the most recent Operation in any state. -/
def findLatestByExternalIdAndTypeForTenant (tenantId : Uuid) (externalId : String)
    (types : List OperationType) : Service (Option (Uuid × Operation)) :=
  select (.winnerLookup tenantId externalId types) fun d =>
    latest (operations (Operation.matches tenantId externalId types) d)

/-- What a guarded write sets: columns whose value is missing keep theirs. -/
structure OperationPatch where
  state : Option OperationState
  result : Option (Option OperationResult)
  externalId : Option (Option String)

/-- The row after a guarded write. -/
def OperationPatch.apply (patch : OperationPatch) (op : Operation) : Operation :=
  { op with
    state := patch.state.getD op.state
    result := patch.result.getD op.result
    externalId := patch.externalId.getD op.externalId }

/-- `transitionIfForward`: `UPDATE ... WHERE id AND tenant_id AND state IN (fromStates)`. -/
def transitionIfForward (l : Label) (i : ℕ) (id tenantId : Uuid)
    (fromStates : List OperationState) (patch : OperationPatch) : Service Bool :=
  update index l i (.operation id) (fun op => op.tenantId = tenantId && op.state ∈ fromStates)
    patch.apply

/-- `lockBatchParent`: `SELECT ... FOR UPDATE` of the parent; nothing is read from it. -/
def lockBatchParent (i : ℕ) (batchId tenantId : Uuid) : Service Unit := do
  let _ ← selectForUpdate (E := Event) (ε := Failure) Label.step i
    (fun id => Key.operation id) fun d =>
      match forTenant tenantId (d.row (.operation batchId)) with
      | some _ => some batchId
      | none => none
  pure ()

/-- How many children of a batch are in each state. -/
structure BatchStateCounts where
  pending : ℕ
  processing : ℕ
  completed : ℕ
  failed : ℕ

def BatchStateCounts.finalState (counts : BatchStateCounts) : OperationState :=
  if 0 < counts.failed then .failed else .completed

def childrenIn (batchId tenantId : Uuid) (state : OperationState) (op : Operation) : Bool :=
  op.batchId = some batchId && op.tenantId = tenantId && op.state = state

/-- The counts that a snapshot gives. -/
def countBatch (batchId tenantId : Uuid) (d : Snapshot Key Row) : BatchStateCounts where
  pending := (operations (childrenIn batchId tenantId .pending) d).length
  processing := (operations (childrenIn batchId tenantId .processing) d).length
  completed := (operations (childrenIn batchId tenantId .completed) d).length
  failed := (operations (childrenIn batchId tenantId .failed) d).length

/-- `countByBatchGroupedByState` inside the transaction. -/
def countByBatchGroupedByState (i : ℕ) (batchId tenantId : Uuid) : Service BatchStateCounts :=
  selectIn .step i (countBatch batchId tenantId)

def claimBatchSettlement (i : ℕ) (batchId tenantId : Uuid) (state : OperationState) :
    Service Bool :=
  update index .step i (.operation batchId)
    (fun op => op.tenantId = tenantId && op.state = .processing) fun op => { op with state }

/-! ## Saving an entity -/

/-- One column of a `save`: it is written when the entity's value differs from the row that
`save` has read, and keeps its current value otherwise. -/
def saveColumn {α : Type} [DecidableEq α] (entity read current : α) : α :=
  if entity = read then current else entity

theorem saveColumn_self {α : Type} [DecidableEq α] (entity read : α) :
    saveColumn entity read read = entity := by
  unfold saveColumn
  split_ifs with h
  · exact h.symm
  · rfl

/-- The `UPDATE` of a `save`: the columns in which the entity differs from the row read. -/
def Operation.save (entity read current : Operation) : Operation where
  tenantId := saveColumn entity.tenantId read.tenantId current.tenantId
  exchangeId := saveColumn entity.exchangeId read.exchangeId current.exchangeId
  batchId := saveColumn entity.batchId read.batchId current.batchId
  type := saveColumn entity.type read.type current.type
  state := saveColumn entity.state read.state current.state
  result := saveColumn entity.result read.result current.result
  externalId := saveColumn entity.externalId read.externalId current.externalId
  createdAt := saveColumn entity.createdAt read.createdAt current.createdAt
  viewedAt := saveColumn entity.viewedAt read.viewedAt current.viewedAt

/-- A row that has not changed since it was read is replaced by the entity. -/
theorem Operation.save_self (entity read : Operation) : entity.save read read = entity := by
  simp [Operation.save, saveColumn_self]

/-- `manager.save(entity)`. -/
def saveOperation (l : Label) (i : ℕ) (id : Uuid) (entity : Operation) : Service Unit :=
  saveRow index .step l i (.operation id) entity entity.save

/-! ## Service -/

/-- `findById` of the tenant service, which does not find a deleted tenant. -/
def findTenant (id : Uuid) : Service TenantRow := do
  let tenant ← select .step fun d => (d.row (.tenant id)).filter TenantRow.present
  match tenant with
  | none => raise (.notFound "Tenant not found")
  | some tenant => pure tenant

/-- The expiry of an Operation in a state, if it is a valid date. -/
def Operation.expiresAt (op : Operation) (tenant : TenantRow) (state : OperationState) : Option ℤ :=
  OperationExpiry.computeOperationExpiresAt state op.createdAt op.viewedAt tenant.config

/-- The error with which the database refuses a statement that writes an invalid date. -/
def invalidDate : Failure := .other "invalid input syntax for type timestamp with time zone"

/-- The expiry of an Operation in a state, from its tenant's configuration.  The column is not read
here; an invalid date fails the statement that writes it. -/
def computeExpiresAt (op : Operation) (state : OperationState) : Service ℤ := do
  let tenant ← findTenant op.tenantId
  match op.expiresAt tenant state with
  | none => raise invalidDate
  | some expiresAt => pure expiresAt

/-- What `createOperation` is given. -/
structure CreateOperationInput where
  tenantId : Uuid
  exchangeId : Option Uuid
  batchId : Option Uuid
  type : OperationType
  externalId : Option String

/-- The row that `createOperation` inserts. -/
def CreateOperationInput.row (input : CreateOperationInput) (createdAt : ℕ) : Operation where
  tenantId := input.tenantId
  exchangeId := input.exchangeId
  batchId := input.batchId
  type := input.type
  state := .pending
  result := none
  externalId := input.externalId
  createdAt := createdAt
  viewedAt := none

/-- `createOperation` inside the transaction; `id` and `createdAt` are what the database
generates. -/
def createOperation (l : Label) (i : ℕ) (id : Uuid) (createdAt : ℕ)
    (input : CreateOperationInput) : Service Operation := do
  let _ ← computeExpiresAt (input.row createdAt) .pending
  insert index l i (.operation id) (input.row createdAt)
  pure (input.row createdAt)

/-- `transitionStateIfForward` inside the transaction. -/
def transitionStateIfForward (l : Label) (i : ℕ) (id : Uuid) (fromStates : List OperationState)
    (patch : OperationPatch) : Service (Option Operation) := do
  let operation ← findOperationIn i id
  match operation with
  | none => raise (.notFound "Operation not found")
  | some operation =>
    -- an undefined state has the expiry of an Operation in progress
    let _ ← computeExpiresAt operation (patch.state.getD .processing)
    let won ← transitionIfForward l i id operation.tenantId fromStates patch
    if won then
      let updated ← findOperationIn i id
      match updated with
      | none => raise (.notFound "Operation not found")
      | some updated => pure (some updated)
    else pure none

/-- The entity that `transitionState` saves. -/
def Operation.moved (op : Operation) (state : OperationState) (result : Option OperationResult) :
    Operation :=
  { op with state, result := if result.isSome then result else op.result }

/-- `transitionState`, given how it reads and saves the row: the current state is not looked at. -/
def transitionStateBy (find : Service (Option Operation)) (save : Operation → Service Unit)
    (state : OperationState) (result : Option OperationResult) : Service Unit := do
  let operation ← find
  match operation with
  | none => raise (.notFound "Operation not found")
  | some operation =>
    let _ ← computeExpiresAt operation state
    save (operation.moved state result)

/-- `transitionState` with a manager and a tenant: inside the transaction. -/
def transitionState (l : Label) (i : ℕ) (id tenantId : Uuid) :
    OperationState → Option OperationResult → Service Unit :=
  transitionStateBy (findOperationForTenantIn i id tenantId) (saveOperation l i id)

/-- `transitionState` with a manager but no tenant: the row is read outside the transaction. -/
def transitionStateUnscoped (l : Label) (i : ℕ) (id : Uuid) :
    OperationState → Option OperationResult → Service Unit :=
  transitionStateBy (findOperation id) (saveOperation l i id)

/-! ## What a transaction can count on -/

section Specs

variable {κ : StoreContract Key Row Event} {C : Label → Db → Prop} {i : ℕ} {φ : κ.Assert i}
  {χ : κ.TxAssert i} {m : Mine Key Row Event} {l : Label} {id tenantId : Uuid}

theorem answer_keeps {α : Type} {a : Except Failure α} : Keeps κ index C i φ (answer a) := by
  cases a with
  | ok v => exact Keeps.pure
  | error e => exact Keeps.throw

/-- Computing the expiry keeps any contract. -/
theorem computeExpiresAt_keeps {op : Operation} {state : OperationState} :
    Keeps κ index C i φ (computeExpiresAt op state) := by
  refine Keeps.bind (Keeps.bind Keeps.select fun found => ?_) fun tenant => ?_
  · cases found with
    | none => exact Keeps.throw
    | some tenant => exact Keeps.pure
  · split
    · exact Keeps.throw
    · exact Keeps.pure

variable {fromStates : List OperationState}

/-- Computing the expiry changes nothing. -/
theorem body_computeExpiresAt {op : Operation} {state : OperationState}
    {Q : ℤ → Mine Key Row Event → Prop} (h : ∀ expiresAt, Q expiresAt m) :
    Body κ index C i χ m (computeExpiresAt op state) Q := by
  refine Body.seq (Body.seq (Body.select fun s _ => ?_))
  cases (s.now.row (.tenant op.tenantId)).filter TenantRow.present with
  | none => exact Body.throw
  | some tenant =>
    refine Body.pure ?_
    split
    · exact Body.throw
    · exact Body.pure (h _)

/-- A guarded transition that wins has locked the row in one of `fromStates` and written the
patched row; one that loses has changed nothing. -/
theorem body_transitionStateIfForward {patch : OperationPatch}
    {Q : Option Operation → Mine Key Row Event → Prop}
    (hlost : ∀ s₀ op₀ s, At κ index C i χ m .step s₀ →
      (s₀.view i).row (.operation id) = some op₀ → At κ index C i χ m l s →
      (∀ op, (s.view i).row (.operation id) = some op → op.tenantId = op₀.tenantId →
        op.state ∉ fromStates) → Q none m)
    (hwon : ∀ s op, At κ index C i χ m l s → (s.view i).row (.operation id) = some op →
      op.state ∈ fromStates → Q (some (patch.apply op))
        ((m.hold (.operation id) (s.pub.row (.operation id))).write (.operation id)
          (some (patch.apply op)))) :
    Body κ index C i χ m (transitionStateIfForward l i id fromStates patch) Q := by
  refine Body.seq (Body.selectIn fun s₀ hs₀ => ?_)
  cases hop₀ : (s₀.view i).row (.operation id) with
  | none => exact Body.throw
  | some op₀ =>
    refine Body.seq (body_computeExpiresAt fun _ => ?_)
    refine Body.seq (Body.update (fun s hs hno => ?_) fun s op hs hop hp => ?_)
    · refine Body.pure (hlost s₀ op₀ s hs₀ hop₀ hs fun op hop ht hmem => ?_)
      have := hno op hop
      simp [ht, hmem] at this
    · simp only [Bool.and_eq_true, decide_eq_true_eq] at hp
      -- the row is read back from the transaction's own write
      refine Body.seq (Body.selectIn fun s' hs' => ?_)
      rw [show (s'.view i).row (.operation id) = some (patch.apply op) by
        rw [hs'.view]
        simp [Mine.write, Mine.hold, Tx.write]]
      exact Body.pure (hwon s op hs hop hp.2)

/-- A guarded transition of a row that the transaction has itself written, in one of
`fromStates`, wins. -/
theorem body_transitionStateIfForward_written {patch : OperationPatch}
    {Q : Option Operation → Mine Key Row Event → Prop} (op : Operation)
    (hw : m.tx.writes (.operation id) = some (some op)) (hmem : op.state ∈ fromStates)
    (hQ : ∀ s, At κ index C i χ m l s → Q (some (patch.apply op))
      ((m.hold (.operation id) (s.pub.row (.operation id))).write (.operation id)
        (some (patch.apply op)))) :
    Body κ index C i χ m (transitionStateIfForward l i id fromStates patch) Q := by
  have hview : ∀ {l' s}, At κ index C i χ m l' s → (s.view i).row (.operation id) = some op :=
    fun hs => by
      rw [hs.view, hw]
      rfl
  refine body_transitionStateIfForward (fun s₀ op₀ s hs₀ hop₀ hs hlost => ?_)
    fun s op' hs hop' _ => ?_
  · obtain rfl : op = op₀ := Option.some.inj ((hview hs₀).symm.trans hop₀)
    exact absurd hmem (hlost op (hview hs) rfl)
  · obtain rfl : op = op' := Option.some.inj ((hview hs).symm.trans hop')
    exact hQ s hs

/-- The identity of an Operation: the columns that no state change touches. -/
structure Operation.SameIdentity (a b : Operation) : Prop where
  tenantId : b.tenantId = a.tenantId
  exchangeId : b.exchangeId = a.exchangeId
  batchId : b.batchId = a.batchId
  type : b.type = a.type
  createdAt : b.createdAt = a.createdAt
  viewedAt : b.viewedAt = a.viewedAt

theorem Operation.SameIdentity.trans {a b c : Operation} (h : a.SameIdentity b)
    (h' : b.SameIdentity c) : a.SameIdentity c :=
  ⟨h'.tenantId.trans h.tenantId, h'.exchangeId.trans h.exchangeId, h'.batchId.trans h.batchId,
    h'.type.trans h.type, h'.createdAt.trans h.createdAt, h'.viewedAt.trans h.viewedAt⟩

theorem Operation.SameIdentity.refl (op : Operation) : op.SameIdentity op :=
  ⟨rfl, rfl, rfl, rfl, rfl, rfl⟩

theorem Operation.SameIdentity.expiresAt {a b : Operation} (h : a.SameIdentity b)
    (tenant : TenantRow) (state : OperationState) :
    b.expiresAt tenant state = a.expiresAt tenant state := by
  rw [Operation.expiresAt, h.createdAt, h.viewedAt, Operation.expiresAt]

theorem OperationPatch.apply_sameIdentity (patch : OperationPatch) (op : Operation) :
    op.SameIdentity (patch.apply op) := ⟨rfl, rfl, rfl, rfl, rfl, rfl⟩

/-- An Operation that has gone up in rank and is otherwise the same but for its result. -/
structure Operation.Advances (a b : Operation) : Prop extends a.SameIdentity b where
  externalId : b.externalId = a.externalId
  rank : a.state.rank < b.state.rank

theorem Operation.moved_sameIdentity (op : Operation) (state : OperationState)
    (result : Option OperationResult) : op.SameIdentity (op.moved state result) :=
  ⟨rfl, rfl, rfl, rfl, rfl, rfl⟩

variable {W : Changes Key Row} {T : Event → Prop}

/-- A new Operation, where `W` allows it. -/
theorem createOperation_within {createdAt : ℕ} {input : CreateOperationInput}
    (hm : m.Within W T) (hW : W.rel (.operation id) none (some (input.row createdAt))) :
    Body κ index C i χ m (createOperation l i id createdAt input) fun _ m' => m'.Within W T :=
  Body.seq (body_computeExpiresAt fun _ =>
    Body.bind (Body.insert_within hm hW) fun _ _ h => Body.pure h)

/-- A guarded transition changes an Operation's row only as `W` allows. -/
theorem transitionStateIfForward_within {patch : OperationPatch} (hm : m.Within W T)
    (hW : ∀ op, op.state ∈ fromStates → W.rel (.operation id) (some op) (some (patch.apply op))) :
    Body κ index C i χ m (transitionStateIfForward l i id fromStates patch)
      fun _ m' => m'.Within W T :=
  body_transitionStateIfForward (fun _ _ _ _ _ _ _ => hm) fun _ op hs hop hmem =>
    hm.write hs (by rw [hop]; exact hW op hmem)

end Specs

/-! ## A call alone with the database -/

section Alone

variable {i : ℕ} {σ : Solo Key Row Event} {op : Operation} {tenant : TenantRow}
  {state : OperationState}

/-- A tenant that is there and not deleted is found. -/
theorem alone_computeExpiresAt {Q : Except (Exn Failure) ℤ → Solo Key Row Event → Prop}
    (htenant : σ.pub.row (.tenant op.tenantId) = some tenant) (hpresent : tenant.present = true)
    (hvalid : ∀ expiresAt, op.expiresAt tenant state = some expiresAt → Q (.ok expiresAt) σ)
    (hinvalid : op.expiresAt tenant state = none → Q (.error (.thrown invalidDate)) σ) :
    Alone i σ (computeExpiresAt op state) Q := by
  have hfound : (σ.now.row (.tenant op.tenantId)).filter TenantRow.present = some tenant := by
    rw [show σ.now.row (.tenant op.tenantId) = some tenant from htenant, Option.filter_some,
      if_pos hpresent]
  refine Alone.seq (Alone.seq (Alone.select ?_))
  simp only [hfound]
  refine Alone.pure ?_
  dsimp only
  cases hdate : op.expiresAt tenant state with
  | none => exact Alone.throw (hinvalid hdate)
  | some expiresAt => exact Alone.pure (hvalid expiresAt hdate)

end Alone

end DigitalTrust
