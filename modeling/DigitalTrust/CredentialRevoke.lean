/-
# Revoking a credential

`credential-revoke.service.ts`.  `revoke` records the request as an Operation, calls the adapter
outside any transaction, and settles the Operation by what the adapter answers.  A confirmed
revocation moves the Operation and the credential in one transaction, each under its own guard; an
error of that transaction that is no `AdapterError` is not recorded by the handler.
-/
import DigitalTrust.AdapterRegistry
import DigitalTrust.ExchangeRepository

namespace DigitalTrust

open ReadCommitted

/-! ## The service -/

/-- The `revokedAt` of a result: a text of which `new Date` makes a time that the column can hold,
or another text. -/
inductive RevokedAt where
  | date
  | invalid
  deriving DecidableEq

/-- `RevocationResult`, as far as it is looked at. -/
structure RevocationResult where
  revoked : Bool
  revokedAt : Option RevokedAt
  error : Option String

/-- The time of the revocation can be stored: without one, the service takes its own clock. -/
def RevocationResult.dated (result : RevocationResult) : Prop := result.revokedAt ≠ some .invalid

instance (result : RevocationResult) : Decidable result.dated :=
  inferInstanceAs (Decidable (result.revokedAt ≠ some .invalid))

/-- The answers to one call: whether the adapter resolves, and its `revoke`. -/
structure RevokeAgent where
  resolve : Except Failure Unit
  revoke : Except Failure RevocationResult

def revocableFormats : List CredentialDefinitionFormat := [.anoncreds]

/-- The Operation as it is, for a caller that has lost the guard. -/
def currentOperation (operationId : Uuid) : Service Operation := do
  let existing ← findOperation operationId
  match existing with
  | none => raise (.notFound "Operation not found")
  | some existing => pure existing

/-- The Operation fails, and the tenant is notified. -/
def failRevoke (i : ℕ) (tenantId operationId : Uuid) (externalId code message : String) :
    Service Operation :=
  transaction .step i do
    let failed ← transitionStateIfForward .step i operationId (operationStatesBelow .failed)
      ⟨some .failed, some (some (.failure code message)), none⟩
    match failed with
    | none => currentOperation operationId
    | some failed =>
      emit .step i (.dispatch tenantId .revokeFailed (.external externalId))
      pure failed

/-- The Operation completes together with the credential, and the tenant is notified. -/
def completeRevoke (i : ℕ) (tenantId credentialId operationId : Uuid) (externalId : String)
    (result : RevocationResult) : Service Operation :=
  transaction .step i do
    let updated ← transitionStateIfForward .step i operationId (operationStatesBelow .completed)
      ⟨some .completed, some (some .revocation), none⟩
    match updated with
    | none => currentOperation operationId
    | some updated =>
      if result.dated then
        let credentialUpdated ← updateCredentialStateIfForward i credentialId tenantId .revoked
          (credentialStatesBelow .revoked) none
        if credentialUpdated then
          emit .step i (.dispatch tenantId (.domain .credentialRevoked) (.external externalId))
          pure updated
        else raise (.other (s!"Credential '{credentialId}' was not in a revocable state " ++
          s!"despite Operation '{operationId}' winning its own guard"))
      -- an invalid date is refused as a parameter, whether or not a row matches
      else raise invalidDate

/-- The part of `executeRevoke` whose adapter errors are recorded. -/
def attemptRevoke (i : ℕ) (agent : RevokeAgent) (tenantId credentialId operationId : Uuid)
    (externalId : String) : Service Operation := do
  answer agent.resolve
  record .step i (.call (.revoke operationId))
  let result ← answer agent.revoke
  if result.revoked then
    completeRevoke i tenantId credentialId operationId externalId result
  else
    failRevoke i tenantId operationId externalId "REVOCATION_FAILED"
      (result.error.getD "Revocation was not applied")

/-- The handler of `executeRevoke`: only an `AdapterError` settles the Operation. -/
def recordRevokeError (i : ℕ) (tenantId operationId : Uuid) (externalId : String)
    (error : Exn Failure) : Service Operation :=
  match error with
  | .thrown e => match e.adapterError? with
    | some (code, message) => failRevoke i tenantId operationId externalId code message
    | none => throw error
  | _ => throw error

def executeRevoke (i : ℕ) (agent : RevokeAgent) (tenantId credentialId operationId : Uuid)
    (externalId : String) : Service Operation :=
  tryCatch (attemptRevoke i agent tenantId credentialId operationId externalId)
    (recordRevokeError i tenantId operationId externalId)

/-- The creation of the Operation, or the Operation of a concurrent call that came first. -/
def createRevoke (i : ℕ) (tenantId operationId : Uuid) (createdAt : ℕ) (externalId : String) :
    Service (Option (Uuid × Operation)) :=
  tryCatch (do
      let _ ← transaction .step i
        (createOperation (.actionInsert tenantId externalId .credentialRevoke) i operationId
          createdAt ⟨tenantId, none, none, .credentialRevoke, some externalId⟩)
      pure none)
    fun error =>
      if error = .unique then do
        let winner ← findLatestByExternalIdAndTypeForTenant tenantId externalId
          [.credentialRevoke]
        match winner with
        | none => throw error
        | some winner => pure (some winner)
      else throw error

/-- `findByIdForTenant` of the credential repository. -/
def findCredentialForTenant (id tenantId : Uuid) : Service (Option Credential) :=
  select .step fun d => (d.row (.credential id)).filter fun c => c.tenantId = tenantId

/-- `revoke`; the credential's format never changes, and `operationId` and `createdAt` are what
the database generates for a new Operation. -/
def revoke (i : ℕ) (agent : RevokeAgent) (format : CredentialDefinitionFormat)
    (tenantId credentialId operationId : Uuid) (createdAt : ℕ) : Service Operation := do
  let credential ← findCredentialForTenant credentialId tenantId
  match credential with
  | none => raise (.notFound s!"Credential '{credentialId}' was not found")
  | some credential =>
    if format ∉ revocableFormats then
      raise (.badRequest (s!"Credential format '{Connectors.formatValue format}' " ++
        "does not support revocation"))
    else match credential.externalId.filter fun s => s ≠ "" with
      | none => raise (.badRequest
          s!"Credential '{credentialId}' has no adapter-assigned identifier to revoke")
      | some externalId =>
        let inFlight ← findByExternalIdForTenant tenantId externalId [.credentialRevoke]
        match inFlight with
        | some (id, operation) =>
          -- a pending Operation is taken to be one whose call never reached the adapter
          if operation.state = .processing then pure operation
          else executeRevoke i agent tenantId credentialId id externalId
        | none =>
          let winner ← createRevoke i tenantId operationId createdAt externalId
          match winner with
          | none => executeRevoke i agent tenantId credentialId operationId externalId
          | some (id, operation) =>
            if operation.state = .pending then
              executeRevoke i agent tenantId credentialId id externalId
            else pure operation

/-! ## A call alone with the database -/

/-- The row of a new Operation. -/
def revokeOperation (tenantId : Uuid) (createdAt : ℕ) (externalId : String) : Operation :=
  ⟨tenantId, none, none, .credentialRevoke, .pending, none, some externalId, createdAt, none⟩

/-- The unique indexes let an Operation that has ended be. -/
theorem terminal_clashes_eq_false {id : Uuid} {op : Operation} {view : Snapshot Key Row}
    (h : op.state.isTerminal = true) : index.clashes (.operation id) op view = false := by
  refine Index.clashes_eq_false fun k op' _ _ => ?_
  cases k with
  | operation id' => simp [index, Operation.clash, Operation.inFlight, h]
  | _ => rfl

/-- The unique indexes do not look at credentials. -/
theorem credential_clashes_eq_false {id : Uuid} {c : Credential} {view : Snapshot Key Row} :
    index.clashes (.credential id) c view = false := by
  exact Index.clashes_eq_false fun k _ _ _ => by cases k <;> rfl

/-! ### Parts of the call -/

section Alone

variable {i : ℕ} {σ : Solo Key Row Event} {tenantId credentialId operationId : Uuid}
  {externalId : String} {op : Operation} {tenant : TenantRow}

/-- A guarded transition to a final state, of an Operation in one of the states below. -/
theorem alone_transitionStateIfForward {fromStates : List OperationState} {patch : OperationPatch}
    {Q : Except (Exn Failure) (Option Operation) → Solo Key Row Event → Prop} {l : Label}
    (hrow : σ.row (.operation operationId) = some op)
    (htenant : σ.pub.row (.tenant op.tenantId) = some tenant) (hpresent : tenant.present = true)
    (hmem : op.state ∈ fromStates) (hfinal : (patch.apply op).state.isTerminal = true)
    (hinvalid : op.expiresAt tenant (patch.state.getD .processing) = none →
      Q (.error (.thrown invalidDate)) σ)
    (h : (op.expiresAt tenant (patch.state.getD .processing)).isSome →
      Q (.ok (some (patch.apply op)))
        (σ.write (.operation operationId) (some (patch.apply op)))) :
    Alone i σ (transitionStateIfForward l i operationId fromStates patch) Q := by
  have hread : σ.view.row (.operation operationId) = some op := hrow
  refine Alone.seq (Alone.selectIn ?_)
  simp only [hread]
  refine Alone.seq (alone_computeExpiresAt htenant hpresent (fun _ hdate => ?_) hinvalid)
  have h := h (Option.isSome_of_eq_some hdate)
  refine Alone.seq (Alone.update_hit hrow (by simp [hmem]) (terminal_clashes_eq_false hfinal) ?_)
  have hwritten : (σ.write (.operation operationId) (some (patch.apply op))).view.row
      (.operation operationId) = some (patch.apply op) := Solo.row_write_self _
  refine Alone.seq (Alone.selectIn ?_)
  simp only [hwritten]
  exact Alone.pure h

/-- A step of `executeRevoke` that ends the Operation in a state, if the condition holds; otherwise
it raises an error that is no `AdapterError`, and leaves the Operation as it was. -/
def Settles (σ : Solo Key Row Event) (operationId : Uuid) (state : OperationState)
    (condition : Prop) (r : Except (Exn Failure) Operation) (σ' : Solo Key Row Event) : Prop :=
  condition ∧ (∃ v, r = .ok v) ∧
      (∃ op', σ'.pub.row (.operation operationId) = some op' ∧ op'.state = state) ∨
    ¬condition ∧ (∃ e, r = .error (.thrown e) ∧ e.adapterError? = none) ∧
      σ'.pub.row (.operation operationId) = σ.pub.row (.operation operationId)

variable (htenant : σ.pub.row (.tenant op.tenantId) = some tenant)
  (hpresent : tenant.present = true) (hpending : op.state = .pending)
include htenant hpresent hpending

/-- `failRevoke` ends the Operation, if its expiry is a date. -/
theorem alone_failRevoke (hrow : σ.row (.operation operationId) = some op)
    (code message : String) :
    Alone i σ (failRevoke i tenantId operationId externalId code message)
      (Settles σ operationId .failed (op.expiresAt tenant .failed).isSome) := by
  refine Alone.transaction
    (Alone.seq (alone_transitionStateIfForward hrow htenant hpresent ?_ rfl (fun hnone => ?_) ?_))
  · rw [hpending]
    decide
  · have hnone : op.expiresAt tenant .failed = none := hnone
    exact .inr ⟨by simp [hnone], ⟨_, rfl, rfl⟩, rfl⟩
  · intro hsome
    refine Alone.seq (Alone.emit (Alone.pure ?_))
    exact .inl ⟨hsome, ⟨_, rfl⟩, _, Solo.row_write_self _, rfl⟩

/-- `completeRevoke` ends the Operation of an issued credential, if the time can be stored and the
expiry is a date. -/
theorem alone_completeRevoke {credential : Credential} {result : RevocationResult}
    (hrow : σ.row (.operation operationId) = some op)
    (hcredential : σ.row (.credential credentialId) = some credential)
    (hown : credential.tenantId = tenantId) :
    Alone i σ (completeRevoke i tenantId credentialId operationId externalId result)
      (Settles σ operationId .completed
        (result.dated ∧ credential.state ∈ credentialStatesBelow .revoked ∧
          (op.expiresAt tenant .completed).isSome)) := by
  refine Alone.transaction
    (Alone.seq (alone_transitionStateIfForward hrow htenant hpresent ?_ rfl (fun hnone => ?_) ?_))
  · rw [hpending]
    decide
  · have hnone : op.expiresAt tenant .completed = none := hnone
    exact .inr ⟨by simp [hnone], ⟨_, rfl, rfl⟩, rfl⟩
  · intro hsome
    have hcredential' : (σ.write (.operation operationId)
        (some (OperationPatch.apply ⟨some .completed, some (some .revocation), none⟩ op))).row
          (.credential credentialId) = some credential := by
      rw [Solo.row_write_of_ne (by simp), hcredential]
    by_cases hdated : result.dated
    · simp only [if_pos hdated]
      by_cases hissued : credential.state ∈ credentialStatesBelow .revoked
      · refine Alone.seq (Alone.update_hit hcredential' (by simp [hown, hissued])
          credential_clashes_eq_false (Alone.seq (Alone.emit (Alone.pure ?_))))
        refine .inl ⟨⟨hdated, hissued, hsome⟩, ⟨_, rfl⟩,
          OperationPatch.apply ⟨some .completed, some (some .revocation), none⟩ op, ?_, rfl⟩
        rw [Solo.pub_row_commit, Solo.row_push, Solo.row_write_of_ne (by simp)]
        exact Solo.row_write_self _
      · -- the guard of the credential fails, and takes the Operation's write back with it
        refine Alone.seq (Alone.update_miss (fun v hv => ?_) (Alone.throw ?_))
        · obtain rfl : credential = v := Option.mem_unique hcredential' hv
          simp [hissued]
        · exact .inr ⟨fun h => hissued h.2.1, ⟨_, rfl, rfl⟩, rfl⟩
    · simp only [if_neg hdated]
      exact Alone.throw (.inr ⟨fun h => hdated h.1, ⟨_, rfl, rfl⟩, rfl⟩)

/-- Whether what the adapter answers settles the Operation: a failure needs an expiry that is a
date, a confirmation also a time that can be stored and a credential that can be revoked. -/
def RevocationResult.settled (result : RevocationResult) (credential : Credential)
    (expiresAt : OperationState → Option ℤ) : Prop :=
  if result.revoked = true then
    result.dated ∧ credential.state ∈ credentialStatesBelow .revoked ∧
      (expiresAt .completed).isSome
  else (expiresAt .failed).isSome

variable {credential : Credential} (hidle : σ.Idle)
  (hrow : σ.pub.row (.operation operationId) = some op)
  (hcredential : σ.pub.row (.credential credentialId) = some credential)
  (hown : credential.tenantId = tenantId) (result : RevocationResult)
include hidle hrow hcredential hown

/-- What `executeRevoke` tries, once the adapter has answered. -/
theorem alone_attemptRevoke :
    Alone i σ (attemptRevoke i ⟨.ok (), .ok result⟩ tenantId credentialId operationId externalId)
      (Settles σ operationId (if result.revoked then .completed else .failed)
        (result.settled credential (op.expiresAt tenant))) := by
  have hrow₁ : (σ.record i (.call (.revoke operationId))).row (.operation operationId) =
      some op := (hidle.row _).trans hrow
  have hcredential₁ : (σ.record i (.call (.revoke operationId))).row (.credential credentialId) =
      some credential := (hidle.row _).trans hcredential
  refine Alone.seq (Alone.pure (Alone.seq (Alone.record (Alone.seq (Alone.pure ?_)))))
  cases hrevoked : result.revoked with
  | false =>
    simp only [RevocationResult.settled, hrevoked, Bool.false_eq_true, if_false]
    exact alone_failRevoke (by exact htenant) hpresent hpending hrow₁ _ _
  | true =>
    simp only [RevocationResult.settled, hrevoked, if_true]
    exact alone_completeRevoke (by exact htenant) hpresent hpending hrow₁ hcredential₁ hown

/-- `executeRevoke`: an error that is not recorded leaves the Operation as it was. -/
theorem alone_executeRevoke :
    Alone i σ (executeRevoke i ⟨.ok (), .ok result⟩ tenantId credentialId operationId externalId)
      fun _ σ' => ∃ op', σ'.pub.row (.operation operationId) = some op' ∧
        (op'.state ≠ .pending ↔ result.settled credential (op.expiresAt tenant)) := by
  refine Alone.tryCatch ((alone_attemptRevoke htenant hpresent hpending hidle hrow hcredential hown
    result).post ?_)
  rintro r σ' (⟨hsettled, ⟨v, rfl⟩, op', hop', hstate⟩ | ⟨hsettled, ⟨e, rfl, hnot⟩, hsame⟩)
  · refine ⟨op', hop', iff_of_true ?_ hsettled⟩
    rw [hstate]
    split_ifs <;> decide
  · simp only [recordRevokeError, hnot]
    exact Alone.throw ⟨op, by rw [hsame, hrow], iff_of_false (fun h => h hpending) hsettled⟩

end Alone

/-! ### Settled revocations -/

/-- A credential that passes the checks before the call, with no revocation of it in flight, an
identifier for a new Operation, and a tenant that gives it an expiry. -/
structure Revocable (tenantId credentialId operationId : Uuid) (externalId : String)
    (createdAt : ℕ) (tenant : TenantRow) (credential : Credential) (d : Snapshot Key Row) :
    Prop where
  row : d.row (.credential credentialId) = some credential
  own : credential.tenantId = tenantId
  tenantRow : d.row (.tenant tenantId) = some tenant
  present : tenant.present = true
  expires : ((revokeOperation tenantId createdAt externalId).expiresAt tenant .pending).isSome
  external : credential.externalId = some externalId
  nonempty : externalId ≠ ""
  fresh : Key.operation operationId ∉ d.keys
  noneInFlight : ∀ id op, d.row (.operation id) = some op →
    op.inFlightFor tenantId externalId [.credentialRevoke] = false

/-- A new Operation clashes with no other. -/
theorem Revocable.clashes_eq {tenantId credentialId operationId : Uuid} {externalId : String}
    {tenant : TenantRow} {credential : Credential} {d : Snapshot Key Row} {createdAt : ℕ}
    (h : Revocable tenantId credentialId operationId externalId createdAt tenant credential d) :
    index.clashes (.operation operationId) (revokeOperation tenantId createdAt externalId) d =
      false := by
  refine Index.clashes_eq_false fun k op _ hrow => ?_
  cases k with
  | operation id =>
    have hnone := h.noneInFlight id op hrow
    by_contra hclash
    simp only [index, Operation.clash, revokeOperation, OperationType.isHolderAction,
      Bool.not_eq_false, Bool.and_eq_true, Bool.or_eq_true, decide_eq_true_eq] at hclash
    obtain ⟨⟨⟨⟨⟨-, hflight⟩, htenant⟩, -⟩, hexternal⟩, htype⟩ := hclash
    simp [Operation.inFlightFor, ← htenant, ← hexternal, hflight] at hnone
    simp [hnone] at htype
  | _ => rfl

/-- A call whose checks pass. -/
theorem alone_revoke {i : ℕ} {σ : Solo Key Row Event} {tenantId credentialId operationId : Uuid}
    {externalId : String} {createdAt : ℕ} {tenant : TenantRow} {credential : Credential}
    (hidle : σ.Idle)
    (h : Revocable tenantId credentialId operationId externalId createdAt tenant credential σ.now)
    (result : RevocationResult) :
    Alone i σ (revoke i ⟨.ok (), .ok result⟩ .anoncreds tenantId credentialId operationId
      createdAt) fun _ σ' => ∃ op', σ'.pub.row (.operation operationId) = some op' ∧
        (op'.state ≠ .pending ↔ result.settled credential
          ((revokeOperation tenantId createdAt externalId).expiresAt tenant)) := by
  have hview : σ.view = σ.now := congrArg (Snapshot.mk σ.keys) (funext hidle.row)
  refine Alone.seq (Alone.select ?_)
  have hfound : (σ.now.row (.credential credentialId)).filter
      (fun c => c.tenantId = tenantId) = some credential := by
    rw [h.row, Option.filter_some, if_pos (decide_eq_true h.own)]
  dsimp only
  rw [hfound]
  have hformat : ¬ CredentialDefinitionFormat.anoncreds ∉ revocableFormats := by decide
  have hexternal : (credential.externalId.filter fun s => s ≠ "") = some externalId := by
    rw [h.external, Option.filter_some, if_pos (decide_eq_true h.nonempty)]
  simp only [if_neg hformat, hexternal]
  refine Alone.seq (Alone.select ?_)
  have hnone : operations (Operation.inFlightFor tenantId externalId [.credentialRevoke])
      σ.now = [] := by
    rw [List.eq_nil_iff_forall_not_mem]
    intro x hx
    obtain ⟨hrow, hflight⟩ := mem_operations hx
    rw [h.noneInFlight _ _ hrow] at hflight
    simp at hflight
  dsimp only
  rw [hnone]
  refine Alone.seq (Alone.tryCatch (Alone.seq (Alone.transaction (Alone.seq
    (alone_computeExpiresAt h.tenantRow h.present (fun _ _ => ?_) fun hnone => ?_)))))
  swap
  · exact absurd h.expires (by
      rw [show (revokeOperation tenantId createdAt externalId).expiresAt tenant .pending = none
        from hnone]
      simp)
  refine Alone.seq (Alone.insert h.fresh (hview.symm ▸ h.clashes_eq) (Alone.pure (Alone.pure ?_)))
  set σ₁ := ((σ.addKey (.operation operationId)).write (.operation operationId)
    (some (revokeOperation tenantId createdAt externalId))).commit i with hσ₁
  have hrow₁ : σ₁.pub.row (.operation operationId) =
      some (revokeOperation tenantId createdAt externalId) := by
    rw [hσ₁, Solo.pub_row_commit]
    exact Solo.row_write_self _
  have hcredential₁ : σ₁.pub.row (.credential credentialId) = some credential := by
    rw [hσ₁, Solo.pub_row_commit, Solo.row_write_of_ne (by simp), Solo.row_addKey, hidle.row]
    exact h.row
  have htenant₁ : σ₁.pub.row (.tenant tenantId) = some tenant := by
    rw [hσ₁, Solo.pub_row_commit, Solo.row_write_of_ne (by simp), Solo.row_addKey, hidle.row]
    exact h.tenantRow
  exact alone_executeRevoke htenant₁ h.present rfl (Solo.idle_commit i) hrow₁ hcredential₁ h.own
    result

/-- A database with tenant 7 and one credential of it. -/
def credentialDb (state : CredentialState) : Db :=
  Store.initial [.tenant 7, .credential 1]
    (Pub.ofRows [⟨.tenant 7, ⟨none, none⟩⟩,
      ⟨.credential 1, ⟨7, none, none, 3, 4, some "x", state⟩⟩])

/-- How often the adapter has been asked to revoke for an Operation. -/
def revokeCalls (operationId : Uuid) (s : Db) : ℕ :=
  (s.pub.history.flatMap fun commit => commit.tx.events).countP fun e =>
    decide (e = .call (.revoke operationId))

/-- The same request twice, for a credential that the adapter says is revoked. -/
def revokeTwice (state : CredentialState) : Option (Db × Except (Exn Failure) Operation) :=
  let agent : RevokeAgent := ⟨.ok (), .ok ⟨true, none, none⟩⟩
  ((revoke 0 agent .anoncreds 7 1 9 0).run.runAlone (credentialDb state)).bind fun first =>
    (revoke 0 agent .anoncreds 7 1 10 1).run.runAlone first.1

end DigitalTrust
