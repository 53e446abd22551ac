/-
# Issuing a credential

`credential-exchange/credential-exchange.service.ts`.  `issue` claims the submission in one
transaction, calls the agent outside any transaction, and records the outcome in a third step; a
failure that is no definite refusal leaves the submission `uncertain`, and nobody submits again.
What the agent answers is a parameter of each program.
-/
import DigitalTrust.ProtocolStateChange

namespace DigitalTrust

open ReadCommitted

/-! ## Reading the agent's exchange -/

/-- The agent's answers to one read of an exchange: the adapter, the exchange itself, and
the identity of its connection. -/
structure ExchangeAgent where
  resolve : Except Failure Unit
  getExchange : Except Failure RemoteExchange
  connection : ConnectionAgent

/-- `toPortCredentialFormat`: whether the port layer knows the format. -/
def CredentialDefinitionFormat.isPortFormat : CredentialDefinitionFormat → Bool
  | .anoncreds => true
  | .sdJwt => false
  | .mdl => true
  | .w3cVc => false

def getExchange (tenantId id : Uuid) : Service CredentialExchange := do
  let exchange ← findExchangeForTenant tenantId id
  match exchange with
  | none => raise (.notFound "Credential exchange not found")
  | some exchange => pure exchange

def resolveExchange (agent : ExchangeAgent) (exchange : CredentialExchange) : Service Unit :=
  if !truthy exchange.externalId then
    raise (.conflict "Exchange has no verified backend correlation; do not resend")
  else if !exchange.format.isPortFormat then
    raise (.conflict "Exchange format is not supported")
  else answer agent.resolve

/-- The connection of an exchange, adopted from the agent if it is not bound yet. -/
def correlatedConnection (i : ℕ) (agent : ConnectionAgent) (exchange : CredentialExchange)
    (connectionId : Uuid) (connection : Option Connection) : Service (Option Connection) :=
  match connection with
  | none => pure none
  | some connection =>
    if connection.connectorId.isNone then do
      let adopted ← resolveIdentity i agent exchange.tenantId connectionId exchange.connectorId
      pure (some adopted)
    else pure (some connection)

/-- Whether the connection is the one that the agent's exchange runs over. -/
def Connection.carries (connection : Option Connection) (exchange : CredentialExchange)
    (remote : RemoteExchange) : Bool :=
  connection.any fun c => c.connectorId = some exchange.connectorId &&
    truthy c.externalConnectionId && remote.connectionId = c.externalConnectionId

def assertCorrelation (i : ℕ) (agent : ConnectionAgent) (exchange : CredentialExchange)
    (remote : RemoteExchange) : Service Unit :=
  if some (remote.externalId.getD remote.id) ≠ exchange.externalId then
    raise (.conflict "Backend returned a different exchange")
  else match exchange.connectionId with
    | none => raise (.conflict "Exchange delivery protocol is not supported")
    | some connectionId =>
      if exchange.protocol ≠ "didcomm-v1" then
        raise (.conflict "Exchange delivery protocol is not supported")
      else do
        let found ← findConnectionForTenant exchange.tenantId connectionId
        let connection ← correlatedConnection i agent exchange connectionId found
        if !Connection.carries connection exchange remote then
          raise (.conflict "Exchange holder or connector correlation is inconsistent")
        else if found.any fun c => c.connectorId.isSome then do
          let _ ← resolveIdentity i agent exchange.tenantId connectionId exchange.connectorId
          pure ()
        else pure ()

/-- The delivery that `synchronize` makes of the agent's exchange. -/
def synchronizeDelivery (id : Uuid) (exchange : CredentialExchange) (remote : RemoteExchange) :
    Delivery where
  tenantId := exchange.tenantId
  topic := .issueCredential
  externalId := exchange.externalId.getD ""
  protocolState := remote.state.name
  payload := ⟨none, none, remote.state.name ++ " " ++ exchange.externalId.getD ""⟩
  correlation := some (id, exchange.connectorId)
  connectionId := 0

def synchronize (i : ℕ) (id : Uuid) (exchange : CredentialExchange) (remote : RemoteExchange) :
    Service Unit :=
  (synchronizeDelivery id exchange remote).process i

/-- `readRemote`; `BackendNotFoundError` becomes a conflict. -/
def readRemote (agent : ExchangeAgent) : Service RemoteExchange :=
  match agent.getExchange with
  | .error (.backendNotFound _) => raise (.conflict "Backend credential exchange was not found")
  | other => answer other

/-- The part that `reconcile` and `issue` share: read the agent's exchange and take it over. -/
def readAndSynchronize (i : ℕ) (agent : ExchangeAgent) (id : Uuid)
    (exchange : CredentialExchange) : Service RemoteExchange := do
  resolveExchange agent exchange
  let remote ← readRemote agent
  assertCorrelation i agent.connection exchange remote
  synchronize i id exchange remote
  pure remote

def reconcileExchange (i : ℕ) (agent : ExchangeAgent) (tenantId id : Uuid) :
    Service CredentialExchange := do
  let exchange ← getExchange tenantId id
  let _ ← readAndSynchronize i agent id exchange
  getExchange tenantId id

/-! ## Issuing -/

/-- A call of `issue`: what the database generates for its Operation, and the agent's answers
before, to, and after the call. -/
structure IssueRequest where
  tenantId : Uuid
  id : Uuid
  operationId : Uuid
  createdAt : ℕ
  agent : ExchangeAgent
  issued : Except Failure RemoteExchange
  connectionAfter : ConnectionAgent

def namedOperation (exchange : CredentialExchange) (d : Snapshot Key Row) :
    Option (Uuid × Operation) :=
  exchange.issueOperationId.bind fun o =>
    (forTenant exchange.tenantId (d.row (.operation o))).map fun op => (o, op)

/-- `retainedIssueOperation`, given the Operation that the exchange names. -/
def retainedIssueOperation (id : Uuid) (existing : Option (Uuid × Operation)) : Service Uuid :=
  match existing with
  | none => raise (.conflict "Issuance already attempted; reconcile the exchange, do not resubmit")
  | some existing =>
    if existing.2.exchangeId = some id && existing.2.type = .credentialIssue then
      pure existing.1
    else raise (.conflict "Issuance already attempted; reconcile the exchange, do not resubmit")

def getOperationForTenant (tenantId id : Uuid) : Service Unit := do
  let operation ← findOperationForTenant id tenantId
  match operation with
  | none => raise (.notFound "Operation not found")
  | some _ => pure ()

namespace IssueRequest

/-- The Operation that a claim creates. -/
def operation (req : IssueRequest) (exchange : CredentialExchange) : CreateOperationInput where
  tenantId := req.tenantId
  exchangeId := some req.id
  batchId := none
  type := .credentialIssue
  externalId := exchange.externalId

/-- What follows the check of the locked exchange: the Operation, the claim, the audit
record. -/
def submit (i : ℕ) (req : IssueRequest) (exchange locked : CredentialExchange) :
    Service Unit := do
  let _ ← createOperation .step i req.operationId req.createdAt (req.operation exchange)
  saveExchange i req.id { locked with
    issueSubmission := .submitting
    issueOperationId := some req.operationId }
  let _ ← transitionStateIfForward .step i req.operationId [.pending] ⟨some .processing, none, none⟩
  emit .step i (.issueAudit req.id req.operationId)

/-- The transaction that claims the submission; the value is the Operation, and whether it is
to be submitted. -/
def claim (i : ℕ) (req : IssueRequest) (exchange : CredentialExchange)
    (remote : RemoteExchange) : Service (Uuid × Bool) := do
  let locked ← lockExchange i req.tenantId req.id
  match locked with
  | none => raise (.notFound "Credential exchange not found")
  | some locked =>
    if locked.issueSubmission ≠ .notSubmitted then do
      let existing ← selectIn .step i (namedOperation locked)
      let operationId ← retainedIssueOperation req.id existing
      pure (operationId, false)
    else if locked.state ≠ .agent .requestReceived || remote.state ≠ .requestReceived then
      raise (.conflict "Exchange must have a holder request before explicit issuance")
    else do
      req.submit i exchange locked
      pure (req.operationId, true)

/-- The transaction that takes a refused submission back. -/
def retract (i : ℕ) (req : IssueRequest) : Service Unit := do
  let locked ← lockExchange i req.tenantId req.id
  match locked with
  | none => pure ()
  | some locked =>
    if locked.issueSubmission ≠ .submitting || locked.issueOperationId ≠ some req.operationId then
      pure ()
    else do
      let failed ← transitionStateIfForward .step i req.operationId [.processing]
        ⟨some .failed,
          some (some (.failure "SUBMISSION_REJECTED" "Credential issue was not submitted")), none⟩
      match failed with
      | none => pure ()
      | some _ =>
        saveExchange i req.id { locked with issueSubmission := .notSubmitted }
        emit .step i (.dispatch req.tenantId .issueFailed (.row req.operationId))

/-- The error that a refused submission is answered with. -/
def refused (reason : RejectionReason) : Failure :=
  match reason with
  | .notFound => .conflict "Credential issue was not submitted"
  | .authentication => .badGateway "Credential issue was not submitted"
  | .validation => .badRequest "Credential issue was not submitted"

/-- The end of an attempt whose outcome is not known. -/
def uncertain (i : ℕ) (req : IssueRequest) : Service Unit := do
  setSubmission i req.tenantId req.id .uncertain
  raise (.serviceUnavailable "Issuance outcome uncertain; reconcile this exchange, do not resubmit")

/-- What follows the agent's call. -/
def conclude (i : ℕ) (req : IssueRequest) (exchange : CredentialExchange) : Service Unit :=
  match req.issued with
  | .error (.submissionRejected reason) => do
    transaction .step i (req.retract i)
    raise (refused reason)
  | .error _ => req.uncertain i
  | .ok issued => do
    MonadExcept.tryCatch
      (do
        assertCorrelation i req.connectionAfter exchange issued
        setSubmission i req.tenantId req.id .submitted
        synchronize i req.id exchange issued)
      fun _ => req.uncertain i
    getOperationForTenant req.tenantId req.operationId

def issue (i : ℕ) (req : IssueRequest) : Service Unit := do
  let exchange ← getExchange req.tenantId req.id
  if exchange.role ≠ .issuer then
    raise (.conflict "Only issuer exchanges can issue")
  else if exchange.issueSubmission ≠ .notSubmitted then do
    let existing ← select .step (namedOperation exchange)
    let operationId ← retainedIssueOperation req.id existing
    getOperationForTenant req.tenantId operationId
  else do
    let remote ← readAndSynchronize i req.agent req.id exchange
    let claimed ← transaction .step i (req.claim i exchange remote)
    if claimed.2 then do
      record .step i (.call (.issueCredential req.id req.operationId))
      req.conclude i exchange
    else getOperationForTenant req.tenantId claimed.1

end IssueRequest

/-! ## What the programs leave alone -/

section Specs

variable {κ : StoreContract Key Row Event} {C : Label → Db → Prop} {i : ℕ} {φ : κ.Assert i}
  {W : Changes Key Row} {T : Event → Prop}

variable {tenantId id : Uuid} {agent : ExchangeAgent}

theorem getExchange_keeps : Keeps κ index C i φ (getExchange tenantId id) := by
  refine Keeps.bind Keeps.select fun exchange => ?_
  split
  · exact Keeps.throw
  · exact Keeps.pure

theorem getOperationForTenant_keeps : Keeps κ index C i φ (getOperationForTenant tenantId id) := by
  refine Keeps.bind Keeps.select fun operation => ?_
  split
  · exact Keeps.throw
  · exact Keeps.pure

/-- Reading the remote exchange keeps any contract. -/
theorem resolveExchange_keeps {exchange : CredentialExchange} :
    Keeps κ index C i φ (resolveExchange agent exchange) := by
  unfold resolveExchange
  split_ifs
  · exact Keeps.throw
  · exact Keeps.throw
  · exact answer_keeps

theorem readRemote_keeps : Keeps κ index C i φ (readRemote agent) := by
  unfold readRemote
  split
  · exact Keeps.throw
  · exact answer_keeps

/-- Correlation at most adopts a connection. -/
theorem assertCorrelation_keeps (hN : κ.Neutral W T) (hbound : Connection.Adoptable W)
    {agent : ConnectionAgent} {exchange : CredentialExchange} {remote : RemoteExchange} :
    Keeps κ index C i φ (assertCorrelation i agent exchange remote) := by
  unfold assertCorrelation
  split
  · exact Keeps.throw
  · split
    · exact Keeps.throw
    · split
      · exact Keeps.throw
      · refine Keeps.bind Keeps.select fun found => Keeps.bind ?_ fun connection => ?_
        · unfold correlatedConnection
          split
          · exact Keeps.pure
          · split_ifs
            · exact Keeps.bind (resolveIdentity_keeps hN hbound) fun _ => Keeps.pure
            · exact Keeps.pure
        · split_ifs
          · exact Keeps.throw
          · exact Keeps.bind (resolveIdentity_keeps hN hbound) fun _ => Keeps.pure
          · exact Keeps.pure

theorem readAndSynchronize_keeps (hN : κ.Neutral W T) (hA : Delivery.Allowed W T)
    (hbound : Connection.Adoptable W) {exchange : CredentialExchange} :
    Keeps κ index C i φ (readAndSynchronize i agent id exchange) := by
  refine Keeps.bind resolveExchange_keeps fun _ => Keeps.bind readRemote_keeps fun remote => ?_
  refine Keeps.bind (assertCorrelation_keeps hN hbound) fun _ => ?_
  exact Keeps.bind (Delivery.process_keeps _ hN hA) fun _ => Keeps.pure

/-- A reconciliation changes only what an observation of the agent's exchange and the adoption
of its connection change. -/
theorem reconcileExchange_keeps (hN : κ.Neutral W T) (hA : Delivery.Allowed W T)
    (hbound : Connection.Adoptable W) :
    Keeps κ index C i φ (reconcileExchange i agent tenantId id) :=
  Keeps.bind getExchange_keeps fun _ =>
    Keeps.bind (readAndSynchronize_keeps hN hA hbound) fun _ => getExchange_keeps

end Specs

end DigitalTrust
