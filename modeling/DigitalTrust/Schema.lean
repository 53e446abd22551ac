/-
# The tables of the service

The rows that the modelled services read and write, the unique indexes over them, the
events that leave the service, and the errors it raises.

Columns that no modelled function reads (request bodies, expiry and audit timestamps,
caller metadata) are left out.  Row identifiers are random UUIDs, modelled as numbers;
identifiers of the agent are strings.
-/
import DigitalTrust.Json
import DigitalTrust.Store
import DigitalTrust.StateMapping

namespace DigitalTrust

open ReadCommitted

/-- A row identifier. -/
abbrev Uuid := ℕ

/-! ## What the agent reports -/

/-- The agent's view of a credential exchange (`CredentialExchange` of `credential-ports`). -/
structure RemoteExchange where
  id : String
  externalId : Option String
  connectionId : Option String
  state : CredentialExchangeState
  error : Option String
  deriving DecidableEq

/-- The agent's view of a connection (`Connection` of `credential-ports`). -/
structure RemoteConnection where
  id : String
  state : AgentConnectionState
  protocol : Option String
  theirLabel : Option String
  theirDid : Option String
  invitationId : Option String

/-- The agent's view of a presentation (`PresentationExchange` of `credential-ports`). -/
structure RemotePresentation where
  id : String
  externalId : Option String
  state : PresentationExchangeState
  error : Option String
  deriving DecidableEq

/-- `Invitation` of `credential-ports`. -/
structure Invitation where
  invitationId : String
  invitationUrl : String
  connectionId : Option String

/-- The body of a webhook; `rest` stands for the members nobody looks at. -/
structure Payload where
  invitationMsgId : Option String
  theirDid : Option String
  rest : String
  deriving DecidableEq

/-! ## Rows -/

/-- `OperationResult`, by what the service writes there. -/
inductive OperationResult where
  | payload (body : Payload)
  | exchange (remote : RemoteExchange)
  | presentation (remote : RemotePresentation)
  | failure (code message : String)
  | counts (pending processing completed failed : ℕ)
  | revocation
  | rejection
  | invitation (connectionId : Uuid) (url : String)
  | connection (connectionId : Uuid) (state : ConnectionState)
  | registration (definitionId : Uuid) (externalId : Option String) (failed : Option String)
  deriving DecidableEq

/-- A row of `tenant`; one that is deleted has its `deleted_at` set. -/
structure TenantRow where
  config : Option Json.Value
  deletedAt : Option ℕ

def TenantRow.present (tenant : TenantRow) : Bool := tenant.deletedAt.isNone

/-- A row of `operation`. -/
structure Operation where
  tenantId : Uuid
  exchangeId : Option Uuid
  batchId : Option Uuid
  type : OperationType
  state : OperationState
  result : Option OperationResult
  externalId : Option String
  createdAt : ℕ
  viewedAt : Option ℕ
  deriving DecidableEq

/-- A row of `credential`. -/
structure Credential where
  tenantId : Uuid
  exchangeId : Option Uuid
  connectionId : Option Uuid
  connectorId : Uuid
  operationId : Uuid
  externalId : Option String
  state : CredentialState

/-- `ExchangeState`: the agent's states and two of the service's own. -/
inductive ExchangeState where
  | pending
  | agent (state : CredentialExchangeState)
  | failed
  deriving DecidableEq

inductive IssueSubmission where
  | notSubmitted
  | submitting
  | submitted
  | uncertain
  deriving DecidableEq

/-- The side of an exchange that the tenant is on. -/
inductive ExchangeRole where
  | issuer
  | holder
  deriving DecidableEq

inductive CredentialDefinitionFormat where
  | anoncreds
  | sdJwt
  | mdl
  | w3cVc
  deriving DecidableEq

inductive ConnectionProtocol where
  | didcommV1
  | didcommV2
  | openid4vc
  deriving DecidableEq

/-- A row of `credential_exchange`. -/
structure CredentialExchange where
  tenantId : Uuid
  connectorId : Uuid
  connectionId : Option Uuid
  role : ExchangeRole
  protocol : String
  format : CredentialDefinitionFormat
  state : ExchangeState
  externalId : Option String
  issueSubmission : IssueSubmission
  issueOperationId : Option Uuid
  deriving DecidableEq

/-- The members of a connection's `metadata` that the service itself writes and trusts. -/
structure ConnectionMetadata where
  invitationUrl : Option String
  invitationId : Option String
  multiUse : Option Bool
  deriving DecidableEq

/-- A row of `connection`. -/
structure Connection where
  tenantId : Uuid
  externalConnectionId : Option String
  theirLabel : Option String
  theirDid : Option String
  state : ConnectionState
  connectorId : Option Uuid
  protocol : ConnectionProtocol
  metadata : ConnectionMetadata
  deriving DecidableEq

inductive RegistrationState where
  | unverified
  | pending
  | ready
  | failed
  deriving DecidableEq

inductive ArtifactState where
  | finished
  | wait
  | action
  | failed
  deriving DecidableEq

structure ArtifactProgress where
  id : Option String
  jobId : Option String
  transactionId : Option String
  state : Option ArtifactState

structure DefinitionRegistration where
  issuerId : String
  schema : ArtifactProgress
  definition : ArtifactProgress
  stage : Option String

inductive CredentialDefinitionStatus where
  | draft
  | published
  | deprecated
  deriving DecidableEq

inductive CredentialDefinitionConnectorType where
  | traction
  | credo

/-- A definition's schema: the members that name it, and the others as text. -/
structure SchemaDefinition where
  schemaName : Option String
  schemaVersion : Option String
  rest : String

structure DefinitionOptions where
  tag : Option String
  revocation : Option Bool
  rest : String

/-- A row of `credential_definition`. -/
structure CredentialDefinition where
  tenantId : Uuid
  name : String
  format : CredentialDefinitionFormat
  schemaDefinition : SchemaDefinition
  externalId : Option String
  connectorId : Option Uuid
  connectorType : CredentialDefinitionConnectorType
  registrationState : RegistrationState
  registrationOperationId : Option Uuid
  options : DefinitionOptions
  registration : Option DefinitionRegistration
  status : CredentialDefinitionStatus
  isActive : Bool
  createdAt : ℕ

/-- What a publication is about.  The key column holds the sha256 of this list's JSON text,
which is taken to be injective. -/
inductive Artifact where
  | schema (issuerId : String) (schemaName schemaVersion : Option String)
  | definition (issuerId schemaId tag : String)
  deriving DecidableEq

/-- The state of a row of `anoncreds_publication_intent`. -/
inductive PublicationIntent where
  | publishing
  | submitted
  | rejected

/-- The key of a row: its table and its primary key. -/
inductive Key where
  | tenant (id : Uuid)
  | operation (id : Uuid)
  | credential (id : Uuid)
  | exchange (id : Uuid)
  | connection (id : Uuid)
  | definition (id : Uuid)
  | intent (tenantId connectorId : Uuid) (artifact : Artifact)
  deriving DecidableEq

abbrev Row : Key → Type
  | .tenant _ => TenantRow
  | .operation _ => Operation
  | .credential _ => Credential
  | .exchange _ => CredentialExchange
  | .connection _ => Connection
  | .definition _ => CredentialDefinition
  | .intent _ _ _ => PublicationIntent

/-! ## Unique indexes -/

def Operation.inFlight (op : Operation) : Bool := !op.state.isTerminal

def OperationType.isHolderAction : OperationType → Bool
  | .credentialAccept => true
  | .credentialReject => true
  | _ => false

/-- `uq_operation_inflight_holder_action` and `uq_operation_inflight_revoke`. -/
def Operation.clash (a b : Operation) : Bool :=
  a.inFlight && b.inFlight && a.tenantId = b.tenantId && a.externalId.isSome &&
    a.externalId = b.externalId &&
    (a.type.isHolderAction && b.type.isHolderAction ||
      a.type = .credentialRevoke && b.type = .credentialRevoke)

theorem Operation.clash_symm (a b : Operation) : a.clash b = b.clash a := by
  rw [Bool.eq_iff_iff]
  simp only [Operation.clash, Bool.and_eq_true, Bool.or_eq_true, decide_eq_true_eq]
  grind

/-- `uq_credential_exchange_backend`. -/
def CredentialExchange.clash (a b : CredentialExchange) : Bool :=
  a.tenantId = b.tenantId && a.connectorId = b.connectorId && a.externalId.isSome &&
    a.externalId = b.externalId

theorem CredentialExchange.clash_symm (a b : CredentialExchange) : a.clash b = b.clash a := by
  rw [Bool.eq_iff_iff]
  simp only [CredentialExchange.clash, Bool.and_eq_true, decide_eq_true_eq]
  grind

/-- `idx_connection_external_connection_id`. -/
def Connection.clash (a b : Connection) : Bool :=
  a.externalConnectionId.isSome && a.externalConnectionId = b.externalConnectionId

theorem Connection.clash_symm (a b : Connection) : a.clash b = b.clash a := by
  rw [Bool.eq_iff_iff]
  simp only [Connection.clash, Bool.and_eq_true, decide_eq_true_eq]
  grind

/-- `uq_credential_definition_tenant_name_format`. -/
def CredentialDefinition.clash (a b : CredentialDefinition) : Bool :=
  a.isActive && b.isActive && a.tenantId = b.tenantId && a.name = b.name && a.format = b.format

theorem CredentialDefinition.clash_symm (a b : CredentialDefinition) : a.clash b = b.clash a := by
  rw [Bool.eq_iff_iff]
  simp only [CredentialDefinition.clash, Bool.and_eq_true, decide_eq_true_eq]
  grind

def index : Index Key Row where
  clash
    | .operation _, a, .operation _, b => Operation.clash a b
    | .exchange _, a, .exchange _, b => CredentialExchange.clash a b
    | .connection _, a, .connection _, b => Connection.clash a b
    | .definition _, a, .definition _, b => CredentialDefinition.clash a b
    | _, _, _, _ => false
  symm k v k' v' := by
    cases k <;> cases k' <;> try rfl
    · exact Operation.clash_symm v v'
    · exact CredentialExchange.clash_symm v v'
    · exact Connection.clash_symm v v'
    · exact CredentialDefinition.clash_symm v v'

/-! ## Events, labels and errors -/

/-- The names under which the service notifies a tenant. -/
inductive EventName where
  | domain (event : DomainEventName)
  | requestReceived
  | issueFailed
  | offerFailed
  | acceptFailed
  | rejectFailed
  | revokeFailed
  | presentationFailed
  | offer (state : OperationState)
  | batch (state : OperationState)
  | raw (topic : ProtocolTopic) (protocolState : String)
  deriving DecidableEq

/-- What a notification is about: an identifier of the agent or a row. -/
inductive Resource where
  | external (id : String)
  | row (id : Uuid)
  deriving DecidableEq

/-- The agent's calls that change something there. -/
inductive Call where
  | issueCredential (exchangeId operationId : Uuid)
  | publish (tenantId connectorId : Uuid) (artifact : Artifact)
  | acceptOffer (operationId : Uuid)
  | rejectOffer (operationId : Uuid)
  | revoke (operationId : Uuid)
  | requestPresentation (operationId : Uuid)
  deriving DecidableEq

/-- Why the agent did not take a submission (`SubmissionRejectedError.reason`). -/
inductive RejectionReason where
  | authentication
  | validation
  | notFound
  deriving DecidableEq

/-- The errors that the services raise or receive from an adapter. -/
inductive Failure where
  | notFound (message : String)
  | conflict (message : String)
  | badRequest (message : String)
  | badGateway (message : String)
  | serviceUnavailable (message : String)
  | submissionRejected (reason : RejectionReason)
  | backendNotFound (message : String)
  | authenticationRequired (message : String)
  | forbidden (message : String)
  | adapter (code message : String)
  | backend (status : Option ℕ) (code : Option String) (detail : String)
  | validation (issue : String)
  | other (message : String)
  deriving DecidableEq

/-- The error of a statement that the database did not answer. -/
def queryFailed : Failure := .other "query failed"

/-- The code and the message of an `AdapterError`. -/
def Failure.adapterError? : Failure → Option (String × String)
  | .submissionRejected _ => some ("SUBMISSION_REJECTED", "Credential issue was not submitted")
  | .backendNotFound message => some ("BACKEND_NOT_FOUND", message)
  | .adapter code message => some (code, message)
  | .validation _ => some ("VALIDATION_ERROR", "Validation failed")
  | _ => none

/-- What a commit may carry: a webhook notification or a registration job, the audit record
of an issuance that was claimed, a call to the agent, and the error with which a request gives
up the Operation that it has created. -/
inductive Event where
  | dispatch (tenantId : Uuid) (event : EventName) (resource : Resource)
  | issueAudit (exchangeId operationId : Uuid)
  | register (tenantId definitionId : Uuid) (checks : ℕ)
  | call (c : Call)
  | refused (operationId : Uuid) (error : Failure)
  deriving DecidableEq

/-- Statements that a condition on runs may name. -/
inductive Label where
  | step
  | registrationWrite (definitionId operationId : Uuid)
  | credentialLookup (tenantId : Uuid) (externalId : String)
  | relatedOffer (operationId : Uuid)
  | inFlightLookup (tenantId : Uuid) (externalId : String) (types : List OperationType)
  | winnerLookup (tenantId : Uuid) (externalId : String) (types : List OperationType)
  | actionInsert (tenantId : Uuid) (externalId : String) (type : OperationType)
  | connectionWrite (id : Uuid) (seen : ConnectionState) (read : Option ConnectionState)
      (written : ConnectionState)
  | invitationLookup (tenantId : Uuid) (invitationMsgId : Option String)
      (target : ConnectionTarget)

abbrev Db := Store Key Row Event

abbrev Committed := Pub Key Row Event

abbrev Service := Prog Key Row Event Label Failure

def raise {α : Type} (e : Failure) : Service α := throw (.thrown e)

/-! ## Lookups -/

/-- The visible rows of a table that satisfy `p`, in the order of their creation. -/
def rowsOf {α : Type} (table : Key → Option Uuid) (row : Snapshot Key Row → Uuid → Option α)
    (p : α → Bool) (d : Snapshot Key Row) : List (Uuid × α) :=
  d.keys.filterMap fun k => (table k).bind fun id =>
    (row d id).bind fun v => if p v then some (id, v) else none

/-- The Operations that satisfy `p`. -/
def operations (p : Operation → Bool) (d : Snapshot Key Row) : List (Uuid × Operation) :=
  rowsOf (fun k => match k with
    | .operation id => some id
    | _ => none) (fun d id => d.row (.operation id)) p d

/-- The Credentials that satisfy `p`. -/
def credentials (p : Credential → Bool) (d : Snapshot Key Row) : List (Uuid × Credential) :=
  rowsOf (fun k => match k with
    | .credential id => some id
    | _ => none) (fun d id => d.row (.credential id)) p d

/-- The exchanges that satisfy `p`. -/
def exchanges (p : CredentialExchange → Bool) (d : Snapshot Key Row) :
    List (Uuid × CredentialExchange) :=
  rowsOf (fun k => match k with
    | .exchange id => some id
    | _ => none) (fun d id => d.row (.exchange id)) p d

/-- The connections that satisfy `p`. -/
def connections (p : Connection → Bool) (d : Snapshot Key Row) : List (Uuid × Connection) :=
  rowsOf (fun k => match k with
    | .connection id => some id
    | _ => none) (fun d id => d.row (.connection id)) p d

/-- The most recently created of some Operations. -/
def latest (ops : List (Uuid × Operation)) : Option (Uuid × Operation) :=
  ops.foldl (fun best op => match best with
    | none => some op
    | some b => if b.2.createdAt < op.2.createdAt then some op else some b) none

/-- What a lookup in a table finds: a visible row that satisfies the condition. -/
theorem mem_rowsOf {α : Type} {table : Key → Option Uuid}
    {row : Snapshot Key Row → Uuid → Option α} {p : α → Bool} {d : Snapshot Key Row}
    {x : Uuid × α} (h : x ∈ rowsOf table row p d) : row d x.1 = some x.2 ∧ p x.2 = true := by
  simp only [rowsOf, List.mem_filterMap] at h
  obtain ⟨k, -, hk⟩ := h
  obtain ⟨id, -, hk⟩ := Option.bind_eq_some_iff.mp hk
  obtain ⟨v, hv, hk⟩ := Option.bind_eq_some_iff.mp hk
  split_ifs at hk with hp
  obtain rfl : (id, v) = x := by simpa using hk
  exact ⟨hv, hp⟩

theorem mem_operations {p : Operation → Bool} {d : Snapshot Key Row} {x : Uuid × Operation}
    (h : x ∈ operations p d) : d.row (.operation x.1) = some x.2 ∧ p x.2 = true :=
  mem_rowsOf h

theorem mem_exchanges {p : CredentialExchange → Bool} {d : Snapshot Key Row}
    {x : Uuid × CredentialExchange} (h : x ∈ exchanges p d) :
    d.row (.exchange x.1) = some x.2 ∧ p x.2 = true :=
  mem_rowsOf h

theorem mem_connections {p : Connection → Bool} {d : Snapshot Key Row} {x : Uuid × Connection}
    (h : x ∈ connections p d) : d.row (.connection x.1) = some x.2 ∧ p x.2 = true :=
  mem_rowsOf h

end DigitalTrust
