/-
# Protocol outcomes

The tables of `protocol-state-change/state-mapping.ts`.  They are JavaScript objects, so looking a
string up in them also finds the members that every object inherits (`constructor`, `toString`,
...).  Such a lookup yields a function: an outcome none of whose fields is set, or, in the table of
connection states, a target that is no connection state.
-/
import Mathlib

namespace DigitalTrust

/-! ## States -/

/-- `OperationState` of `operation.entity.ts`. -/
inductive OperationState where
  | pending
  | processing
  | completed
  | failed
  deriving DecidableEq

/-- `OPERATION_TYPE` of `operation-type.constants.ts`. -/
inductive OperationType where
  | credentialDefinitionRegister
  | credentialOffer
  | credentialIssue
  | credentialOfferBatch
  | credentialAccept
  | credentialReject
  | credentialRevoke
  | credentialRevokeBatch
  | presentationRequest
  | connectionCreate
  deriving DecidableEq

/-- `CredentialState` of `credential.entity.ts`. -/
inductive CredentialState where
  | offered
  | issued
  | revoked
  | expired
  | failed
  deriving DecidableEq

/-- `ConnectionState` of `connection.entity.ts`. -/
inductive ConnectionState where
  | invited
  | requested
  | responded
  | active
  | completed
  | abandoned
  deriving DecidableEq

/-- The agent's `ConnectionState` of `credential-ports`. -/
inductive AgentConnectionState where
  | invitation
  | request
  | response
  | active
  | completed
  | error
  deriving DecidableEq

/-- The agent's `CredentialExchangeState` of `credential-ports`. -/
inductive CredentialExchangeState where
  | proposalSent
  | offerSent
  | offerReceived
  | requestSent
  | requestReceived
  | credentialIssued
  | credentialReceived
  | done
  | abandoned
  deriving DecidableEq

/-- The agent's `PresentationExchangeState` of `credential-ports`. -/
inductive PresentationExchangeState where
  | requestSent
  | requestReceived
  | presentationSent
  | presentationReceived
  | verified
  | abandoned
  | done
  deriving DecidableEq

/-- `ProtocolTopic`: the webhook topics of the agent. -/
inductive ProtocolTopic where
  | issueCredential
  | presentProof
  | connections
  | revocationRegistry
  deriving DecidableEq

inductive DomainEventName where
  | credentialAccepted
  | credentialIssued
  | credentialVerified
  | credentialRejected
  | credentialRevoked
  | connectionEstablished
  deriving DecidableEq

/-- The wire name of a credential exchange state. -/
def CredentialExchangeState.name : CredentialExchangeState → String
  | proposalSent => "proposal-sent"
  | offerSent => "offer-sent"
  | offerReceived => "offer-received"
  | requestSent => "request-sent"
  | requestReceived => "request-received"
  | credentialIssued => "credential-issued"
  | credentialReceived => "credential-received"
  | done => "done"
  | abandoned => "abandoned"

def CredentialExchangeState.values : List CredentialExchangeState :=
  [proposalSent, offerSent, offerReceived, requestSent, requestReceived, credentialIssued,
    credentialReceived, done, abandoned]

/-- The wire name of a presentation exchange state. -/
def PresentationExchangeState.name : PresentationExchangeState → String
  | requestSent => "request-sent"
  | requestReceived => "request-received"
  | presentationSent => "presentation-sent"
  | presentationReceived => "presentation-received"
  | verified => "verified"
  | abandoned => "abandoned"
  | done => "done"

def PresentationExchangeState.values : List PresentationExchangeState :=
  [requestSent, requestReceived, presentationSent, presentationReceived, verified, abandoned, done]

/-- The wire name of an agent's connection state. -/
def AgentConnectionState.name : AgentConnectionState → String
  | invitation => "invitation"
  | request => "request"
  | response => "response"
  | active => "active"
  | completed => "completed"
  | error => "error"

def AgentConnectionState.values : List AgentConnectionState :=
  [invitation, request, response, active, completed, error]

def ProtocolTopic.name : ProtocolTopic → String
  | issueCredential => "issue_credential"
  | presentProof => "present_proof"
  | connections => "connections"
  | revocationRegistry => "revocation_registry"

/-- `TOPIC_OPERATION_TYPES`: the Operation types that a topic's webhooks may concern. -/
def topicOperationTypes : ProtocolTopic → List OperationType
  | .issueCredential =>
    [.credentialOffer, .credentialIssue, .credentialOfferBatch, .credentialAccept,
      .credentialReject]
  | .revocationRegistry => [.credentialRevoke, .credentialRevokeBatch]
  | .presentProof => [.presentationRequest]
  | .connections => [.connectionCreate]

/-! ## Guards -/

def OperationState.rank : OperationState → ℕ
  | pending => 0
  | processing => 1
  | completed => 2
  | failed => 2

def OperationState.values : List OperationState := [pending, processing, completed, failed]

/-- `isTerminalOperationState` of `operation.entity.ts`. -/
def OperationState.isTerminal : OperationState → Bool
  | completed => true
  | failed => true
  | _ => false

def credentialAllowedFromStates : CredentialState → List CredentialState
  | .offered => []
  | .issued => [.offered]
  | .failed => [.offered]
  | .revoked => [.issued]
  | .expired => [.offered]

def ConnectionState.rank : ConnectionState → ℕ
  | invited => 0
  | requested => 1
  | responded => 2
  | active => 3
  | completed => 4
  | abandoned => 4

def ConnectionState.values : List ConnectionState :=
  [invited, requested, responded, active, completed, abandoned]

def operationStatesBelow (target : OperationState) : List OperationState :=
  OperationState.values.filter fun state => state.rank < target.rank

def credentialStatesBelow (target : CredentialState) : List CredentialState :=
  credentialAllowedFromStates target

def connectionStatesBelow (target : ConnectionState) : List ConnectionState :=
  ConnectionState.values.filter fun state => state.rank < target.rank

/-- A forward move of an Operation goes up in rank. -/
theorem mem_operationStatesBelow {state target : OperationState} :
    state ∈ operationStatesBelow target ↔ state.rank < target.rank := by
  cases state <;> cases target <;> decide

/-- A forward move of a Connection goes up in rank. -/
theorem mem_connectionStatesBelow {state target : ConnectionState} :
    state ∈ connectionStatesBelow target ↔ state.rank < target.rank := by
  cases state <;> cases target <;> decide

/-- Terminal Operation states are those of the highest rank, so nothing is above them. -/
theorem isTerminal_iff_rank {state : OperationState} :
    state.isTerminal = true ↔ state.rank = 2 := by
  cases state <;> decide

theorem OperationState.rank_le (state : OperationState) : state.rank ≤ 2 := by
  cases state <;> decide

/-! ## Outcomes -/

/-- The connection state that an outcome asks for; `inherited` is a member of
`Object.prototype`, found in the table in place of a state. -/
inductive ConnectionTarget where
  | state (s : ConnectionState)
  | inherited
  deriving DecidableEq

/-- `ProtocolOutcome`.  `operationState` is missing in an outcome that is an inherited
member of the table. -/
structure ProtocolOutcome where
  operationState : Option OperationState
  credentialState : Option CredentialState
  connectionState : Option ConnectionTarget
  event : Option DomainEventName
  deriving DecidableEq

/-- `protocolState.replace(/_/g, '-')`. -/
def normalizeState (s : String) : String := s.map fun c => if c = '_' then '-' else c

/-- The names under which every JavaScript object has an inherited member.  Those that
start with an underscore are not in the list: no normalised state has one. -/
def inheritedMembers : List String :=
  ["constructor", "hasOwnProperty", "isPrototypeOf", "propertyIsEnumerable", "toLocaleString",
    "toString", "valueOf"]

/-- What is found in place of an outcome under the name of an inherited member. -/
def ProtocolOutcome.inherited : ProtocolOutcome := ⟨none, none, none, none⟩

/-- The outcome of a state that is known and not terminal. -/
def ProtocolOutcome.inProgress : ProtocolOutcome := ⟨some .processing, none, none, none⟩

def ProtocolOutcome.issued : ProtocolOutcome :=
  ⟨some .completed, some .issued, none, some .credentialIssued⟩

def ProtocolOutcome.rejected : ProtocolOutcome :=
  ⟨some .failed, some .failed, none, some .credentialRejected⟩

def issueCredentialOutcomes : List (CredentialExchangeState × ProtocolOutcome) :=
  [(.credentialIssued, .issued), (.done, .issued), (.abandoned, .rejected)]

def presentProofOutcomes : List (PresentationExchangeState × ProtocolOutcome) :=
  [(.verified, ⟨some .completed, none, none, some .credentialVerified⟩),
    (.done, ⟨some .completed, none, none, some .credentialVerified⟩),
    (.abandoned, ⟨some .failed, none, none, none⟩)]

def agentToConnectionState : AgentConnectionState → ConnectionState
  | .invitation => .invited
  | .request => .requested
  | .response => .responded
  | .active => .active
  | .completed => .completed
  | .error => .abandoned

def resolveFromTable {T : Type} (name : T → String) (table : List (T × ProtocolOutcome))
    (knownStates : List T) (protocolState : String) : Option ProtocolOutcome :=
  match table.find? fun entry => name entry.1 = protocolState with
  | some entry => some entry.2
  | none =>
    if protocolState ∈ inheritedMembers then some .inherited
    else if protocolState ∈ knownStates.map name then some .inProgress
    else none

def lookupConnectionState (protocolState : String) : Option ConnectionTarget :=
  match AgentConnectionState.values.find? fun state => state.name = protocolState with
  | some state => some (.state (agentToConnectionState state))
  | none => if protocolState ∈ inheritedMembers then some .inherited else none

def resolveConnectionsOutcome (protocolState : String) : Option ProtocolOutcome :=
  (lookupConnectionState protocolState).map fun mapped => match mapped with
    | .state .abandoned => ⟨some .failed, none, some mapped, none⟩
    | .state .active => ⟨some .completed, none, some mapped, some .connectionEstablished⟩
    | .state .completed => ⟨some .completed, none, some mapped, none⟩
    | _ => ⟨some .processing, none, some mapped, none⟩

def resolveProtocolOutcome (topic : ProtocolTopic) (protocolState : String) :
    Option ProtocolOutcome :=
  let normalizedState := normalizeState protocolState
  match topic with
  | .issueCredential =>
    resolveFromTable CredentialExchangeState.name issueCredentialOutcomes
      CredentialExchangeState.values normalizedState
  | .presentProof =>
    resolveFromTable PresentationExchangeState.name presentProofOutcomes
      PresentationExchangeState.values normalizedState
  | .connections => resolveConnectionsOutcome normalizedState
  | .revocationRegistry =>
    if normalizedState = "revoked" then
      some ⟨some .completed, some .revoked, none, some .credentialRevoked⟩
    else none

/-- The states that an outcome's guarded Operation write may start from.  A missing target
has no rank, and no state is below it. -/
def ProtocolOutcome.operationFrom (outcome : ProtocolOutcome) : List OperationState :=
  (outcome.operationState.map operationStatesBelow).getD []

/-! ## What the tables can answer -/

/-- Under the topic `issue_credential` there are four outcomes. -/
theorem resolveProtocolOutcome_issueCredential {w : String} {outcome : ProtocolOutcome}
    (h : resolveProtocolOutcome .issueCredential w = some outcome) :
    outcome = .issued ∨ outcome = .rejected ∨ outcome = .inProgress ∨ outcome = .inherited := by
  simp only [resolveProtocolOutcome, resolveFromTable] at h
  split at h
  · rename_i entry hentry
    have hmem := List.mem_of_find?_eq_some hentry
    injection h with h
    subst h
    simp only [issueCredentialOutcomes, List.mem_cons, List.not_mem_nil, or_false] at hmem
    rcases hmem with rfl | rfl | rfl <;> simp
  · split_ifs at h <;> simp_all

end DigitalTrust
