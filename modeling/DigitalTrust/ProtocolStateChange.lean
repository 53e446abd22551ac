/-
# Webhook deliveries

`protocol-state-change/protocol-state-change.service.ts`: what one delivery of an
agent's webhook does, in one transaction, to the exchange, the Operation, the batch
parent, the offer, the Credential and the Connection it concerns.

The lookups of Operations, Credentials and Connections go through repositories that
do not take the transaction's manager: they read what is committed at that moment,
on another database connection.
-/
import DigitalTrust.ExchangeRepository
import DigitalTrust.Connections

namespace DigitalTrust

open ReadCommitted

/-! ## Deliveries -/

/-- A delivery: the job's data, the exchange and connector that `CredentialExchangeService` passes,
and the identifier generated if a connection is cloned. -/
structure Delivery where
  tenantId : Uuid
  topic : ProtocolTopic
  externalId : String
  protocolState : String
  payload : Payload
  correlation : Option (Uuid × Uuid)
  connectionId : Uuid

structure OperationOutcomeResult where
  matched : Bool
  transitioned : Bool
  operationType : Option OperationType

structure ApplyOutcomeResult where
  matched : Bool
  transitioned : Bool
  established : Bool

/-- What a delivery's transaction returns. -/
structure ProcessResult where
  matched : Bool
  transitioned : Bool
  event : Option DomainEventName

namespace Delivery

def notification (d : Delivery) (event : EventName) (resource : Resource) : Event :=
  .dispatch d.tenantId event resource

/-- The connector whose exchange is observed. -/
def connector (d : Delivery) : Service (Option Uuid) :=
  match d.correlation with
  | some correlation => pure (some correlation.2)
  | none => do
    let credential ← findCredentialByExternalId .step d.tenantId d.externalId
    pure (credential.map fun c => c.2.connectorId)

/-- The observation of the exchange, under the topic `issue_credential` only. -/
def observeExchange (i : ℕ) (d : Delivery) : Service (Option ExchangeTransition) :=
  if d.topic = .issueCredential then do
    let connectorId ← d.connector
    match connectorId with
    | none => pure none
    | some connectorId =>
      observe i d.tenantId connectorId d.externalId d.protocolState
        (d.correlation.map fun c => c.1)
  else pure none

/-- The notification that a holder has asked for the credential. -/
def announceRequest (i : ℕ) (d : Delivery) (transition : Option ExchangeTransition) :
    Service Unit :=
  match transition with
  | none => pure ()
  | some transition =>
    if transition.target = .agent .requestReceived then
      emit .step i (d.notification .requestReceived (.row transition.exchangeId))
    else pure ()

/-- `resolveOperationResult`. -/
def operationResult (d : Delivery) (outcome : ProtocolOutcome) : Option OperationResult :=
  match outcome.operationState with
  | some .failed => some (.failure (d.topic.name.toUpper ++ "_FAILED") d.protocolState)
  | some .processing => none
  | _ => some (.payload d.payload)

/-- What a delivery writes into an Operation. -/
def patch (d : Delivery) (outcome : ProtocolOutcome) : OperationPatch where
  state := outcome.operationState
  result := some (d.operationResult outcome)
  externalId := none

/-! ### Batch and offer -/

/-- The last step of `settleBatchParent`: the parent's result, and the notification. -/
def finishBatchParent (i : ℕ) (d : Delivery) (batchId : Uuid) (finalState : OperationState)
    (counts : BatchStateCounts) : Service Unit := do
  transitionStateUnscoped .step i batchId finalState
    (some (.counts counts.pending counts.processing counts.completed counts.failed))
  emit .step i (d.notification (.batch finalState) (.row batchId))

def settleBatchParent (i : ℕ) (d : Delivery) (batchId : Uuid) : Service Unit := do
  lockBatchParent i batchId d.tenantId
  let counts ← countByBatchGroupedByState i batchId d.tenantId
  if 0 < counts.pending + counts.processing then pure ()
  else
    let claimed ← claimBatchSettlement i batchId d.tenantId counts.finalState
    if claimed then d.finishBatchParent i batchId counts.finalState counts
    else pure ()

/-- `settleBatchParent` for an Operation that belongs to a batch. -/
def settleBatch (i : ℕ) (d : Delivery) (batchId : Option Uuid) : Service Unit :=
  match batchId with
  | none => pure ()
  | some batchId => d.settleBatchParent i batchId

def settleRelatedOfferOperation (i : ℕ) (d : Delivery) (outcome : ProtocolOutcome) :
    Service Unit := do
  let credential ← findCredentialByExternalId .step d.tenantId d.externalId
  match credential with
  | none => pure ()
  | some credential =>
    let offer ← findOperationForTenant credential.2.operationId d.tenantId
    match offer with
    | none => pure ()
    | some _ =>
      let updated ← transitionStateIfForward (.relatedOffer credential.2.operationId) i
        credential.2.operationId outcome.operationFrom (d.patch outcome)
      match updated, outcome.operationState with
      | some _, some state =>
        emit .step i (d.notification (.offer state) (.row credential.2.operationId))
      | _, _ => pure ()

/-- Whether a settled Operation also settles the offer it acts on. -/
def settlesOffer (type : OperationType) (outcome : ProtocolOutcome) : Bool :=
  (type = .credentialAccept || type = .credentialIssue || type = .credentialReject) &&
    (outcome.operationState = some .completed || outcome.operationState = some .failed)

/-- `settleRelatedOfferOperation` for an Operation that acts on an offer. -/
def settleOffer (i : ℕ) (d : Delivery) (outcome : ProtocolOutcome) (type : OperationType) :
    Service Unit :=
  if settlesOffer type outcome then d.settleRelatedOfferOperation i outcome else pure ()

def applyOperationOutcome (i : ℕ) (d : Delivery) (outcome : ProtocolOutcome) :
    Service OperationOutcomeResult := do
  let operation ← findByExternalIdForTenant d.tenantId d.externalId (topicOperationTypes d.topic)
  match operation with
  | none =>
    let existed ← existsByExternalIdForTenant d.tenantId d.externalId (topicOperationTypes d.topic)
    pure ⟨existed, false, none⟩
  | some operation =>
    let updated ← transitionStateIfForward .step i operation.1 outcome.operationFrom
      (d.patch outcome)
    match updated with
    | none => pure ⟨true, false, some operation.2.type⟩
    | some _ =>
      d.settleBatch i operation.2.batchId
      d.settleOffer i outcome operation.2.type
      pure ⟨true, true, some operation.2.type⟩

/-! ### Credential and connection -/

/-- `applyCredentialOutcome`.  The label of its lookup tells whether the delivery has found
an Operation in flight. -/
def applyCredentialOutcome (i : ℕ) (d : Delivery) (outcome : ProtocolOutcome)
    (operationType : Option OperationType) : Service ApplyOutcomeResult :=
  match outcome.credentialState with
  | none => pure ⟨false, false, false⟩
  | some state => do
    let credential ← findCredentialByExternalId
      (if operationType.isNone then .credentialLookup d.tenantId d.externalId else .step)
      d.tenantId d.externalId
    match credential with
    | none => pure ⟨false, false, false⟩
    | some credential =>
      let won ← updateCredentialStateIfForward i credential.1 d.tenantId state
        (credentialStatesBelow state) none
      pure ⟨true, won, false⟩

/-- The forward move of a connection that was found. -/
def moveConnection (i : ℕ) (connection : Uuid × Connection) (target : ConnectionTarget) :
    Service ApplyOutcomeResult := do
  let moved ← transitionConnectionState target
    (updateConnectionStateIfForward i connection.1 connection.2.tenantId)
  pure ⟨true, moved.1, moved.2⟩

/-- `applyConnectionOutcome`.  Inserting a row whose state is no connection state is an error
of the database. -/
def applyConnectionOutcome (i : ℕ) (d : Delivery) (outcome : ProtocolOutcome) :
    Service ApplyOutcomeResult :=
  match outcome.connectionState with
  | none => pure ⟨false, false, false⟩
  | some target => do
    let connection ← findByExternalConnectionIdForTenant d.tenantId d.externalId
    match connection with
    | some connection => moveConnection i connection target
    | none =>
      let template ← findByInvitationMsgIdForTenant
        (.invitationLookup d.tenantId d.payload.invitationMsgId target) d.tenantId
        d.payload.invitationMsgId
      match template with
      | none => pure ⟨false, false, false⟩
      | some template =>
        if template.2.metadata.multiUse = some true then
          match target with
          | .inherited => throw .database
          | .state state =>
            if state = .invited then pure ⟨true, false, false⟩
            else
              createFromInvitationTemplate i d.connectionId template.2 d.externalId state
                d.payload.theirDid
              pure ⟨true, true, state = .active || state = .completed⟩
        else moveConnection i template target

/-- The event of a delivery that has moved something. -/
def eventName (outcome : ProtocolOutcome) (operationType : Option OperationType)
    (established : Bool) : Option DomainEventName :=
  if established then some .connectionEstablished
  else if outcome.event = some .credentialIssued && operationType = some .credentialAccept then
    some .credentialAccepted
  else outcome.event

/-- The notification of a delivery that has moved something. -/
def notify (i : ℕ) (d : Delivery) (event : Option DomainEventName) (matched : Bool) :
    Service ProcessResult := do
  emit .step i (d.notification
    (match event with
      | some event => .domain event
      | none => .raw d.topic d.protocolState)
    (.external d.externalId))
  pure ⟨matched, true, event⟩

/-- What follows the Operation's outcome under the topic `connections`. -/
def finishConnection (i : ℕ) (d : Delivery) (outcome : ProtocolOutcome)
    (op : OperationOutcomeResult) : Service ProcessResult := do
  let connection ← d.applyConnectionOutcome i outcome
  if connection.transitioned then
    d.notify i (eventName outcome op.operationType connection.established)
      (connection.matched || op.matched)
  else pure ⟨connection.matched || op.matched, op.transitioned, none⟩

/-- The Credential's outcome, unless an Operation was found and not moved. -/
def credentialOutcome (i : ℕ) (d : Delivery) (outcome : ProtocolOutcome)
    (op : OperationOutcomeResult) : Service ApplyOutcomeResult :=
  if op.operationType.isNone || op.transitioned then
    d.applyCredentialOutcome i outcome op.operationType
  else pure ⟨false, false, false⟩

/-- What follows the Operation's outcome under the other topics. -/
def finishCredential (i : ℕ) (d : Delivery) (outcome : ProtocolOutcome)
    (transition : Option ExchangeTransition) (op : OperationOutcomeResult) :
    Service ProcessResult := do
  let credential ← d.credentialOutcome i outcome op
  if op.transitioned || credential.transitioned then
    d.notify i (eventName outcome op.operationType false) (credential.matched || op.matched)
  else
    pure ⟨credential.matched || op.matched || transition.isSome, transition.isSome, none⟩

def apply (i : ℕ) (d : Delivery) (outcome : ProtocolOutcome) : Service ProcessResult := do
  let transition ← d.observeExchange i
  d.announceRequest i transition
  let op ← d.applyOperationOutcome i outcome
  if d.topic = .connections then d.finishConnection i outcome op
  else d.finishCredential i outcome transition op

def process (i : ℕ) (d : Delivery) : Service Unit :=
  match resolveProtocolOutcome d.topic d.protocolState with
  | none => pure ()
  | some outcome => do
    let _ ← transaction .step i (d.apply i outcome)
    pure ()

/-! ## What a delivery can change -/

/-- `T` lets through what is sent before the delivery's own notification: that a holder has
asked for a credential, and that a batch or an offer was settled. -/
structure Reports (T : Event → Prop) : Prop where
  requestReceived : ∀ tenantId resource, T (.dispatch tenantId .requestReceived resource)
  batch : ∀ tenantId state resource, T (.dispatch tenantId (.batch state) resource)
  offer : ∀ tenantId state resource, T (.dispatch tenantId (.offer state) resource)

/-- `W` lets an exchange be observed, a Credential move forward and an Operation go up in rank, also
a batch parent in the two writes that claim it and give it its result. -/
structure Progresses (W : Changes Key Row) : Prop where
  exchange : ∀ x (e : CredentialExchange) externalId state,
    W.rel (.exchange x) (some e) (some (e.observed x externalId state).1)
  credential : ∀ id (c : Credential) state, c.state ∈ credentialStatesBelow state →
    W.rel (.credential id) (some c) (some { c with state })
  advance : ∀ id (a b : Operation), a.Advances b → W.rel (.operation id) (some a) (some b)
  settle : ∀ id (a b : Operation) state result, W.rel (.operation id) (some a) (some b) →
    b.state = .processing → OperationState.isTerminal state = true →
      W.rel (.operation id) (some a) (some (a.moved state result))

/-- Changes and events that a delivery may need: also a forward move of a Connection, a cloned
connection, and notifications. -/
structure Allowed (W : Changes Key Row) (T : Event → Prop) : Prop extends Progresses W where
  connection : ∀ id (c : Connection) state, c.state.rank < ConnectionState.rank state →
    W.rel (.connection id) (some c) (some { c with state })
  clone : ∀ id (template : Connection) externalId state theirDid,
    W.rel (.connection id) none (some (template.fromTemplate externalId state theirDid))
  dispatch : ∀ tenantId event resource, T (.dispatch tenantId event resource)

theorem Allowed.reports {W : Changes Key Row} {T : Event → Prop} (h : Allowed W T) : Reports T :=
  ⟨fun _ _ => h.dispatch _ _ _, fun _ _ _ => h.dispatch _ _ _, fun _ _ _ => h.dispatch _ _ _⟩

/-- The guarded write of a delivery moves an Operation up. -/
theorem patch_advances (d : Delivery) {outcome : ProtocolOutcome} {op : Operation}
    (h : op.state ∈ outcome.operationFrom) : op.Advances ((d.patch outcome).apply op) := by
  refine ⟨OperationPatch.apply_sameIdentity _ _, rfl, ?_⟩
  cases hstate : outcome.operationState with
  | none => simp [ProtocolOutcome.operationFrom, hstate] at h
  | some target =>
    simp only [ProtocolOutcome.operationFrom, hstate, Option.map_some, Option.getD_some] at h
    simpa [OperationPatch.apply, patch, hstate] using mem_operationStatesBelow.mp h

/-! ### Each part -/

section Specs

variable {κ : StoreContract Key Row Event} {C : Label → Db → Prop} {i : ℕ} {φ : κ.Assert i}
  {χ : κ.TxAssert i} {m : Mine Key Row Event} {W : Changes Key Row} {T : Event → Prop}

/-- Observing makes allowed changes only. -/
theorem observeExchange_within (d : Delivery) (hm : m.Within W T) (hW : Progresses W) :
    Body κ index C i χ m (d.observeExchange i) fun _ m' => m'.Within W T := by
  unfold observeExchange
  split_ifs
  · refine Body.bind (M := fun _ m' => m = m') ?_ ?_
    · unfold connector
      split
      · exact Body.pure rfl
      · exact Body.seq (Body.select fun _ _ => Body.pure rfl)
    · rintro connectorId _ rfl
      split
      · exact Body.pure hm
      · exact observe_within hm fun x e => hW.exchange x e _ _
  · exact Body.pure hm

/-- So does announcing a request. -/
theorem announceRequest_within (d : Delivery) (transition : Option ExchangeTransition)
    (hm : m.Within W T) (hT : Reports T) :
    Body κ index C i χ m (d.announceRequest i transition) fun _ m' => m'.Within W T := by
  unfold announceRequest
  split
  · exact Body.pure hm
  · split_ifs
    · exact Body.emit_within hm (hT.requestReceived _ _)
    · exact Body.pure hm

/-- The parent that has been claimed: its row is locked, and what was visible of it before was
still processing. -/
theorem finishBatchParent_within (d : Delivery) {batchId : Uuid} {finalState : OperationState}
    {counts : BatchStateCounts} {c : Option Operation} {u v : Operation} (hm : m.Within W T)
    (hheld : m.held (.operation batchId) = some c)
    (hread : m.tx.writes (.operation batchId) = some (some v))
    (hclaimed : W.rel (.operation batchId) c (some u)) (hu : u.state = .processing)
    (hfinal : finalState.isTerminal = true) (hW : Progresses W) (hT : Reports T) :
    Body κ index C i χ m (d.finishBatchParent i batchId finalState counts)
      fun _ m' => m'.Within W T := by
  refine Body.bind (M := fun _ m' => m'.Within W T) ?_ fun _ m' hm' =>
    Body.emit_within hm' (hT.batch _ _ _)
  refine Body.seq (Body.select fun s hs => ?_)
  rw [show s.now.row (.operation batchId) = c from hs.held hheld]
  cases c with
  | none => exact Body.throw
  | some c =>
    refine Body.seq (body_computeExpiresAt fun _ => ?_)
    refine Body.saveRow (Operation.save_self _ v) hheld (by rw [hread]; rfl) (fun _ => hm)
      fun _ => ?_
    exact hm.writeHeld hheld (hW.settle batchId c u _ _ hclaimed hu hfinal)

theorem finalState_isTerminal (counts : BatchStateCounts) :
    counts.finalState.isTerminal = true := by
  unfold BatchStateCounts.finalState
  split_ifs <;> rfl

/-- So does settling the batch. -/
theorem settleBatch_within (d : Delivery) (batchId : Option Uuid) (hm : m.Within W T)
    (hW : Progresses W) (hT : Reports T) :
    Body κ index C i χ m (d.settleBatch i batchId) fun _ m' => m'.Within W T := by
  unfold settleBatch
  split
  · exact Body.pure hm
  · rename_i batchId
    refine Body.bind (M := fun _ m' => m'.Within W T) ?_ fun _ m₁ hm₁ => ?_
    · exact Body.bind (Body.selectForUpdate_within hm) fun _ _ h => Body.pure h
    · refine Body.seq (Body.selectIn fun s hs => ?_)
      split_ifs
      · exact Body.pure hm₁
      · refine Body.seq (Body.update (fun _ _ _ => Body.pure hm₁) fun s' v hs' hv hp => ?_)
        simp only [Bool.and_eq_true, decide_eq_true_eq] at hp
        have hfinal := finalState_isTerminal (countBatch batchId d.tenantId (s.view i))
        refine d.finishBatchParent_within (c := s'.pub.row (.operation batchId))
          (v := { v with state := (countBatch batchId d.tenantId (s.view i)).finalState })
          ?_ ?_ ?_ (hv ▸ hm₁.view hs' _) hp.2 hfinal hW hT
        · refine hm₁.write hs' ?_
          rw [hv]
          refine hW.advance _ _ _ ⟨⟨rfl, rfl, rfl, rfl, rfl, rfl⟩, rfl, ?_⟩
          rw [hp.2, isTerminal_iff_rank.mp hfinal]
          decide
        · simp [Mine.write, Mine.hold]
        · simp [Mine.write, Mine.hold, Tx.write]

/-- So does settling an offer. -/
theorem settleOffer_within (d : Delivery) (outcome : ProtocolOutcome) (type : OperationType)
    (hm : m.Within W T) (hW : Progresses W) (hT : Reports T) :
    Body κ index C i χ m (d.settleOffer i outcome type) fun _ m' => m'.Within W T := by
  unfold settleOffer
  split_ifs
  · refine Body.seq (Body.select fun s hs => ?_)
    split
    · exact Body.pure hm
    · refine Body.seq (Body.select fun s' hs' => ?_)
      split
      · exact Body.pure hm
      · refine Body.bind (transitionStateIfForward_within hm fun op hop =>
          hW.advance _ _ _ (d.patch_advances hop)) fun updated m₁ hm₁ => ?_
        split
        · exact Body.emit_within hm₁ (hT.offer _ _ _)
        · exact Body.pure hm₁
  · exact Body.pure hm

/-- So does applying the outcome. -/
theorem applyOperationOutcome_within (d : Delivery) (outcome : ProtocolOutcome)
    (hm : m.Within W T) (hW : Progresses W) (hT : Reports T) :
    Body κ index C i χ m (d.applyOperationOutcome i outcome) fun _ m' => m'.Within W T := by
  refine Body.seq (Body.select fun s hs => ?_)
  split
  · exact Body.seq (Body.select fun s' hs' => Body.pure hm)
  · refine Body.bind (transitionStateIfForward_within hm fun op hop =>
      hW.advance _ _ _ (d.patch_advances hop)) fun updated m₁ hm₁ => ?_
    split
    · exact Body.pure hm₁
    · refine Body.bind (d.settleBatch_within _ hm₁ hW hT) fun _ m₂ hm₂ => ?_
      exact Body.bind (d.settleOffer_within _ _ hm₂ hW hT) fun _ m₃ hm₃ => Body.pure hm₃

/-- So does a notification of the event. -/
theorem notify_within (d : Delivery) (event : Option DomainEventName) (matched : Bool)
    (hm : m.Within W T)
    (hT : ∀ name, (∀ e, name = .domain e → event = some e) →
      T (.dispatch d.tenantId name (.external d.externalId))) :
    Body κ index C i χ m (d.notify i event matched) fun _ m' => m'.Within W T := by
  refine Body.bind (Body.emit_within hm (hT _ fun e he => ?_)) fun _ _ h => Body.pure h
  cases event with
  | none => simp at he
  | some event => simpa using he

/-- So does the credential's outcome. -/
theorem credentialOutcome_within (d : Delivery) (outcome : ProtocolOutcome)
    (op : OperationOutcomeResult) (hm : m.Within W T) (hW : Progresses W) :
    Body κ index C i χ m (d.credentialOutcome i outcome op) fun _ m' => m'.Within W T := by
  unfold credentialOutcome
  split_ifs
  · unfold applyCredentialOutcome
    split
    · exact Body.pure hm
    · refine Body.seq (Body.select fun s hs => ?_)
      split
      · exact Body.pure hm
      · refine Body.bind (updateCredentialStateIfForward_within hm fun c hc => ?_)
          fun won m₁ hm₁ => Body.pure hm₁
        exact hW.credential _ c _ hc
  · exact Body.pure hm

/-- So does the end of a credential's delivery. -/
theorem finishCredential_within (d : Delivery) (outcome : ProtocolOutcome)
    (transition : Option ExchangeTransition) (op : OperationOutcomeResult) (hm : m.Within W T)
    (hW : Progresses W)
    (hT : ∀ name, (∀ e, name = .domain e → eventName outcome op.operationType false = some e) →
      T (.dispatch d.tenantId name (.external d.externalId))) :
    Body κ index C i χ m (d.finishCredential i outcome transition op)
      fun _ m' => m'.Within W T := by
  refine Body.bind (d.credentialOutcome_within outcome op hm hW) fun c m₁ hm₁ => ?_
  split_ifs
  · exact d.notify_within _ _ hm₁ hT
  · exact Body.pure hm₁

theorem moveConnection_within {connection : Uuid × Connection} {target : ConnectionTarget}
    (hm : m.Within W T)
    (hW : ∀ id (c : Connection) state, c.state.rank < ConnectionState.rank state →
      W.rel (.connection id) (some c) (some { c with state })) :
    Body κ index C i χ m (moveConnection i connection target) fun _ m' => m'.Within W T :=
  Body.bind (transitionConnectionState_within hm fun c => hW _ c) fun _ _ h => Body.pure h

/-- So does that of a connection's. -/
theorem finishConnection_within (d : Delivery) (outcome : ProtocolOutcome)
    (op : OperationOutcomeResult) (hm : m.Within W T) (hA : Allowed W T) :
    Body κ index C i χ m (d.finishConnection i outcome op) fun _ m' => m'.Within W T := by
  refine Body.bind (M := fun _ m' => m'.Within W T) ?_ fun c m₁ hm₁ => ?_
  · unfold applyConnectionOutcome
    split
    · exact Body.pure hm
    · refine Body.seq (Body.select fun s hs => ?_)
      split
      · exact moveConnection_within hm hA.connection
      · refine Body.seq (Body.select fun s' hs' => ?_)
        split
        · exact Body.pure hm
        · split_ifs
          · split
            · exact Body.throw
            · split_ifs
              · exact Body.pure hm
              · exact Body.bind (Body.insert_within hm (hA.clone _ _ _ _ _))
                  fun _ _ h => Body.pure h
          · exact moveConnection_within hm hA.connection
  · split_ifs
    · exact d.notify_within _ _ hm₁ fun _ _ => hA.dispatch _ _ _
    · exact Body.pure hm₁

/-- A delivery, given what becomes of the connection or of the Credential at its end. -/
theorem apply_bodyTo (d : Delivery) (outcome : ProtocolOutcome) (hm : m.Within W T)
    (hW : Progresses W) (hT : Reports T)
    {Q : ProcessResult → Mine Key Row Event → κ.TxAssert i → Prop}
    (hconnection : d.topic = .connections → ∀ op m', m'.Within W T →
      BodyTo κ index C i χ m' (d.finishConnection i outcome op) Q)
    (hcredential : d.topic ≠ .connections → ∀ transition op m', m'.Within W T →
      BodyTo κ index C i χ m' (d.finishCredential i outcome transition op) Q) :
    BodyTo κ index C i χ m (d.apply i outcome) Q := by
  refine Body.seqTo (Body.post (d.observeExchange_within hm hW) fun transition m₁ hm₁ => ?_)
  refine Body.seqTo (Body.post (d.announceRequest_within transition hm₁ hT) fun _ m₂ hm₂ => ?_)
  refine Body.seqTo (Body.post (d.applyOperationOutcome_within outcome hm₂ hW hT)
    fun op m₃ hm₃ => ?_)
  split_ifs with htopic
  · exact hconnection htopic op m₃ hm₃
  · exact hcredential htopic transition op m₃ hm₃

/-- A delivery changes rows and sends events only as `W` and `T` allow. -/
theorem apply_within (d : Delivery) (outcome : ProtocolOutcome) (hm : m.Within W T)
    (hA : Allowed W T) :
    Body κ index C i χ m (d.apply i outcome) fun _ m' => m'.Within W T := by
  refine BodyTo.body (d.apply_bodyTo outcome hm hA.toProgresses hA.reports
    (fun _ op m' hm' => ?_) fun _ transition op m' hm' => ?_)
  · exact BodyTo.post (Body.plain (d.finishConnection_within outcome op hm' hA)) fun _ _ _ h => h.2
  · exact BodyTo.post (Body.plain (d.finishCredential_within outcome transition op hm'
      hA.toProgresses fun _ _ => hA.dispatch _ _ _)) fun _ _ _ h => h.2

/-- A delivery within neutral changes. -/
theorem process_keeps (d : Delivery) (hN : κ.Neutral W T) (hA : Allowed W T) :
    Keeps κ index C i φ (d.process i) := by
  unfold process
  split
  · exact Keeps.pure
  · exact Keeps.bind (Keeps.transaction hN (d.apply_within _ within_idle hA)) fun _ => Keeps.pure

end Specs

end Delivery

end DigitalTrust
