/-
# Connections

`connection.repository.ts`, `connection.service.ts` and `connection-state-transition.ts` of
`connection/`.  Webhook deliveries and `reconcile` move a connection by a guarded `UPDATE`.  The
synchronous paths of `create` save an entity that they read earlier; the statement that does is
labelled with the state in which they read it, the one that `save` has read and the one it writes.
What the agent answers is a parameter of each program.
-/
import DigitalTrust.OperationService

namespace DigitalTrust

open ReadCommitted

/-! ## Repository -/

/-- The row, if it belongs to the tenant. -/
def Connection.ofTenant (tenantId : Uuid) (c : Option Connection) : Option Connection :=
  c.filter fun c => c.tenantId = tenantId

/-- `findById` of the connection repository. -/
def findConnection (id : Uuid) : Service (Option Connection) :=
  select .step fun d => d.row (.connection id)

/-- `findByIdForTenant` of the connection repository. -/
def findConnectionForTenant (tenantId id : Uuid) : Service (Option Connection) :=
  select .step fun d => Connection.ofTenant tenantId (d.row (.connection id))

def findByExternalConnectionIdForTenant (tenantId : Uuid) (externalConnectionId : String) :
    Service (Option (Uuid × Connection)) :=
  select .step fun d => (connections (fun c =>
    c.tenantId = tenantId && c.externalConnectionId = some externalConnectionId) d).head?

/-- `findByInvitationMsgIdForTenant`; a missing message id matches nothing. -/
def findByInvitationMsgIdForTenant (l : Label) (tenantId : Uuid)
    (invitationMsgId : Option String) : Service (Option (Uuid × Connection)) :=
  select l fun d => (connections (fun c => c.tenantId = tenantId && invitationMsgId.isSome &&
    c.metadata.invitationId = invitationMsgId) d).head?

/-- `updateStateIfForward` of the connection repository. -/
def updateConnectionStateIfForward (i : ℕ) (id tenantId : Uuid) (state : ConnectionState)
    (fromStates : List ConnectionState) : Service Bool :=
  update index .step i (.connection id) (fun c => c.tenantId = tenantId && c.state ∈ fromStates)
    fun c => { c with state }

/-- The `UPDATE` of a `save`: the columns in which the entity differs from the row read.  In
an entity that is `partial`, a missing label or DID is `undefined` and not written. -/
def Connection.save (isPartial : Bool) (entity read current : Connection) : Connection where
  tenantId := saveColumn entity.tenantId read.tenantId current.tenantId
  externalConnectionId :=
    saveColumn entity.externalConnectionId read.externalConnectionId current.externalConnectionId
  theirLabel := if isPartial && entity.theirLabel.isNone then current.theirLabel
    else saveColumn entity.theirLabel read.theirLabel current.theirLabel
  theirDid := if isPartial && entity.theirDid.isNone then current.theirDid
    else saveColumn entity.theirDid read.theirDid current.theirDid
  state := saveColumn entity.state read.state current.state
  connectorId := saveColumn entity.connectorId read.connectorId current.connectorId
  protocol := saveColumn entity.protocol read.protocol current.protocol
  metadata := saveColumn entity.metadata read.metadata current.metadata

theorem Connection.save_self (entity read : Connection) : entity.save false read read = entity := by
  simp [Connection.save, saveColumn_self]

/-- `save` of a connection inside the transaction of process `i`. -/
def saveConnectionIn (l : Label) (i : ℕ) (id : Uuid) (isPartial : Bool) (entity : Connection)
    (read : Option Connection) : Service Unit :=
  storeRow index l i (.connection id) entity (entity.save isPartial) read

/-- `update` of the connection repository: `save` outside any transaction.  The row is read
first; the `UPDATE` runs in a transaction of its own.  `seen` is the state in which the caller has
read, or made, the entity. -/
def updateConnection (i : ℕ) (id : Uuid) (isPartial : Bool) (seen : ConnectionState)
    (entity : Connection) : Service Unit := do
  let read ← findConnection id
  transaction .step i
    (saveConnectionIn (.connectionWrite id seen (read.map fun c => c.state) entity.state) i id
      isPartial entity read)

/-- `transitionConnectionState`: whether a write won, and whether the connection was established.  A
target that is no state is below none, so its `UPDATE` matches nothing. -/
def transitionConnectionState (target : ConnectionTarget)
    (write : ConnectionState → List ConnectionState → Service Bool) : Service (Bool × Bool) :=
  match target with
  | .inherited => pure (false, false)
  | .state target =>
    if target = .completed then do
      let active ← write .active (connectionStatesBelow .active)
      let updated ← write target (connectionStatesBelow target)
      pure (updated || active, active)
    else do
      let updated ← write target (connectionStatesBelow target)
      pure (updated, updated && target = .active)

/-- What `reconcile` of the repository makes of the row it has locked; a missing label or DID
of the agent's leaves the column alone. -/
def Connection.bound (c : Connection) (connectorId : Uuid) (remote : RemoteConnection) :
    Connection :=
  { c with
    connectorId := some connectorId
    externalConnectionId := some remote.id
    theirLabel := remote.theirLabel.or c.theirLabel
    theirDid := remote.theirDid.or c.theirDid
    protocol := .didcommV1 }

/-- The state changes of `reconcile`, once the row is bound. -/
def reconcileState (i : ℕ) (tenantId id : Uuid) (state current : ConnectionState)
    (forwardStates : List ConnectionState) : Service Bool :=
  if current ∈ forwardStates then do
    let moved ← transitionConnectionState (.state state)
      (updateConnectionStateIfForward i id tenantId)
    pure moved.2
  else pure false

/-- Whether the locked row is bound to another connector or another remote connection. -/
def Connection.boundElsewhere (c : Connection) (connectorId : Uuid) (remote : RemoteConnection) :
    Bool :=
  c.connectorId.any (fun connector => connector ≠ connectorId) ||
    truthy c.externalConnectionId && c.externalConnectionId ≠ some remote.id

/-- The notification of an established connection. -/
def announceEstablished (i : ℕ) (established : Bool) (onEstablished : Option Event) :
    Service Unit :=
  match established, onEstablished with
  | true, some e => emit .step i e
  | _, _ => pure ()

/-- The transaction of `reconcile` of the connection repository.  `onEstablished` is the
notification sent when the connection was established. -/
def reconcileRow (i : ℕ) (tenantId id connectorId : Uuid) (remote : RemoteConnection)
    (state : ConnectionState) (forwardStates : List ConnectionState)
    (onEstablished : Option Event) : Service (Option Connection) := do
  let found ← selectForUpdate (E := Event) (ε := Failure) Label.step i
    (fun id => Key.connection id) fun d =>
      match Connection.ofTenant tenantId (d.row (.connection id)) with
      | some _ => some id
      | none => none
  match found with
  | none => pure none
  | some ⟨x, connection⟩ =>
    if connection.boundElsewhere connectorId remote then pure none
    else
      let read ← selectIn .step i fun d => d.row (.connection x)
      saveConnectionIn .step i x false (connection.bound connectorId remote) read
      let established ← reconcileState i tenantId x state connection.state forwardStates
      announceEstablished i established onEstablished
      pure (some (connection.bound connectorId remote))

/-- `reconcile` of the connection repository. -/
def reconcileConnection (i : ℕ) (tenantId id connectorId : Uuid) (remote : RemoteConnection)
    (state : ConnectionState) (forwardStates : List ConnectionState)
    (onEstablished : Option Event) : Service (Option Connection) :=
  transaction .step i
    (reconcileRow i tenantId id connectorId remote state forwardStates onEstablished)

/-- The rows that `abandonAllForTenant` is about. -/
def Connection.isLive (tenantId : Uuid) (c : Connection) : Bool :=
  c.tenantId = tenantId && c.state ≠ .completed && c.state ≠ .abandoned

/-- Row by row, `UPDATE ... WHERE` checks its condition on the row it has locked. -/
def abandonEach (i : ℕ) (tenantId : Uuid) : List Uuid → Service Unit
  | [] => pure ()
  | id :: ids => do
    let _ ← update index .step i (.connection id) (Connection.isLive tenantId)
      fun c => { c with state := .abandoned }
    abandonEach i tenantId ids

/-- `abandonAllForTenant`: one `UPDATE` of all rows that are live when it starts. -/
def abandonAllForTenant (i : ℕ) (tenantId : Uuid) : Service Unit :=
  transaction .step i do
    let ids ← selectIn .step i fun d =>
      (connections (Connection.isLive tenantId) d).map fun c => c.1
    abandonEach i tenantId ids

/-! ## Service: the agent's identity of a connection -/

/-- What the agent answers while a connection's identity is resolved. -/
structure ConnectionAgent where
  resolve : Except Failure Unit
  getById : Except Failure RemoteConnection
  list : Except Failure (List RemoteConnection)

/-- The agent's connection, found by its own identifier. -/
def remoteById (agent : ConnectionAgent) (externalConnectionId : Option String) :
    Service RemoteConnection := do
  let remote ← answer agent.getById
  if some remote.id ≠ externalConnectionId then
    raise (.conflict "Backend returned a different connection")
  else pure remote

def remoteByInvitation (agent : ConnectionAgent) (connection : Connection) :
    Service RemoteConnection :=
  if !truthy connection.metadata.invitationId then
    raise (.conflict "Connection has no verifiable invitation correlation")
  else do
    let found ← answer agent.list
    if found.any fun item => item.invitationId ≠ connection.metadata.invitationId then
      raise (.conflict "Backend returned a different invitation")
    else match found with
      | [remote] =>
        if truthy connection.externalConnectionId &&
            some remote.id ≠ connection.externalConnectionId then
          raise (.conflict "Invitation connection does not match the saved connection")
        else pure remote
      | [] => raise (.conflict "Holder connection is not yet visible")
      | _ => raise (.conflict "Invitation matches multiple connections")

/-- The agent's connection, by its own identifier once the row is bound to a connector. -/
def findRemote (agent : ConnectionAgent) (connection : Connection) : Service RemoteConnection :=
  if truthy connection.externalConnectionId && connection.connectorId.isSome then
    remoteById agent connection.externalConnectionId
  else remoteByInvitation agent connection

def resolveRemoteIdentity (agent : ConnectionAgent) (tenantId id : Uuid)
    (selectedConnectorId : Option Uuid) : Service (Connection × RemoteConnection × Uuid) := do
  let connection ← findConnectionForTenant tenantId id
  match connection with
  | none => raise (.notFound "Connection not found")
  | some connection =>
    if connection.metadata.multiUse = some true && !truthy connection.externalConnectionId then
      raise (.badRequest "Select a holder connection, not a reusable invitation")
    else if connection.connectorId.isSome && selectedConnectorId.isSome &&
        connection.connectorId ≠ selectedConnectorId then
      raise (.badRequest "Connection and definition belong to different connectors")
    else match connection.connectorId.or selectedConnectorId with
      | none => raise (.conflict
          "Legacy connection requires an explicit connector for verified invitation reconciliation")
      | some connectorId => do
        answer agent.resolve
        let remote ← findRemote agent connection
        if remote.protocol ≠ some "didcomm-v1" then
          raise (.conflict "A completed DIDComm v1 handshake is required")
        else pure (connection, remote, connectorId)

def mapAdapterConnectionState : AgentConnectionState → ConnectionState
  | .invitation => .invited
  | .request => .requested
  | .response => .responded
  | .active => .active
  | .completed => .completed
  | .error => .abandoned

def reconcile (i : ℕ) (agent : ConnectionAgent) (tenantId id : Uuid)
    (selectedConnectorId : Option Uuid) : Service Connection := do
  let resolved ← resolveRemoteIdentity agent tenantId id selectedConnectorId
  let remote := resolved.2.1
  if remote.state ≠ .active && remote.state ≠ .completed then
    raise (.conflict "A completed DIDComm v1 handshake is required")
  else
    let state := mapAdapterConnectionState remote.state
    let updated ← reconcileConnection i tenantId id resolved.2.2 remote state
      (connectionStatesBelow state)
      (some (.dispatch tenantId (.domain .connectionEstablished) (.external remote.id)))
    match updated with
    | none => raise (.conflict "Connection binding changed during reconciliation")
    | some connection => pure connection

/-- `resolveIdentity`: adopt the agent's identity without changing the state. -/
def resolveIdentity (i : ℕ) (agent : ConnectionAgent) (tenantId id connectorId : Uuid) :
    Service Connection := do
  let resolved ← resolveRemoteIdentity agent tenantId id (some connectorId)
  let connection := resolved.1
  if connection.connectorId.isSome && truthy connection.externalConnectionId then
    pure connection
  else
    let adopted ← reconcileConnection i tenantId id connectorId resolved.2.1 connection.state []
      none
    match adopted with
    | none => raise (.conflict "Connection binding changed during reconciliation")
    | some connection => pure connection

/-! ## Service: creating a connection -/

/-- A call of `create`: the new row's identifiers, the caller's request and the agent's
answers to it. -/
structure CreateConnection where
  tenantId : Uuid
  id : Uuid
  operationId : Uuid
  createdAt : ℕ
  connectorId : Uuid
  protocol : ConnectionProtocol
  invitationUrl : Option String
  multiUse : Option Bool
  resolve : Except Failure Unit
  invitation : Except Failure Invitation
  accepted : Except Failure RemoteConnection

/-- The row that `create` inserts. -/
def CreateConnection.row (req : CreateConnection) : Connection where
  tenantId := req.tenantId
  externalConnectionId := none
  theirLabel := none
  theirDid := none
  state := if truthy req.invitationUrl then .requested else .invited
  connectorId := some req.connectorId
  protocol := req.protocol
  metadata := ⟨none, none, none⟩

def applyInvitationResult (i : ℕ) (id : Uuid) (invitation : Invitation) (multiUse : Option Bool) :
    Service Unit := do
  let connection ← findConnection id
  match connection with
  | none => raise (.notFound s!"Connection '{id}' was not found.")
  | some connection =>
    updateConnection i id false connection.state
      { connection with
        externalConnectionId := if truthy invitation.connectionId then invitation.connectionId
          else connection.externalConnectionId
        metadata := ⟨some invitation.invitationUrl, some invitation.invitationId,
          some (multiUse.getD false)⟩ }

def markAbandoned (i : ℕ) (id : Uuid) : Service Unit := do
  let connection ← findConnection id
  match connection with
  | none => pure ()
  | some connection =>
    updateConnection i id false connection.state { connection with state := .abandoned }

/-- `applyRemoteConnectionState`, on the entity that `create` has inserted. -/
def applyRemoteConnectionState (i : ℕ) (id : Uuid) (connection : Connection)
    (remote : RemoteConnection) : Service Unit :=
  let state := mapAdapterConnectionState remote.state
  if connection.state = state && connection.theirLabel = remote.theirLabel &&
      connection.theirDid = remote.theirDid &&
      connection.externalConnectionId = some remote.id then
    pure ()
  else
    updateConnection i id true connection.state
      { connection with
        state
        theirLabel := remote.theirLabel
        theirDid := remote.theirDid
        externalConnectionId := some remote.id }

/-- `transitionState` outside any transaction. -/
def transitionStateAlone (i : ℕ) (id : Uuid) :
    OperationState → Option OperationResult → Service Unit :=
  transitionStateBy (findOperation id) fun op => transaction .step i (saveOperation .step i id op)

/-- `createInvitation` and `acceptInvitation`: what is asked of the agent, and what becomes of
the connection; the value is the Operation's result. -/
def establish (i : ℕ) (req : CreateConnection) : Service OperationResult :=
  if truthy req.invitationUrl then do
    let remote ← answer req.accepted
    applyRemoteConnectionState i req.id req.row remote
    pure (.connection req.id (mapAdapterConnectionState remote.state))
  else do
    let invitation ← answer req.invitation
    applyInvitationResult i req.id invitation req.multiUse
    pure (.invitation req.id invitation.invitationUrl)

def Failure.message : Failure → String
  | .notFound m | .conflict m | .badRequest m | .badGateway m | .serviceUnavailable m => m
  | .submissionRejected _ => "Credential issue was not submitted"
  | .backendNotFound m | .authenticationRequired m | .forbidden m => m
  | .adapter _ m => m
  | .backend _ _ m => m
  | .validation m => m
  | .other m => m

def exnMessage : Exn Failure → String
  | .thrown e => e.message
  | .database => "the database failed"
  | .unique => "duplicate key value violates unique constraint"

def createConnection (i : ℕ) (req : CreateConnection) : Service Unit := do
  answer req.resolve
  transaction .step i (insert index .step i (.connection req.id) req.row)
  transaction .step i do
    let _ ← createOperation .step i req.operationId req.createdAt
      ⟨req.tenantId, none, none, .connectionCreate, none⟩
    pure ()
  transitionStateAlone i req.operationId .processing none
  MonadExcept.tryCatch
    (do
      let result ← establish i req
      transitionStateAlone i req.operationId .completed (some result))
    fun e => do
      markAbandoned i req.id
      transitionStateAlone i req.operationId .failed
        (some (.failure "CONNECTION_CREATE_FAILED" (exnMessage e)))

/-- The row that `createFromInvitationTemplate` inserts. -/
def Connection.fromTemplate (template : Connection) (externalId : String)
    (state : ConnectionState) (theirDid : Option String) : Connection where
  tenantId := template.tenantId
  externalConnectionId := some externalId
  theirLabel := none
  theirDid := theirDid
  state := state
  connectorId := template.connectorId
  protocol := template.protocol
  metadata := ⟨none, none, template.metadata.multiUse⟩

/-- `createFromInvitationTemplate`; `id` is the identifier the database generates. -/
def createFromInvitationTemplate (i : ℕ) (id : Uuid) (template : Connection) (externalId : String)
    (state : ConnectionState) (theirDid : Option String) : Service Unit :=
  insert index .step i (.connection id) (template.fromTemplate externalId state theirDid)

/-! ## What a transaction can count on -/

section Specs

variable {κ : StoreContract Key Row Event} {C : Label → Db → Prop} {i : ℕ} {φ : κ.Assert i}
  {χ : κ.TxAssert i} {m : Mine Key Row Event} {l : Label} {id tenantId : Uuid}

variable {W : Changes Key Row} {T : Event → Prop}

/-- A guarded move of a connection changes its row only as `W` allows. -/
theorem updateConnectionStateIfForward_within {state : ConnectionState} (hm : m.Within W T)
    (hW : ∀ c : Connection, c.state.rank < state.rank →
      W.rel (.connection id) (some c) (some { c with state })) :
    Body κ index C i χ m
      (updateConnectionStateIfForward i id tenantId state (connectionStatesBelow state))
      fun _ m' => m'.Within W T :=
  Body.update_within hm fun c hc =>
    hW c (mem_connectionStatesBelow.mp (by simpa using (Bool.and_eq_true_iff.mp hc).2))

/-- So does the move to `target`, with the stop at `active` that it may need. -/
theorem transitionConnectionState_within {target : ConnectionTarget} (hm : m.Within W T)
    (hW : ∀ (c : Connection) (state : ConnectionState), c.state.rank < state.rank →
      W.rel (.connection id) (some c) (some { c with state })) :
    Body κ index C i χ m
      (transitionConnectionState target (updateConnectionStateIfForward i id tenantId))
      fun _ m' => m'.Within W T := by
  cases target with
  | inherited => exact Body.pure hm
  | state target =>
    unfold transitionConnectionState
    dsimp only
    split_ifs
    · refine Body.bind (updateConnectionStateIfForward_within hm fun c => hW c _) ?_
      intro _ m₁ hm₁
      refine Body.bind (updateConnectionStateIfForward_within hm₁ fun c => hW c _) ?_
      exact fun _ m₂ hm₂ => Body.pure hm₂
    · refine Body.bind (updateConnectionStateIfForward_within hm fun c => hW c _) ?_
      exact fun _ m₁ hm₁ => Body.pure hm₁

/-- The row that `reconcile` has locked, bound and moved. -/
theorem reconcileRow_within {connectorId : Uuid} {remote : RemoteConnection}
    {state : ConnectionState} {forwardStates : List ConnectionState}
    {onEstablished : Option Event} (hm : m.Within W T)
    (hbound : ∀ c : Connection, W.rel (.connection id) (some c) (some (c.bound connectorId remote)))
    (hmove : ∀ (c : Connection) (state : ConnectionState), c.state.rank < state.rank →
      W.rel (.connection id) (some c) (some { c with state }))
    (hT : ∀ e, onEstablished = some e → T e) :
    Body κ index C i χ m
      (reconcileRow i tenantId id connectorId remote state forwardStates onEstablished)
      fun _ m' => m'.Within W T := by
  refine Body.seq (Body.selectForUpdate (fun s hs _ => Body.pure hm) fun s x v hs hx hv => ?_)
  obtain rfl : id = x := by
    split at hx <;> simp_all
  dsimp only
  split_ifs
  · exact Body.pure (hm.hold hs)
  · refine Body.seq (Body.selectIn fun s' hs' => ?_)
    have hheld : (m.hold (.connection id) (s.pub.row (.connection id))).held (.connection id) =
        some (s.pub.row (.connection id)) := by simp [Mine.hold]
    have hread : ((m.hold (.connection id) (s.pub.row (.connection id))).tx.writes
        (.connection id)).getD (s.pub.row (.connection id)) = some v := (hs.view _).symm.trans hv
    rw [show (s'.view i).row (.connection id) = some v by
      rw [hs'.view, hs'.held hheld]
      exact hread]
    have rest : ∀ m' : Mine Key Row Event, m'.Within W T → Body κ index C i χ m'
        (do
          let established ← reconcileState i tenantId id state v.state forwardStates
          announceEstablished i established onEstablished
          pure (some (v.bound connectorId remote))) fun _ m' => m'.Within W T := by
      intro m' hm'
      refine Body.bind (M := fun _ m' => m'.Within W T) ?_ fun established m₁ hm₁ => ?_
      · unfold reconcileState
        split_ifs
        · exact Body.bind (transitionConnectionState_within hm' hmove)
            fun _ _ h => Body.pure h
        · exact Body.pure hm'
      · refine Body.bind (M := fun _ m' => m'.Within W T) ?_ fun _ m₂ hm₂ => Body.pure hm₂
        unfold announceEstablished
        split
        · exact Body.emit_within hm₁ (hT _ rfl)
        · exact Body.pure hm₁
    refine Body.seq (Body.storeRow (Connection.save_self _ _) hheld hread
      (fun _ => rest _ (hm.hold hs)) fun _ => ?_)
    exact rest _ (hm.write hs (by rw [hv]; exact hbound v))

/-- So does a state change of an Operation, where Operations may change in any way. -/
theorem transitionStateAlone_keeps {state : OperationState} {result : Option OperationResult}
    (hN : κ.Neutral W T) (hW : ∀ a b, W.rel (.operation id) a b) :
    Keeps κ index C i φ (transitionStateAlone i id state result) := by
  refine Keeps.bind Keeps.select fun found => ?_
  cases found with
  | none => exact Keeps.throw
  | some op =>
    exact Keeps.bind computeExpiresAt_keeps fun _ =>
      Keeps.transaction hN (Body.saveRow_within within_idle hW)

/-- The agent's lookups keep any contract. -/
theorem findRemote_keeps {agent : ConnectionAgent} {connection : Connection} :
    Keeps κ index C i φ (findRemote agent connection) := by
  unfold findRemote
  split_ifs
  · refine Keeps.bind answer_keeps fun remote => ?_
    split_ifs
    · exact Keeps.throw
    · exact Keeps.pure
  · unfold remoteByInvitation
    split_ifs
    · exact Keeps.throw
    · refine Keeps.bind answer_keeps fun found => ?_
      split_ifs
      · exact Keeps.throw
      · split
        · split_ifs
          · exact Keeps.throw
          · exact Keeps.pure
        · exact Keeps.throw
        · exact Keeps.throw

/-- So does resolving the identity. -/
theorem resolveRemoteIdentity_keeps {agent : ConnectionAgent} {selected : Option Uuid} :
    Keeps κ index C i φ (resolveRemoteIdentity agent tenantId id selected) := by
  refine Keeps.bind Keeps.select fun connection => ?_
  split
  · exact Keeps.throw
  · split_ifs
    · exact Keeps.throw
    · exact Keeps.throw
    · split
      · exact Keeps.throw
      · refine Keeps.bind answer_keeps fun _ => Keeps.bind findRemote_keeps fun remote => ?_
        split_ifs
        · exact Keeps.throw
        · exact Keeps.pure

/-- `W` lets a connection be bound to the agent's and moved forward. -/
structure Connection.Adoptable (W : Changes Key Row) : Prop where
  bound : ∀ id (c : Connection) connectorId remote,
    W.rel (.connection id) (some c) (some (c.bound connectorId remote))
  moved : ∀ id (c : Connection) state, c.state.rank < ConnectionState.rank state →
    W.rel (.connection id) (some c) (some { c with state })

/-- Adopting a connection's identity changes only the connection's row. -/
theorem resolveIdentity_keeps (hN : κ.Neutral W T) (hW : Connection.Adoptable W)
    {agent : ConnectionAgent} {connectorId : Uuid} :
    Keeps κ index C i φ (resolveIdentity i agent tenantId id connectorId) := by
  refine Keeps.bind resolveRemoteIdentity_keeps fun resolved => ?_
  dsimp only
  split_ifs
  · exact Keeps.pure
  · refine Keeps.bind (Keeps.transaction hN (reconcileRow_within within_idle
      (fun c => hW.bound id c _ _) (fun c => hW.moved id c) fun e he => by simp at he))
      fun adopted => ?_
    split
    · exact Keeps.throw
    · exact Keeps.pure

/-- So does reconciling a connection, with the notification that it was established. -/
theorem reconcile_keeps (hN : κ.Neutral W T) (hW : Connection.Adoptable W)
    (hT : ∀ tenantId event resource, T (.dispatch tenantId event resource))
    {agent : ConnectionAgent} {selected : Option Uuid} :
    Keeps κ index C i φ (reconcile i agent tenantId id selected) := by
  refine Keeps.bind resolveRemoteIdentity_keeps fun resolved => ?_
  dsimp only
  split_ifs
  · exact Keeps.throw
  · refine Keeps.bind (Keeps.transaction hN (reconcileRow_within within_idle
      (fun c => hW.bound id c _ _) (fun c => hW.moved id c) fun e he => ?_)) fun adopted => ?_
    · obtain rfl := Option.some.inj he
      exact hT _ _ _
    · split
      · exact Keeps.throw
      · exact Keeps.pure

end Specs

end DigitalTrust
