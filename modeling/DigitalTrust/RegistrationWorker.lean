/-
# Registering a credential definition

`anoncreds-credential-definition-registration.worker.ts`.  One run looks for the schema and the
definition, publishes what is missing, and ends in one of three ways: the definition is ready, it
has failed, or the agent needs more time and a follow-up job is scheduled.

What the agent answers is a parameter of each run.  The run changes its own copy of the definition
and of the registration as it goes, and an error leaves these changes in place: `Worker` keeps the
copy below the errors.
-/
import DigitalTrust.OperationService

namespace DigitalTrust

open ReadCommitted Interleaving

/-! ## The agent -/

structure RegistrationSubmission where
  state : ArtifactState
  id : Option String
  jobId : Option String
  transactionId : Option String
  detail : Option String
  status : Option ℕ
  backendCode : Option String

/-- The agent's answers in one run, which makes each call at most once.  An axios error is a
`Failure.backend` with its status and the detail that `classifyFailure` gives. -/
structure RegistrationBackend where
  /-- `adapters.resolve`, and whether the adapter has a registration port -/
  resolve : Except Failure Bool
  resolveIssuer : Except Failure String
  resolveSchema : Except Failure Unit
  findSchema : Except Failure (Option String)
  publishSchema : Except Failure RegistrationSubmission
  findDefinition : Except Failure (Option String)
  publishDefinition : Except Failure RegistrationSubmission
  verifyRevocation : Except Failure Bool

/-! ## A run's own copy -/

structure RegistrationWork where
  tenantId : Uuid
  definitionId : Uuid
  definition : CredentialDefinition
  registration : DefinitionRegistration
  operationId : Uuid
  checks : ℕ

/-- A part of a run: it changes the copy, and what it has changed survives an error. -/
abbrev Worker := ExceptT (Exn Failure) (StateT RegistrationWork (Proc Db Label))

def Worker.query {α : Type} (p : Service α) : Worker α :=
  ExceptT.mk fun work => p.run >>= fun r => pure (r, work)

def Worker.change (f : RegistrationWork → RegistrationWork) : Worker Unit :=
  ExceptT.mk fun work => pure (.ok (), f work)

def Worker.work : Worker RegistrationWork := ExceptT.mk fun work => pure (.ok work, work)

/-- An answer of the agent, or its error. -/
def Worker.await {α : Type} (a : Except Failure α) : Worker α :=
  ExceptT.mk fun work => pure (a.mapError .thrown, work)

def Worker.raise {α : Type} (e : Failure) : Worker α := Worker.await (.error e)

def setStage (stage : String) : Worker Unit :=
  Worker.change fun work => { work with registration := { work.registration with stage } }

def setSchema (schema : ArtifactProgress) : Worker Unit :=
  Worker.change fun work => { work with registration := { work.registration with schema } }

def setDefinition (definition : ArtifactProgress) : Worker Unit :=
  Worker.change fun work => { work with registration := { work.registration with definition } }

def setExternalId (externalId : String) : Worker Unit :=
  Worker.change fun work => { work with definition := { work.definition with externalId } }

def setRegistrationState (registrationState : RegistrationState) : Worker Unit :=
  Worker.change fun work =>
    { work with definition := { work.definition with registrationState } }

/-! ## Writes -/

def maxWaitChecks : ℕ := 20

def classifyFailure : Exn Failure → String
  | .thrown (.backend _ _ detail) => detail
  | .thrown (.validation issue) => issue
  | _ => "AnonCreds registration could not be completed"

/-- The result that the run writes into its Operation. -/
def RegistrationWork.result (work : RegistrationWork) (failure : Option String) :
    OperationResult :=
  .registration work.definitionId work.definition.externalId failure

/-- The definition's row after `saveProgress`. -/
def RegistrationWork.progress (work : RegistrationWork) (row : CredentialDefinition) :
    CredentialDefinition :=
  { row with registration := some work.registration, externalId := work.definition.externalId }

/-- The definition's row after `persistOutcome`. -/
def RegistrationWork.outcome (work : RegistrationWork) (row : CredentialDefinition) :
    CredentialDefinition :=
  { work.progress row with registrationState := work.definition.registrationState }

def saveProgress (i : ℕ) : Worker Unit := do
  let work ← Worker.work
  Worker.query (transaction .step i do
    let affected ← update index .step i (.definition work.definitionId)
      (fun d => d.tenantId = work.tenantId && d.isActive) work.progress
    if affected then pure () else raise (.other "Credential definition is no longer active"))

def persistOutcome (i : ℕ) (state : OperationState) (failure : Option String)
    (scheduleFollowUp : Bool) : Worker Unit := do
  let work ← Worker.work
  Worker.query (transaction .step i do
    let _ ← update index (.registrationWrite work.definitionId work.operationId) i
      (.definition work.definitionId) (fun d => d.tenantId = work.tenantId) work.outcome
    transitionState .step i work.operationId work.tenantId state (some (work.result failure))
    if scheduleFollowUp && work.checks < maxWaitChecks then
      emit .step i (.register work.tenantId work.definitionId (work.checks + 1))
    else pure ())

def persistFailure (i : ℕ) (error : Exn Failure) (stage : String) : Worker Unit := do
  setStage stage
  setRegistrationState .failed
  persistOutcome i .failed (some (classifyFailure error)) false

def currentStage : Worker String := do
  let work ← Worker.work
  pure (work.registration.stage.getD "preflight")

def persistWaiting (i : ℕ) : Worker Unit := do
  let work ← Worker.work
  if maxWaitChecks ≤ work.checks then
    persistFailure i (.thrown (.backend none (some "REGISTRATION_TIMEOUT")
      "Registration did not become ready before the polling limit")) (← currentStage)
  else
    setRegistrationState .pending
    persistOutcome i .processing none true

def transitionOperation (i : ℕ) (state : OperationState) : Worker Unit := do
  let work ← Worker.work
  Worker.query (transaction .step i
    (transitionState .step i work.operationId work.tenantId state (some (work.result none))))

def failWithoutOperation (i : ℕ) (tenantId id : Uuid) : Service Unit :=
  transaction .step i do
    let _ ← update index .step i (.definition id) (fun d => d.tenantId = tenantId)
      fun d => { d with registrationState := .failed }
    pure ()

/-! ## Publishing -/

def ArtifactProgress.hasSubmission (progress : ArtifactProgress) : Bool :=
  progress.state ≠ some .failed &&
    (truthy progress.id || truthy progress.jobId || truthy progress.transactionId ||
      progress.state.isSome)

def RegistrationSubmission.toProgress (submission : RegistrationSubmission) : ArtifactProgress where
  id := submission.id.filter fun s => s ≠ ""
  jobId := submission.jobId.filter fun s => s ≠ ""
  transactionId := submission.transactionId.filter fun s => s ≠ ""
  state := some submission.state

def RegistrationSubmission.failure (submission : RegistrationSubmission) : Failure :=
  .backend submission.status (some (submission.backendCode.getD "REGISTRATION_REJECTED"))
    (submission.detail.getD "The backend rejected artifact publication")

def DefinitionOptions.publicationTag (options : DefinitionOptions) : String :=
  options.tag.getD "default"

/-- `definitionOptions(definition).status.revocation.enabled`. -/
def DefinitionOptions.revocationEnabled (options : DefinitionOptions) : Bool :=
  options.revocation.getD true

/-- A refusal that makes sure that nothing was published. -/
def Failure.refusesPublication : Failure → Bool
  | .backend (some status) _ _ =>
    400 ≤ status && status < 500 && status ≠ 408 && status ≠ 429
  | _ => false

def recordPublication (i : ℕ) (tenantId connectorId : Uuid) (artifact : Artifact)
    (state : PublicationIntent) : Worker Unit :=
  Worker.query (transaction .step i do
    let _ ← update index .step i (.intent tenantId connectorId artifact) (fun _ => true)
      fun _ => state
    pure ())

/-- The row that claims a publication: a new one, or one that was rejected. -/
def claimIntent : Option PublicationIntent → Option PublicationIntent
  | none => some .publishing
  | some .rejected => some .publishing
  | some _ => none

/-- `publishArtifact`; nothing is published while somebody else's claim is open. -/
def publishArtifact (i : ℕ) (artifact : Artifact)
    (publish : Except Failure RegistrationSubmission) : Worker (Option RegistrationSubmission) := do
  let work ← Worker.work
  match work.definition.connectorId with
  | none => Worker.raise (.validation "The registration connector is unavailable")
  | some connectorId =>
    let claimed ← Worker.query (transaction .step i
      (upsert index .step i (.intent work.tenantId connectorId artifact) claimIntent))
    if !claimed then pure none
    else
      Worker.query (record .step i (.call (.publish work.tenantId connectorId artifact)))
      match publish with
      | .error e =>
        if e.refusesPublication then
          recordPublication i work.tenantId connectorId artifact .rejected
        Worker.raise e
      | .ok submitted =>
        recordPublication i work.tenantId connectorId artifact
          (if submitted.state = .failed then .rejected else .submitted)
        pure (some submitted)

/-! ## One run -/

/-- The end of `advanceSchema`, with the answer to the publication. -/
def schemaSubmitted (i : ℕ) (submitted : Option RegistrationSubmission) :
    Worker (Option String) :=
  match submitted with
  | none => do
    setStage "awaiting_schema_discovery"
    pure none
  | some submitted => do
    setSchema submitted.toProgress
    saveProgress i
    if submitted.state = .failed then Worker.raise submitted.failure
    else if submitted.state ≠ .finished then
      setStage "awaiting_schema_endorsement"
      pure none
    else match submitted.id.filter fun s => s ≠ "" with
      | none => Worker.raise (.backend none (some "INVALID_REGISTRATION_RESPONSE")
          "Backend reported a completed schema without an ID")
      | some id => pure (some id)

/-- `advanceSchema`: the schema's identifier, or `none` while it is not there. -/
def advanceSchema (i : ℕ) (backend : RegistrationBackend) : Worker (Option String) := do
  let work ← Worker.work
  let progress := work.registration.schema
  if progress.state = some .finished then
    match progress.id.filter fun s => s ≠ "" with
    | none => Worker.raise (.validation "Completed schema registration has no resolvable ID")
    | some id =>
      setStage "schema_resolution"
      Worker.await backend.resolveSchema
      pure (some id)
  else
    setStage "schema_lookup"
    let found ← Worker.await backend.findSchema
    match found with
    | some id =>
      setSchema { progress with id := some id, state := some .finished }
      saveProgress i
      pure (some id)
    | none =>
      if progress.hasSubmission then
        setStage "awaiting_schema_endorsement"
        pure none
      else
        setStage "schema_publication"
        let submitted ← publishArtifact i
          (.schema work.registration.issuerId work.definition.schemaDefinition.schemaName
            work.definition.schemaDefinition.schemaVersion) backend.publishSchema
        schemaSubmitted i submitted

/-- The end of `advance`: the definition is there. -/
def finishRegistration (i : ℕ) (backend : RegistrationBackend) : Worker Unit := do
  let work ← Worker.work
  let ready ← if work.definition.options.revocationEnabled then do
      setStage "revocation_verification"
      Worker.await backend.verifyRevocation
    else pure true
  if ready then
    setStage "completed"
    setRegistrationState .ready
    persistOutcome i .completed none false
  else
    setStage "awaiting_revocation_registry"
    persistWaiting i

/-- `advance`, with the answer to the definition's publication. -/
def definitionSubmitted (i : ℕ) (backend : RegistrationBackend)
    (submitted : Option RegistrationSubmission) : Worker Unit :=
  match submitted with
  | none => do
    setStage "awaiting_definition_discovery"
    persistWaiting i
  | some submitted => do
    setDefinition submitted.toProgress
    if submitted.state = .failed then
      saveProgress i
      Worker.raise submitted.failure
    else if submitted.state ≠ .finished then
      setStage "awaiting_definition_endorsement"
      saveProgress i
      persistWaiting i
    else match submitted.id.filter fun s => s ≠ "" with
      | none => Worker.raise (.backend none (some "INVALID_REGISTRATION_RESPONSE")
          "Backend reported a completed credential definition without an ID")
      | some id =>
        setExternalId id
        saveProgress i
        finishRegistration i backend

/-- `advance`, once the schema is there. -/
def advanceDefinition (i : ℕ) (backend : RegistrationBackend) (schemaId : String) :
    Worker Unit := do
  setStage "definition_lookup"
  let work ← Worker.work
  let progress := work.registration.definition
  let found ← Worker.await backend.findDefinition
  match found.filter fun s => s ≠ "" with
  | some id =>
    setExternalId id
    setDefinition { progress with id := some id, state := some .finished }
    saveProgress i
    finishRegistration i backend
  | none =>
    if progress.hasSubmission then
      if progress.state = some .finished && !truthy progress.id then
        Worker.raise (.validation "Completed credential-definition registration has no ID")
      else
        setStage "awaiting_definition_endorsement"
        persistWaiting i
    else
      setStage "definition_publication"
      -- an empty schema identifier is refused only once the publication is claimed
      let submitted ← publishArtifact i
        (.definition work.registration.issuerId schemaId work.definition.options.publicationTag)
        (if schemaId = "" then .error (.validation "Credential definition requires a schema ID")
          else backend.publishDefinition)
      definitionSubmitted i backend submitted

def advance (i : ℕ) (backend : RegistrationBackend) : Worker Unit := do
  let schemaId ← advanceSchema i backend
  match schemaId.filter fun s => s ≠ "" with
  | none => persistWaiting i
  | some schemaId => advanceDefinition i backend schemaId

/-- The part of `process` whose errors are recorded. -/
def attemptRegistration (i : ℕ) (backend : RegistrationBackend) : Worker Unit := do
  let work ← Worker.work
  if !work.definition.isActive || work.definition.connectorId.isNone then
    Worker.raise (.validation "The credential definition or its connector is unavailable")
  else
    let hasPort ← Worker.await backend.resolve
    if !hasPort then
      Worker.raise
        (.validation "The selected connector does not support AnonCreds registration")
    else
      transitionOperation i .processing
      let issuerId ← Worker.await backend.resolveIssuer
      if issuerId ≠ work.registration.issuerId then
        Worker.raise (.validation "The configured issuer no longer matches")
      else advance i backend

/-- The rest of `process`, with its handler. -/
def register (i : ℕ) (backend : RegistrationBackend) : Worker Unit :=
  tryCatch (attemptRegistration i backend) fun error => do
    persistFailure i error (← currentStage)

def Worker.runOn {α : Type} (p : Worker α) (work : RegistrationWork) : Service α :=
  ExceptT.mk (p.run work >>= fun r => pure r.1)

/-- The definition that a job is about. -/
def pendingDefinition (tenantId id : Uuid) (d : Snapshot Key Row) : Option CredentialDefinition :=
  (d.row (.definition id)).filter fun x =>
    x.tenantId = tenantId && x.format = .anoncreds && x.registrationState = .pending

def process (i : ℕ) (backend : RegistrationBackend) (tenantId id : Uuid) (checks : ℕ) :
    Service Unit := do
  let found ← select .step (pendingDefinition tenantId id)
  match found with
  | none => pure ()
  | some definition =>
    match definition.registration, definition.registrationOperationId with
    | some registration, some operationId =>
      let operation ← findOperationForTenant operationId tenantId
      if operation.all fun op => op.state = .failed then failWithoutOperation i tenantId id
      else (register i backend).runOn ⟨tenantId, id, definition, registration, operationId, checks⟩
    | _, _ => failWithoutOperation i tenantId id

/-! ## A worker alone with the database -/

/-- Alone on `σ` and with this copy, the worker ends, and its result, its copy and what it
leaves satisfy `Q`. -/
def WorkerAlone {α : Type} (i : ℕ) (σ : Solo Key Row Event) (work : RegistrationWork)
    (p : Worker α)
    (Q : Except (Exn Failure) α → RegistrationWork → Solo Key Row Event → Prop) : Prop :=
  ∀ s, σ.In i s → ∃ s' r work', (p.run work).runAlone s = some (s', (r, work')) ∧
    ∃ σ', σ'.In i s' ∧ Q r work' σ'

namespace WorkerAlone

variable {α β : Type} {i : ℕ} {σ : Solo Key Row Event} {work : RegistrationWork}
  {Q : Except (Exn Failure) α → RegistrationWork → Solo Key Row Event → Prop}

theorem pure {a : α} (h : Q (.ok a) work σ) : WorkerAlone i σ work (Pure.pure a : Worker α) Q :=
  fun s hs => ⟨s, .ok a, work, rfl, σ, hs, h⟩

theorem post {Q' : Except (Exn Failure) α → RegistrationWork → Solo Key Row Event → Prop}
    {p : Worker α} (h : WorkerAlone i σ work p Q)
    (hQ : ∀ r work' σ', Q r work' σ' → Q' r work' σ') : WorkerAlone i σ work p Q' := by
  intro s hs
  obtain ⟨s', r, work', hrun, σ', hs', hr⟩ := h s hs
  exact ⟨s', r, work', hrun, σ', hs', hQ r work' σ' hr⟩

theorem change {f : RegistrationWork → RegistrationWork}
    {Q : Except (Exn Failure) Unit → RegistrationWork → Solo Key Row Event → Prop}
    (h : Q (.ok ()) (f work) σ) : WorkerAlone i σ work (Worker.change f) Q :=
  fun s hs => ⟨s, .ok (), f work, rfl, σ, hs, h⟩

theorem work_read
    {Q : Except (Exn Failure) RegistrationWork → RegistrationWork → Solo Key Row Event → Prop}
    (h : Q (.ok work) work σ) : WorkerAlone i σ work Worker.work Q :=
  fun s hs => ⟨s, .ok work, work, rfl, σ, hs, h⟩

theorem await {a : Except Failure α} (h : Q (a.mapError .thrown) work σ) :
    WorkerAlone i σ work (Worker.await a) Q :=
  fun s hs => ⟨s, _, work, rfl, σ, hs, h⟩

/-- A program against the database leaves the copy alone. -/
theorem query {p : Service α} (h : Alone i σ p fun r σ' => Q r work σ') :
    WorkerAlone i σ work (Worker.query p) Q := by
  intro s hs
  obtain ⟨s', r, hrun, σ', hs', hr⟩ := h s hs
  refine ⟨s', r, work, ?_, σ', hs', hr⟩
  change (p.run >>= fun r => Pure.pure (r, work)).runAlone s = _
  rw [Proc.runAlone_bind, hrun]
  rfl

/-- Sequencing: an error of the first part ends the whole. -/
theorem seq {p : Worker β} {g : β → Worker α}
    (h : WorkerAlone i σ work p fun r work' σ' => match r with
      | .ok b => WorkerAlone i σ' work' (g b) Q
      | .error e => Q (.error e) work' σ') : WorkerAlone i σ work (p >>= g) Q := by
  intro s hs
  obtain ⟨s', r, work', hrun, σ', hs', hr⟩ := h s hs
  have hbind : ((p >>= g).run work).runAlone s =
      (((p.run work).runAlone s).bind fun x => _) := Proc.runAlone_bind ..
  rw [hbind, hrun]
  cases r with
  | ok b => exact hr s' hs'
  | error e => exact ⟨s', .error e, work', rfl, σ', hs', hr⟩

/-- Handling an error: the copy is as the error has left it. -/
theorem tryCatch {p : Worker α} {g : Exn Failure → Worker α}
    (h : WorkerAlone i σ work p fun r work' σ' => match r with
      | .ok a => Q (.ok a) work' σ'
      | .error e => WorkerAlone i σ' work' (g e) Q) :
    WorkerAlone i σ work (MonadExcept.tryCatch p g) Q := by
  intro s hs
  obtain ⟨s', r, work', hrun, σ', hs', hr⟩ := h s hs
  have hcatch : ((MonadExcept.tryCatch p g : Worker α).run work).runAlone s =
      (((p.run work).runAlone s).bind fun x => _) := Proc.runAlone_bind ..
  rw [hcatch, hrun]
  cases r with
  | ok a => exact ⟨s', .ok a, work', rfl, σ', hs', hr⟩
  | error e => exact hr s' hs'

/-- A worker as a program of the service. -/
theorem runOn {p : Worker α} {Q : Except (Exn Failure) α → Solo Key Row Event → Prop}
    (h : WorkerAlone i σ work p fun r _ σ' => Q r σ') : Alone i σ (p.runOn work) Q := by
  intro s hs
  obtain ⟨s', r, work', hrun, σ', hs', hr⟩ := h s hs
  refine ⟨s', r, ?_, σ', hs', hr⟩
  change (p.run work >>= fun r => Pure.pure r.1).runAlone s = _
  rw [Proc.runAlone_bind, hrun]
  rfl

end WorkerAlone

/-! ## What a run leaves -/

/-- The checks of a follow-up job for the definition. -/
def followUp (tenantId id : Uuid) : Event → Option ℕ
  | .register t d checks => if t = tenantId ∧ d = id then some checks else none
  | _ => none

/-- The follow-up jobs that have been scheduled for the definition. -/
def followUps (tenantId id : Uuid) (p : Committed) : List ℕ :=
  p.trace.filterMap (followUp tenantId id)

/-- An AnonCreds definition of a tenant that is not deleted, which the unique index lets be.  Its
Operation, if there is one, is a registration with an expiry that the database takes. -/
structure Registrable (tenantId id : Uuid) (d : CredentialDefinition) (p : Committed) : Prop where
  row : p.row (.definition id) = some d
  tenant : d.tenantId = tenantId
  format : d.format = .anoncreds
  unclashed : ∀ id' d', id' ≠ id → p.row (.definition id') = some d' → d.clash d' = false
  operation : ∀ o op, d.registrationOperationId = some o → p.row (.operation o) = some op →
    op.type = .credentialDefinitionRegister
  owner : ∃ tenant, p.row (.tenant tenantId) = some tenant ∧ tenant.present = true ∧
    ∀ o op state, d.registrationOperationId = some o → p.row (.operation o) = some op →
      (op.expiresAt tenant state).isSome

/-- The worker changes nothing in the row that identifies the definition. -/
structure SameDefinition (d d' : CredentialDefinition) : Prop where
  tenantId : d'.tenantId = d.tenantId
  name : d'.name = d.name
  format : d'.format = d.format
  isActive : d'.isActive = d.isActive
  operationId : d'.registrationOperationId = d.registrationOperationId

variable {d : CredentialDefinition} {tenantId id connectorId : Uuid} {artifact : Artifact}
  {σ : Solo Key Row Event}

theorem SameDefinition.clash {d' other : CredentialDefinition} (h : SameDefinition d d') :
    d'.clash other = d.clash other := by
  simp only [CredentialDefinition.clash, h.tenantId, h.name, h.format, h.isActive]

theorem RegistrationWork.same_progress (work : RegistrationWork) (d : CredentialDefinition) :
    SameDefinition d (work.progress d) := ⟨rfl, rfl, rfl, rfl, rfl⟩

theorem RegistrationWork.same_outcome (work : RegistrationWork) (d : CredentialDefinition) :
    SameDefinition d (work.outcome d) := ⟨rfl, rfl, rfl, rfl, rfl⟩

/-- The definition can be registered after any write that leaves its identity, the other
definitions, the tenant and the identity of the Operations alone. -/
theorem Registrable.step {d' : CredentialDefinition} {p p' : Committed}
    (h : Registrable tenantId id d p) (hsame : SameDefinition d d')
    (hrow : p'.row (.definition id) = some d')
    (hothers : ∀ id', id' ≠ id → p'.row (.definition id') = p.row (.definition id'))
    (hback : ∀ o op, p'.row (.operation o) = some op →
      ∃ op₀ : Operation, p.row (.operation o) = some op₀ ∧ op₀.SameIdentity op)
    (howner : p'.row (.tenant tenantId) = p.row (.tenant tenantId)) :
    Registrable tenantId id d' p' where
  row := hrow
  tenant := hsame.tenantId.trans h.tenant
  format := hsame.format.trans h.format
  unclashed id' other hne hother := by
    rw [hsame.clash]
    exact h.unclashed id' other hne (hothers id' hne ▸ hother)
  operation o op ho hop := by
    obtain ⟨op₀, hop₀, hsameOp⟩ := hback o op hop
    rw [hsameOp.type]
    exact h.operation o op₀ (hsame.operationId ▸ ho) hop₀
  owner := by
    obtain ⟨tenant, hrow, hpresent, hexpires⟩ := h.owner
    refine ⟨tenant, howner.trans hrow, hpresent, fun o op state ho hop => ?_⟩
    obtain ⟨op₀, hop₀, hsameOp⟩ := hback o op hop
    rw [hsameOp.expiresAt]
    exact hexpires o op₀ state (hsame.operationId ▸ ho) hop₀

/-- The index has nothing against a definition that clashes with no other. -/
theorem definition_clashes_eq_false {view : Snapshot Key Row}
    (h : ∀ id' d', id' ≠ id → view.row (.definition id') = some d' → d.clash d' = false) :
    index.clashes (.definition id) d view = false := by
  refine Index.clashes_eq_false fun k d' hne hrow => ?_
  cases k with
  | definition id' => exact h id' d' (fun heq => hne (heq ▸ rfl)) hrow
  | _ => rfl

/-- The index does not look at registrations. -/
theorem operation_clashes_eq_false {op : Operation} {view : Snapshot Key Row}
    (h : op.type = .credentialDefinitionRegister) :
    index.clashes (.operation id) op view = false := by
  refine Index.clashes_eq_false fun k op' _ _ => ?_
  cases k with
  | operation id' => simp [index, Operation.clash, h, OperationType.isHolderAction]
  | _ => rfl

/-- The index does not look at publications. -/
theorem intent_clashes_eq_false {intent : PublicationIntent} {view : Snapshot Key Row} :
    index.clashes (.intent tenantId connectorId artifact) intent view = false := by
  exact Index.clashes_eq_false fun k _ _ _ => by cases k <;> rfl

/-- Moving a registration's Operation inside the transaction: it keeps its identity, and nothing
else changes. -/
theorem alone_transitionState {i : ℕ} {op : Operation} {tenant : TenantRow}
    {state : OperationState} {result : Option OperationResult} {l : Label}
    {Q : Except (Exn Failure) Unit → Solo Key Row Event → Prop}
    (hop : σ.row (.operation id) = some op) (htenant : op.tenantId = tenantId)
    (htype : op.type = .credentialDefinitionRegister)
    (howner : σ.pub.row (.tenant tenantId) = some tenant) (hpresent : tenant.present = true)
    (hexpires : (op.expiresAt tenant state).isSome)
    (h : ∀ (σ' : Solo Key Row Event) (op' : Operation), σ'.row (.operation id) = some op' →
      op.SameIdentity op' → (∀ k, k ≠ .operation id → σ'.row k = σ.row k) → σ'.pub = σ.pub →
      σ'.tx.events = σ.tx.events → Q (.ok ()) σ') :
    Alone i σ (transitionState l i id tenantId state result) Q := by
  subst htenant
  have hview : σ.view.row (.operation id) = some op := hop
  have hfound : forTenant op.tenantId (σ.view.row (.operation id)) = some op := by
    rw [hview, forTenant, Option.filter_some, if_pos (decide_eq_true rfl)]
  refine Alone.seq (Alone.selectIn ?_)
  simp only [hfound]
  refine Alone.seq (alone_computeExpiresAt howner hpresent (fun _ _ => ?_) fun hnone => ?_)
  · refine Alone.saveRow (Operation.save_self _ op) hop (operation_clashes_eq_false htype)
      (fun hsame => ?_) ?_
    · exact h σ op hop (.refl op) (fun _ _ => rfl) rfl rfl
    · exact h _ _ (Solo.row_write_self _) (op.moved_sameIdentity state result)
        (fun k hk => Solo.row_write_of_ne hk _) rfl rfl
  · rw [hnone] at hexpires
    cases hexpires

/-! ## The parts of a run -/

/-- What a run is about: the definition, its Operation, the checks made before, and the
follow-ups scheduled before. -/
structure RegistrationRun where
  tenantId : Uuid
  id : Uuid
  operationId : Uuid
  checks : ℕ
  jobs : List ℕ

namespace RegistrationRun

/-- The run is under way: the definition is pending, its Operation is there, and no follow-up
has been scheduled yet.  The copy is about the same rows. -/
structure Underway (x : RegistrationRun) (work : RegistrationWork) (σ : Solo Key Row Event) :
    Prop where
  tenantId : work.tenantId = x.tenantId
  definitionId : work.definitionId = x.id
  operationId : work.operationId = x.operationId
  checks : work.checks = x.checks
  idle : σ.Idle
  jobs : followUps x.tenantId x.id σ.pub = x.jobs
  definition : ∃ d, Registrable x.tenantId x.id d σ.pub ∧ d.registrationState = .pending ∧
    d.registrationOperationId = some x.operationId ∧ d.isActive = work.definition.isActive
  operation : ∃ op, σ.pub.row (.operation x.operationId) = some op ∧ op.tenantId = x.tenantId

/-- The run is under way on an active definition. -/
def Active (x : RegistrationRun) (work : RegistrationWork) (σ : Solo Key Row Event) : Prop :=
  x.Underway work σ ∧ work.definition.isActive = true

/-- The run is over: the definition is not pending any more, or there are checks left and one
follow-up is scheduled. -/
def Over (x : RegistrationRun) (σ : Solo Key Row Event) : Prop :=
  σ.Idle ∧ ∃ d, Registrable x.tenantId x.id d σ.pub ∧
    (d.registrationState ≠ .pending ∧ followUps x.tenantId x.id σ.pub = x.jobs ∨
      x.checks < maxWaitChecks ∧ followUps x.tenantId x.id σ.pub = x.jobs ++ [x.checks + 1])

/-- Started under way, the part ends; it keeps the run under way when it raises an error and
leads to `post` otherwise. -/
def Leads {α : Type} (x : RegistrationRun) (i : ℕ) (p : Worker α)
    (post : RegistrationWork → Solo Key Row Event → Prop) : Prop :=
  ∀ work σ, x.Active work σ → WorkerAlone i σ work p fun r work' σ' => match r with
    | .ok _ => post work' σ'
    | .error _ => x.Active work' σ'

/-! ### Rules -/

section Rules

variable {α β : Type} {x : RegistrationRun} {i : ℕ}
  {post : RegistrationWork → Solo Key Row Event → Prop}

theorem leads_pure {a : α} : x.Leads i (pure a : Worker α) x.Active :=
  fun _ _ h => WorkerAlone.pure h

theorem leads_raise {e : Failure} : x.Leads i (Worker.raise e : Worker α) post :=
  fun _ _ h => WorkerAlone.await h

theorem leads_await {a : Except Failure α} : x.Leads i (Worker.await a) x.Active := by
  intro work σ h
  cases a with
  | ok a => exact WorkerAlone.await h
  | error e => exact WorkerAlone.await h

/-- One part after the other. -/
theorem Leads.bind {p : Worker β} {g : β → Worker α} (hp : x.Leads i p x.Active)
    (hg : ∀ b, x.Leads i (g b) post) : x.Leads i (p >>= g) post := by
  intro work σ h
  refine WorkerAlone.seq ((hp work σ h).post fun r work' σ' hr => ?_)
  cases r with
  | ok b => exact hg b work' σ' hr
  | error e => exact hr

/-- A part that reads the copy. -/
theorem leads_work {g : RegistrationWork → Worker α}
    (hg : ∀ work, (∃ σ, x.Active work σ) → x.Leads i (g work) post) :
    x.Leads i (Worker.work >>= g) post :=
  fun work σ h => WorkerAlone.seq (WorkerAlone.work_read (hg work ⟨σ, h⟩ work σ h))

/-- A change of the copy that leaves alone what the run is about. -/
theorem leads_change {f : RegistrationWork → RegistrationWork}
    (hf : ∀ work σ, x.Active work σ → x.Active (f work) σ) :
    x.Leads i (Worker.change f) x.Active :=
  fun work σ h => WorkerAlone.change (hf work σ h)

/-- A part with a choice. -/
theorem leads_ite {c : Prop} [Decidable c] {p q : Worker α} (hp : x.Leads i p post)
    (hq : x.Leads i q post) : x.Leads i (if c then p else q) post := by
  by_cases h : c
  · rw [if_pos h]
    exact hp
  · rw [if_neg h]
    exact hq

/-- What is said of the copy does not depend on the registration, nor on the definition's
other columns. -/
theorem Underway.copy {work work' : RegistrationWork} (h : x.Underway work σ)
    (htenant : work'.tenantId = work.tenantId) (hid : work'.definitionId = work.definitionId)
    (hop : work'.operationId = work.operationId) (hchecks : work'.checks = work.checks)
    (hactive : work'.definition.isActive = work.definition.isActive) : x.Underway work' σ := by
  refine ⟨htenant.trans h.tenantId, hid.trans h.definitionId, hop.trans h.operationId,
    hchecks.trans h.checks, h.idle, h.jobs, ?_, h.operation⟩
  rw [hactive]
  exact h.definition

theorem Active.copy {work work' : RegistrationWork} (h : x.Active work σ)
    (htenant : work'.tenantId = work.tenantId) (hid : work'.definitionId = work.definitionId)
    (hop : work'.operationId = work.operationId) (hchecks : work'.checks = work.checks)
    (hactive : work'.definition.isActive = work.definition.isActive) : x.Active work' σ :=
  ⟨h.1.copy htenant hid hop hchecks hactive, hactive.trans h.2⟩

theorem leads_setStage {stage : String} : x.Leads i (setStage stage) x.Active :=
  leads_change fun _ _ h => h.copy rfl rfl rfl rfl rfl

theorem leads_setSchema {schema : ArtifactProgress} : x.Leads i (setSchema schema) x.Active :=
  leads_change fun _ _ h => h.copy rfl rfl rfl rfl rfl

theorem leads_setDefinition {definition : ArtifactProgress} :
    x.Leads i (setDefinition definition) x.Active :=
  leads_change fun _ _ h => h.copy rfl rfl rfl rfl rfl

theorem leads_setExternalId {externalId : String} :
    x.Leads i (setExternalId externalId) x.Active :=
  leads_change fun _ _ h => h.copy rfl rfl rfl rfl rfl

end Rules

/-! ### Saving progress -/

section Writes

variable {x : RegistrationRun} {i : ℕ} {σ : Solo Key Row Event} {work : RegistrationWork}

variable {σ' : Solo Key Row Event} {backend : RegistrationBackend}

/-- The run stays under way through a write that keeps the definition pending. -/
theorem Underway.write (h : x.Underway work σ) (hidle : σ'.Idle)
    (hjobs : followUps x.tenantId x.id σ'.pub = followUps x.tenantId x.id σ.pub)
    (hrow : ∀ d, σ.pub.row (.definition x.id) = some d →
      ∃ d', σ'.pub.row (.definition x.id) = some d' ∧ SameDefinition d d' ∧
        d'.registrationState = d.registrationState)
    (hothers : ∀ id', id' ≠ x.id → σ'.pub.row (.definition id') = σ.pub.row (.definition id'))
    (hback : ∀ o op, σ'.pub.row (.operation o) = some op →
      ∃ op₀ : Operation, σ.pub.row (.operation o) = some op₀ ∧ op₀.SameIdentity op)
    (hop : ∀ op, σ.pub.row (.operation x.operationId) = some op →
      ∃ op', σ'.pub.row (.operation x.operationId) = some op' ∧ op'.tenantId = op.tenantId)
    (howner : σ'.pub.row (.tenant x.tenantId) = σ.pub.row (.tenant x.tenantId)) :
    x.Underway work σ' := by
  obtain ⟨d, hreg, hpending, hoperation, hactive⟩ := h.definition
  obtain ⟨op, hoprow, htenant⟩ := h.operation
  obtain ⟨d', hrow', hsame, hstate⟩ := hrow d hreg.row
  obtain ⟨op', hoprow', htenant'⟩ := hop op hoprow
  exact ⟨h.tenantId, h.definitionId, h.operationId, h.checks, hidle, hjobs.trans h.jobs,
    ⟨d', hreg.step hsame hrow' hothers hback howner, hstate.trans hpending,
      hsame.operationId.trans hoperation, hsame.isActive.trans hactive⟩,
    ⟨op', hoprow', htenant'.trans htenant⟩⟩

/-- A commit that schedules nothing for the definition leaves its follow-ups alone. -/
theorem followUps_commit (tenantId id : Uuid) (i : ℕ) (σ : Solo Key Row Event) :
    followUps tenantId id (σ.commit i).pub =
      followUps tenantId id σ.pub ++ σ.tx.events.filterMap (followUp tenantId id) := by
  rw [followUps, followUps, ← List.filterMap_append]
  exact congrArg _ (Pub.trace_commit i σ.tx σ.pub)

/-- A commit that touches neither definitions nor Operations nor tenants keeps the run under
way. -/
theorem Underway.commit_other (h : x.Underway work σ)
    (hdefinition : ∀ id, σ'.row (.definition id) = σ.pub.row (.definition id))
    (hoperation : ∀ id, σ'.row (.operation id) = σ.pub.row (.operation id))
    (howner : ∀ id, σ'.row (.tenant id) = σ.pub.row (.tenant id)) (hpub : σ'.pub = σ.pub)
    (hevents : σ'.tx.events = []) : x.Underway work (σ'.commit i) := by
  refine h.write rfl ?_ (fun d hd => ⟨d, (hdefinition _).trans hd, ⟨rfl, rfl, rfl, rfl, rfl⟩, rfl⟩)
    (fun id' _ => hdefinition id') (fun o op hop => ⟨op, (hoperation o).symm.trans hop, .refl op⟩)
    (fun op hop => ⟨op, (hoperation _).trans hop, rfl⟩) (howner _)
  rw [followUps_commit, hevents, hpub, List.filterMap_nil, List.append_nil]

/-- `saveProgress`. -/
theorem leads_saveProgress : x.Leads i (saveProgress i) x.Active := by
  intro work σ h
  obtain ⟨hrun, hact⟩ := h
  obtain ⟨d, hreg, -, -, hactive⟩ := hrun.definition
  have hrow : σ.row (.definition work.definitionId) = some d := by
    rw [hrun.idle.row, hrun.definitionId, hreg.row]
  refine WorkerAlone.seq (WorkerAlone.work_read (WorkerAlone.query (Alone.transaction
    (Alone.seq (Alone.update_hit hrow ?_ ?_ (Alone.pure ?_))))))
  · simp [hreg.tenant, hrun.tenantId, hactive, hact]
  · refine definition_clashes_eq_false fun id' d' hne hd' => ?_
    rw [(work.same_progress d).clash]
    exact hreg.unclashed id' d' (hrun.definitionId ▸ hne) ((hrun.idle.row _).symm.trans hd')
  · refine ⟨hrun.write rfl ?_ ?_ ?_ ?_ ?_ ?_, hact⟩
    · rw [followUps_commit]
      have hnone : (σ.write (.definition work.definitionId)
          (some (work.progress d))).tx.events = [] := by
        change σ.tx.events = []
        rw [hrun.idle]
        rfl
      rw [hnone, List.filterMap_nil, List.append_nil]
      rfl
    · intro d₀ hd₀
      obtain rfl : d = d₀ := Option.mem_unique hreg.row hd₀
      refine ⟨work.progress d, ?_, work.same_progress d, rfl⟩
      rw [Solo.pub_row_commit, ← hrun.definitionId]
      exact Solo.row_write_self _
    · intro id' hne
      rw [Solo.pub_row_commit, Solo.row_write_of_ne (by simpa [hrun.definitionId] using hne),
        hrun.idle.row]
    · intro o op hop
      rw [Solo.pub_row_commit, Solo.row_write_of_ne (by simp), hrun.idle.row] at hop
      exact ⟨op, hop, .refl op⟩
    · intro op hop
      refine ⟨op, ?_, rfl⟩
      rw [Solo.pub_row_commit, Solo.row_write_of_ne (by simp), hrun.idle.row, hop]
    · rw [Solo.pub_row_commit, Solo.row_write_of_ne (by simp), hrun.idle.row]

/-- `transitionOperation`. -/
theorem leads_transitionOperation {state : OperationState} :
    x.Leads i (transitionOperation i state) x.Active := by
  intro work σ h
  obtain ⟨hrun, hact⟩ := h
  obtain ⟨d, hreg, -, hoperation, -⟩ := hrun.definition
  obtain ⟨op, hop, htenant⟩ := hrun.operation
  obtain ⟨tenant, howner, hpresent, hexpires⟩ := hreg.owner
  have hrow : σ.row (.operation work.operationId) = some op := by
    rw [hrun.idle.row, hrun.operationId, hop]
  refine WorkerAlone.seq (WorkerAlone.work_read (WorkerAlone.query (Alone.transaction
    (alone_transitionState hrow (htenant.trans hrun.tenantId.symm)
      (hreg.operation _ op hoperation hop) (hrun.tenantId.symm ▸ howner) hpresent
      (hexpires _ op state hoperation hop) fun σ' op' hop' hsame hrest hpub hevents => ?_))))
  have hother : ∀ k, k ≠ .operation work.operationId → (σ'.commit i).pub.row k = σ.pub.row k :=
    fun k hk => ((Solo.pub_row_commit i k).trans (hrest k hk)).trans (hrun.idle.row k)
  refine ⟨hrun.write rfl ?_ ?_ (fun id' _ => hother _ (by simp)) ?_ ?_ (hother _ (by simp)), hact⟩
  · rw [followUps_commit, hevents, hrun.idle, hpub]
    exact List.append_nil _
  · intro d₀ hd₀
    exact ⟨d₀, (hother _ (by simp)).trans hd₀, ⟨rfl, rfl, rfl, rfl, rfl⟩, rfl⟩
  · intro o op₁ hop₁
    by_cases ho : o = x.operationId
    · subst ho
      rw [Solo.pub_row_commit, ← hrun.operationId, hop'] at hop₁
      exact ⟨op, hop, Option.some.inj hop₁ ▸ hsame⟩
    · rw [hother _ (by simpa [hrun.operationId] using ho)] at hop₁
      exact ⟨op₁, hop₁, .refl op₁⟩
  · intro op₀ hop₀
    obtain rfl : op = op₀ := Option.mem_unique hop hop₀
    refine ⟨op', ?_, hsame.tenantId⟩
    rw [Solo.pub_row_commit, ← hrun.operationId]
    exact hop'

/-- `persistOutcome`: the row takes the state of the copy, and a follow-up is scheduled if one
is asked for and there are checks left. -/
theorem alone_persistOutcome (h : x.Underway work σ) (state : OperationState)
    (failure : Option String) (scheduleFollowUp : Bool) :
    WorkerAlone i σ work (persistOutcome i state failure scheduleFollowUp) fun r _ σ' =>
      r = .ok () ∧ σ'.Idle ∧ ∃ d, Registrable x.tenantId x.id d σ'.pub ∧
        d.registrationState = work.definition.registrationState ∧
        followUps x.tenantId x.id σ'.pub =
          x.jobs ++
            if scheduleFollowUp && x.checks < maxWaitChecks then [x.checks + 1] else [] := by
  obtain ⟨d, hreg, -, hoperation, -⟩ := h.definition
  obtain ⟨op, hop, htenant⟩ := h.operation
  obtain ⟨tenant, howner, hpresent, hexpires⟩ := hreg.owner
  have hrow : σ.row (.definition work.definitionId) = some d := by
    rw [h.idle.row, h.definitionId, hreg.row]
  refine WorkerAlone.seq (WorkerAlone.work_read (WorkerAlone.query (Alone.transaction
    (Alone.seq (Alone.update_hit hrow ?_ ?_ ?_)))))
  · simp [hreg.tenant, h.tenantId]
  · refine definition_clashes_eq_false fun id' d' hne hd' => ?_
    rw [(work.same_outcome d).clash]
    exact hreg.unclashed id' d' (h.definitionId ▸ hne) ((h.idle.row _).symm.trans hd')
  set σ₁ := σ.write (.definition work.definitionId) (some (work.outcome d)) with hσ₁
  have hrow₁ : σ₁.row (.operation work.operationId) = some op := by
    rw [hσ₁, Solo.row_write_of_ne (by simp), h.idle.row, h.operationId, hop]
  refine Alone.seq (alone_transitionState hrow₁ (htenant.trans h.tenantId.symm)
    (hreg.operation _ op hoperation hop) (h.tenantId.symm ▸ howner) hpresent
    (hexpires _ op state hoperation hop) fun σ₂ op' hop' hsame hrest hpub hevents => ?_)
  -- what the transaction has written when it commits, with or without a follow-up
  have hregistrable : ∀ p' : Committed, (∀ k, p'.row k = σ₂.row k) →
      Registrable x.tenantId x.id (work.outcome d) p' := by
    intro p' hp'
    refine hreg.step (work.same_outcome d) ?_ ?_ ?_ ?_
    · rw [hp', hrest _ (by simp), hσ₁, ← h.definitionId]
      exact Solo.row_write_self _
    · intro id' hne
      rw [hp', hrest _ (by simp), hσ₁,
        Solo.row_write_of_ne (by simpa [h.definitionId] using hne), h.idle.row]
    · intro o op₁ hop₁
      rw [hp'] at hop₁
      by_cases ho : o = x.operationId
      · subst ho
        rw [← h.operationId, hop'] at hop₁
        exact ⟨op, hop, Option.some.inj hop₁ ▸ hsame⟩
      · rw [hrest _ (by simpa [h.operationId] using ho), hσ₁, Solo.row_write_of_ne (by simp),
          h.idle.row] at hop₁
        exact ⟨op₁, hop₁, .refl op₁⟩
    · rw [hp', hrest _ (by simp), hσ₁, Solo.row_write_of_ne (by simp), h.idle.row]
  have hnone : σ₂.tx.events = [] := by
    rw [hevents]
    change σ.tx.events = []
    rw [h.idle]
    rfl
  have hpub₂ : σ₂.pub = σ.pub := hpub
  rw [h.checks]
  split_ifs with hfollow
  · refine Alone.emit ⟨rfl, rfl, _, hregistrable _ fun _ => rfl, rfl, ?_⟩
    have hpushed : (σ₂.push (.register work.tenantId work.definitionId
        (x.checks + 1))).tx.events = [.register x.tenantId x.id (x.checks + 1)] := by
      change σ₂.tx.events ++ [_] = _
      rw [hnone, h.tenantId, h.definitionId]
      rfl
    rw [followUps_commit, hpushed]
    change followUps x.tenantId x.id σ₂.pub ++ _ = _
    rw [hpub₂, h.jobs]
    simp [followUp]
  · refine Alone.pure ⟨rfl, rfl, _, hregistrable _ fun _ => rfl, rfl, ?_⟩
    rw [followUps_commit, hnone, hpub₂, h.jobs]
    rfl

/-- A state is set and persisted. -/
theorem alone_settle (h : x.Underway work σ) (registrationState : RegistrationState)
    (state : OperationState) (failure : Option String) (scheduleFollowUp : Bool) :
    WorkerAlone i σ work (do
      setRegistrationState registrationState
      persistOutcome i state failure scheduleFollowUp) fun r _ σ' =>
        r = .ok () ∧ σ'.Idle ∧ ∃ d, Registrable x.tenantId x.id d σ'.pub ∧
          d.registrationState = registrationState ∧
          followUps x.tenantId x.id σ'.pub =
            x.jobs ++
              if scheduleFollowUp && x.checks < maxWaitChecks then [x.checks + 1] else [] := by
  have hset : x.Underway
      { work with definition := { work.definition with registrationState } } σ :=
    h.copy rfl rfl rfl rfl rfl
  exact WorkerAlone.seq (WorkerAlone.change
    (alone_persistOutcome hset state failure scheduleFollowUp))

/-- A run that sets a final state is over. -/
theorem alone_conclude (h : x.Underway work σ) {registrationState : RegistrationState}
    (hfinal : registrationState ≠ .pending) (state : OperationState) (failure : Option String) :
    WorkerAlone i σ work (do
      setRegistrationState registrationState
      persistOutcome i state failure false) fun r _ σ' => r = .ok () ∧ x.Over σ' := by
  refine (alone_settle h registrationState state failure false).post fun r _ σ' hr => ?_
  obtain ⟨hok, hidle, d, hreg, hstate, hjobs⟩ := hr
  refine ⟨hok, hidle, d, hreg, Or.inl ⟨hstate.symm ▸ hfinal, ?_⟩⟩
  simpa using hjobs

/-- `persistFailure` ends the run. -/
theorem alone_persistFailure (h : x.Underway work σ) (error : Exn Failure) (stage : String) :
    WorkerAlone i σ work (persistFailure i error stage) fun r _ σ' => r = .ok () ∧ x.Over σ' := by
  have hstage : x.Underway
      { work with registration := { work.registration with stage := some stage } } σ :=
    h.copy rfl rfl rfl rfl rfl
  exact WorkerAlone.seq (WorkerAlone.change (alone_conclude hstage (by simp) _ _))

/-- `persistWaiting` ends the run. -/
theorem leads_persistWaiting : x.Leads i (persistWaiting i) fun _ σ => x.Over σ := by
  intro work σ h
  refine WorkerAlone.seq (WorkerAlone.work_read ?_)
  dsimp only
  split_ifs with hlimit
  · refine WorkerAlone.seq (WorkerAlone.seq (WorkerAlone.work_read (WorkerAlone.pure ?_)))
    refine (alone_persistFailure h.1 _ _).post fun r _ σ' hr => ?_
    obtain ⟨rfl, hover⟩ := hr
    exact hover
  · have hchecks : x.checks < maxWaitChecks := by
      rw [← h.1.checks]
      omega
    refine (alone_settle h.1 .pending .processing none true).post fun r _ σ' hr => ?_
    obtain ⟨rfl, hidle, d, hreg, -, hjobs⟩ := hr
    refine ⟨hidle, d, hreg, Or.inr ⟨hchecks, ?_⟩⟩
    simpa [hchecks] using hjobs

/-- A change of the intents keeps the run under way. -/
theorem Active.commit_intent (h : x.Active work σ)
    (hrest : ∀ k, (∀ t c a, k ≠ .intent t c a) → σ'.row k = σ.row k) (hpub : σ'.pub = σ.pub)
    (hevents : σ'.tx.events = σ.tx.events) : x.Active work (σ'.commit i) := by
  refine ⟨h.1.commit_other (fun id => ?_) (fun id => ?_) (fun id => ?_) hpub ?_, h.2⟩
  · exact (hrest _ (by simp)).trans (h.1.idle.row _)
  · exact (hrest _ (by simp)).trans (h.1.idle.row _)
  · exact (hrest _ (by simp)).trans (h.1.idle.row _)
  · rw [hevents, h.1.idle]
    rfl

/-- `recordPublication`. -/
theorem leads_recordPublication {state : PublicationIntent} :
    x.Leads i (recordPublication i tenantId connectorId artifact state) x.Active := by
  intro work σ h
  refine WorkerAlone.query (Alone.transaction (Alone.seq ?_))
  cases hrow : σ.row (.intent tenantId connectorId artifact) with
  | none =>
    refine Alone.update_miss (fun v hv => ?_)
      (Alone.pure (h.commit_intent (fun _ _ => rfl) rfl rfl))
    rw [hrow] at hv
    simp at hv
  | some intent =>
    refine Alone.update_hit hrow rfl intent_clashes_eq_false (Alone.pure ?_)
    exact h.commit_intent (fun k hk => Solo.row_write_of_ne (hk _ _ _) _) rfl rfl

/-- The claim of a publication. -/
theorem leads_claimIntent :
    x.Leads i (Worker.query (transaction .step i
      (upsert index .step i (.intent tenantId connectorId artifact) claimIntent))) x.Active := by
  intro work σ h
  refine WorkerAlone.query (Alone.transaction ?_)
  cases hclaim : claimIntent (σ.row (.intent tenantId connectorId artifact)) with
  | none => exact Alone.upsert_none hclaim (h.commit_intent (fun _ _ => rfl) rfl rfl)
  | some intent =>
    refine Alone.upsert_some hclaim intent_clashes_eq_false ?_
    refine h.commit_intent (fun k hk => ?_) ?_ ?_
    · rw [Solo.row_write_of_ne (hk _ _ _)]
      split_ifs <;> rfl
    · split_ifs <;> rfl
    · split_ifs <;> rfl

/-! ### Publishing -/

/-- A call to the agent. -/
theorem leads_call {c : Call} :
    x.Leads i (Worker.query (record .step i (.call c))) x.Active := by
  intro work σ h
  refine WorkerAlone.query
    (Alone.record ⟨h.1.write h.1.idle ?_ ?_ (fun _ _ => rfl) ?_ ?_ rfl, h.2⟩)
  · rw [followUps, followUps]
    change ((σ.pub.commit i (Tx.empty.push (.call c))).trace).filterMap _ = _
    rw [Pub.trace_commit, List.filterMap_append]
    exact List.append_nil _
  · exact fun d hd => ⟨d, hd, ⟨rfl, rfl, rfl, rfl, rfl⟩, rfl⟩
  · exact fun o op hop => ⟨op, hop, .refl op⟩
  · exact fun op hop => ⟨op, hop, rfl⟩

/-- `publishArtifact`, whatever the agent answers. -/
theorem leads_publishArtifact {publish : Except Failure RegistrationSubmission} :
    x.Leads i (publishArtifact i artifact publish) x.Active := by
  refine leads_work fun work _ => ?_
  cases work.definition.connectorId with
  | none => exact leads_raise
  | some connectorId =>
    refine leads_claimIntent.bind fun claimed => ?_
    cases claimed with
    | false => exact leads_pure
    | true =>
      refine leads_call.bind fun _ => ?_
      cases publish with
      | error e =>
        dsimp only
        split_ifs
        · exact leads_recordPublication.bind fun _ => leads_raise
        · exact leads_raise
      | ok submitted => exact leads_recordPublication.bind fun _ => leads_pure

/-- The end of `advanceSchema`, with the answer to the publication. -/
theorem leads_schemaSubmitted (submitted : Option RegistrationSubmission) :
    x.Leads i (schemaSubmitted i submitted) x.Active := by
  cases submitted with
  | none => exact leads_setStage.bind fun _ => leads_pure
  | some submitted =>
    refine leads_setSchema.bind fun _ => leads_saveProgress.bind fun _ =>
      leads_ite leads_raise (leads_ite (leads_setStage.bind fun _ => leads_pure) ?_)
    cases submitted.id.filter fun s => s ≠ "" with
    | none => exact leads_raise
    | some id => exact leads_pure

/-- `advanceSchema`. -/
theorem leads_advanceSchema : x.Leads i (advanceSchema i backend) x.Active := by
  refine leads_work fun work _ => leads_ite ?_ ?_
  · cases work.registration.schema.id.filter fun s => s ≠ "" with
    | none => exact leads_raise
    | some id => exact leads_setStage.bind fun _ => leads_await.bind fun _ => leads_pure
  · refine leads_setStage.bind fun _ => leads_await.bind fun found => ?_
    cases found with
    | some id => exact leads_setSchema.bind fun _ => leads_saveProgress.bind fun _ => leads_pure
    | none =>
      exact leads_ite (leads_setStage.bind fun _ => leads_pure)
        (leads_setStage.bind fun _ => leads_publishArtifact.bind leads_schemaSubmitted)

/-- The run ends with a definition that is ready. -/
theorem leads_ready :
    x.Leads i (do
      setStage "completed"
      setRegistrationState .ready
      persistOutcome i .completed none false) fun _ σ => x.Over σ := by
  refine leads_setStage.bind fun _ work σ h => ?_
  refine (alone_conclude h.1 (by simp) _ _).post fun r _ σ' hr => ?_
  obtain ⟨rfl, hover⟩ := hr
  exact hover

/-- The end of `advance`. -/
theorem leads_finishRegistration :
    x.Leads i (finishRegistration i backend) fun _ σ => x.Over σ := by
  have hend : ∀ ready : Bool, x.Leads i (if ready then do
        setStage "completed"
        setRegistrationState .ready
        persistOutcome i .completed none false
      else do
        setStage "awaiting_revocation_registry"
        persistWaiting i) fun _ σ => x.Over σ := by
    intro ready
    cases ready with
    | true => exact leads_ready
    | false => exact leads_setStage.bind fun _ => leads_persistWaiting
  refine leads_work fun work _ => ?_
  dsimp only
  split_ifs
  · exact (leads_setStage.bind fun _ => leads_await).bind hend
  · exact leads_pure.bind hend

/-- `advance`, with the answer to the definition's publication. -/
theorem leads_definitionSubmitted (submitted : Option RegistrationSubmission) :
    x.Leads i (definitionSubmitted i backend submitted) fun _ σ => x.Over σ := by
  cases submitted with
  | none => exact leads_setStage.bind fun _ => leads_persistWaiting
  | some submitted =>
    refine leads_setDefinition.bind fun _ => leads_ite ?_ (leads_ite ?_ ?_)
    · exact leads_saveProgress.bind fun _ => leads_raise
    · exact leads_setStage.bind fun _ => leads_saveProgress.bind fun _ => leads_persistWaiting
    · cases submitted.id.filter fun s => s ≠ "" with
      | none => exact leads_raise
      | some id =>
        exact leads_setExternalId.bind fun _ => leads_saveProgress.bind fun _ =>
          leads_finishRegistration

/-- `advance`, once the schema is there. -/
theorem leads_advanceDefinition (schemaId : String) :
    x.Leads i (advanceDefinition i backend schemaId) fun _ σ => x.Over σ := by
  refine leads_setStage.bind fun _ => leads_work fun work _ => leads_await.bind fun found => ?_
  cases found.filter fun s => s ≠ "" with
  | some id =>
    exact leads_setExternalId.bind fun _ => leads_setDefinition.bind fun _ =>
      leads_saveProgress.bind fun _ => leads_finishRegistration
  | none =>
    refine leads_ite (leads_ite leads_raise ?_) ?_
    · exact leads_setStage.bind fun _ => leads_persistWaiting
    · exact leads_setStage.bind fun _ => leads_publishArtifact.bind leads_definitionSubmitted

/-- `advance`. -/
theorem leads_advance : x.Leads i (advance i backend) fun _ σ => x.Over σ := by
  refine leads_advanceSchema.bind fun schemaId => ?_
  cases schemaId.filter fun s => s ≠ "" with
  | none => exact leads_persistWaiting
  | some schemaId => exact leads_advanceDefinition schemaId

/-- The part of `process` whose errors are recorded. -/
theorem alone_attemptRegistration (h : x.Underway work σ) :
    WorkerAlone i σ work (attemptRegistration i backend) fun r work' σ' => match r with
      | .ok _ => x.Over σ'
      | .error _ => x.Underway work' σ' := by
  refine WorkerAlone.seq (WorkerAlone.work_read ?_)
  dsimp only
  split_ifs with hunavailable
  · exact WorkerAlone.await h
  · simp only [Bool.or_eq_true, Bool.not_eq_true', not_or, Bool.not_eq_false] at hunavailable
    have hleads : x.Leads i (do
        let hasPort ← Worker.await backend.resolve
        if !hasPort then
          Worker.raise
            (.validation "The selected connector does not support AnonCreds registration")
        else
          transitionOperation i .processing
          let issuerId ← Worker.await backend.resolveIssuer
          if issuerId ≠ work.registration.issuerId then
            Worker.raise (.validation "The configured issuer no longer matches")
          else advance i backend) fun _ σ => x.Over σ := by
      refine leads_await.bind fun hasPort => ?_
      split_ifs
      · exact leads_raise
      · refine leads_transitionOperation.bind fun _ => leads_await.bind fun issuerId => ?_
        split_ifs
        · exact leads_raise
        · exact leads_advance
    refine (hleads work σ ⟨h, hunavailable.1⟩).post fun r work' σ' hr => ?_
    cases r with
    | ok a => exact hr
    | error e => exact hr.1

/-- A run that has found its definition and Operation ends, whatever the agent answers. -/
theorem alone_register (h : x.Underway work σ) :
    WorkerAlone i σ work (register i backend) fun r _ σ' => r = .ok () ∧ x.Over σ' := by
  refine WorkerAlone.tryCatch ((alone_attemptRegistration h).post fun r work' σ' hr => ?_)
  cases r with
  | ok a => exact ⟨rfl, hr⟩
  | error e =>
    refine WorkerAlone.seq (WorkerAlone.seq (WorkerAlone.work_read (WorkerAlone.pure ?_)))
    exact alone_persistFailure hr _ _

end Writes

end RegistrationRun

/-! ## A job and its follow-ups -/

section Chain

variable {i : ℕ} {tenantId id : Uuid}

/-- `failWithoutOperation`. -/
theorem alone_failWithoutOperation (hidle : σ.Idle) (h : Registrable tenantId id d σ.pub) :
    Alone i σ (failWithoutOperation i tenantId id) fun r σ' => r = .ok () ∧ σ'.Idle ∧
      ∃ d', Registrable tenantId id d' σ'.pub ∧ d'.registrationState ≠ .pending ∧
        followUps tenantId id σ'.pub = followUps tenantId id σ.pub := by
  have hrow : σ.row (.definition id) = some d := (hidle.row _).trans h.row
  have hsame : SameDefinition d { d with registrationState := .failed } := ⟨rfl, rfl, rfl, rfl, rfl⟩
  refine Alone.transaction (Alone.seq (Alone.update_hit hrow (decide_eq_true h.tenant) ?_
    (Alone.pure ⟨rfl, rfl, _, h.step hsame ?_ ?_ ?_ ?_, by simp, ?_⟩)))
  · refine definition_clashes_eq_false fun id' d' hne hd' => ?_
    rw [hsame.clash]
    exact h.unclashed id' d' hne ((hidle.row _).symm.trans hd')
  · exact Solo.row_write_self _
  · intro id' hne
    rw [Solo.pub_row_commit, Solo.row_write_of_ne (by simpa using hne), hidle.row]
  · intro o op hop
    rw [Solo.pub_row_commit, Solo.row_write_of_ne (by simp), hidle.row] at hop
    exact ⟨op, hop, .refl op⟩
  · rw [Solo.pub_row_commit, Solo.row_write_of_ne (by simp), hidle.row]
  · rw [RegistrationRun.followUps_commit]
    change followUps tenantId id σ.pub ++ σ.tx.events.filterMap _ = _
    rw [hidle]
    exact List.append_nil _

/-- How a run ends: without an error.  The definition is not pending any more, or there were checks
left and exactly one follow-up is scheduled. -/
def Ends (tenantId id : Uuid) (checks : ℕ) (σ : Solo Key Row Event) (r : Except (Exn Failure) Unit)
    (σ' : Solo Key Row Event) : Prop :=
  r = .ok () ∧ σ'.Idle ∧ ∃ d', Registrable tenantId id d' σ'.pub ∧
    (d'.registrationState ≠ .pending ∧
        followUps tenantId id σ'.pub = followUps tenantId id σ.pub ∨
      checks < maxWaitChecks ∧
        followUps tenantId id σ'.pub = followUps tenantId id σ.pub ++ [checks + 1])

/-- **One run**, whatever the agent answers. -/
theorem alone_process (hidle : σ.Idle) (h : Registrable tenantId id d σ.pub)
    (backend : RegistrationBackend) (checks : ℕ) :
    Alone i σ (process i backend tenantId id checks) (Ends tenantId id checks σ) := by
  have hfail : Alone i σ (failWithoutOperation i tenantId id) (Ends tenantId id checks σ) := by
    refine (alone_failWithoutOperation hidle h).post fun r σ' hr => ?_
    obtain ⟨hok, hidle', d', hreg, hstate, hjobs⟩ := hr
    exact ⟨hok, hidle', d', hreg, Or.inl ⟨hstate, hjobs⟩⟩
  refine Alone.seq (Alone.select ?_)
  change Alone i σ (match pendingDefinition tenantId id σ.now with
    | none => _
    | some definition => _) _
  have hrow : σ.now.row (.definition id) = some d := h.row
  by_cases hpending : d.registrationState = .pending
  · have hfound : pendingDefinition tenantId id σ.now = some d := by
      simp [pendingDefinition, hrow, Option.filter_some, h.tenant, h.format, hpending]
    rw [hfound]
    dsimp only
    cases hregistration : d.registration with
    | none => exact hfail
    | some registration =>
      cases hoperation : d.registrationOperationId with
      | none => exact hfail
      | some operationId =>
        refine Alone.seq (Alone.select ?_)
        dsimp only
        split_ifs with hgone
        · exact hfail
        · obtain ⟨op, hop, -⟩ : ∃ op, forTenant tenantId (σ.now.row (.operation operationId)) =
              some op ∧ op.state ≠ .failed := by
            cases hlookup : forTenant tenantId (σ.now.row (.operation operationId)) with
            | none => simp [hlookup] at hgone
            | some op => exact ⟨op, rfl, by simpa [hlookup] using hgone⟩
          obtain ⟨hoprow, htenant⟩ := Option.filter_eq_some_iff.mp hop
          have hunderway : RegistrationRun.Underway
              ⟨tenantId, id, operationId, checks, followUps tenantId id σ.pub⟩
              ⟨tenantId, id, d, registration, operationId, checks⟩ σ :=
            ⟨rfl, rfl, rfl, rfl, hidle, rfl, ⟨d, h, hpending, hoperation, rfl⟩,
              ⟨op, hoprow, of_decide_eq_true htenant⟩⟩
          refine WorkerAlone.runOn ((RegistrationRun.alone_register hunderway).post
            fun r _ σ' hr => ?_)
          obtain ⟨hok, hidle', d', hreg, hover⟩ := hr
          exact ⟨hok, hidle', d', hreg, hover⟩
  · have hnone : pendingDefinition tenantId id σ.now = none := by
      simp [pendingDefinition, hrow, Option.filter_some, hpending]
    rw [hnone]
    exact Alone.pure ⟨rfl, hidle, d, h, Or.inl ⟨hpending, rfl⟩⟩

/-- Run the jobs in turn, each followed by the jobs that it schedules.  The value is what was
scheduled, or `none` when the fuel is used up and jobs are left. -/
def runChain (i : ℕ) (backend : ℕ → RegistrationBackend) (tenantId id : Uuid) :
    ℕ → ℕ → List ℕ → Db → Option (List ℕ × Db)
  | _, _, [], s => some ([], s)
  | 0, _, _ :: _, _ => none
  | fuel + 1, n, checks :: jobs, s =>
    ((process i (backend n) tenantId id checks).run.runAlone s).bind fun r =>
      let scheduled := (followUps tenantId id r.1.pub).drop (followUps tenantId id s.pub).length
      (runChain i backend tenantId id fuel (n + 1) (jobs ++ scheduled) r.1).map fun rest =>
        (scheduled ++ rest.1, rest.2)

/-- A chain that starts with so many checks left ends within one run more than that. -/
theorem runChain_ends (backend : ℕ → RegistrationBackend) {fuel checks : ℕ}
    (hfuel : maxWaitChecks - checks < fuel) (n : ℕ) {s : Db} (hs : σ.In i s) (hidle : σ.Idle)
    (h : Registrable tenantId id d σ.pub) :
    ∃ scheduled s', runChain i backend tenantId id fuel n [checks] s = some (scheduled, s') ∧
      scheduled.length ≤ maxWaitChecks - checks ∧
      ∃ d', s'.pub.row (.definition id) = some d' ∧ d'.registrationState ≠ .pending := by
  -- on the fuel: a run that schedules a follow-up leaves one check less
  induction fuel generalizing checks n s σ d with
  | zero => omega
  | succ fuel ih =>
    obtain ⟨s₁, r, hrun, σ₁, hs₁, -, hidle₁, d₁, hreg₁, hover⟩ :=
      alone_process (i := i) hidle h (backend n) checks s hs
    rw [runChain, hrun, Option.bind_some, hs.pub, hs₁.pub]
    obtain ⟨hstate, hjobs⟩ | ⟨hchecks, hjobs⟩ := hover
    · refine ⟨[], s₁, ?_, Nat.zero_le _, d₁, hs₁.pub ▸ hreg₁.row, hstate⟩
      rw [hjobs, List.drop_length]
      simp [runChain]
    · have hnext : maxWaitChecks - (checks + 1) < fuel := by omega
      obtain ⟨scheduled, s', hchain, hlength, hfinal⟩ := ih hnext (n + 1) hs₁ hidle₁ hreg₁
      refine ⟨(checks + 1) :: scheduled, s', ?_, ?_, hfinal⟩
      · rw [hjobs, List.drop_left]
        simp only [List.nil_append, hchain, Option.map_some, List.singleton_append]
      · rw [List.length_cons]
        omega

end Chain

/-- **Registration chains end.**  Whatever the agent answers, a registration job of a tenant that is
not deleted and its follow-ups are at most `maxWaitChecks + 1` runs, schedule at most
`maxWaitChecks` follow-ups, and leave a definition that is not pending. -/
theorem registration_chain_ends (i : ℕ) (backend : ℕ → RegistrationBackend) (tenantId id : Uuid)
    (d : CredentialDefinition) (checks : ℕ) (s : Db) (hquiet : s.Quiet)
    (h : Registrable tenantId id d s.pub) :
    ∃ scheduled s',
      runChain i backend tenantId id (maxWaitChecks + 1) 0 [checks] s = some (scheduled, s') ∧
        scheduled.length ≤ maxWaitChecks ∧
        ∃ d', s'.pub.row (.definition id) = some d' ∧ d'.registrationState ≠ .pending := by
  have hidle : (⟨s.keys, s.pub, Tx.empty⟩ : Solo Key Row Event).Idle := rfl
  have hfuel : maxWaitChecks - checks < maxWaitChecks + 1 := by omega
  obtain ⟨scheduled, s', hchain, hlength, hfinal⟩ :=
    runChain_ends (i := i) backend hfuel 0 (hquiet.alone i) hidle h
  exact ⟨scheduled, s', hchain, hlength.trans (Nat.sub_le _ _), hfinal⟩

/-! ### A run -/

/-- A definition whose registration has just been asked for. -/
def newDefinition : CredentialDefinition where
  tenantId := 1
  name := "licence"
  format := .anoncreds
  schemaDefinition := ⟨some "licence", some "1.0", ""⟩
  externalId := none
  connectorId := some 2
  connectorType := .traction
  registrationState := .pending
  registrationOperationId := some 4
  options := ⟨none, none, ""⟩
  registration := some
    ⟨"did:example:issuer", ⟨none, none, none, none⟩, ⟨none, none, none, none⟩, none⟩
  status := .published
  isActive := true
  createdAt := 0

/-- The rows of a database with that definition, its Operation and its tenant. -/
def registrationRows (tenant : TenantRow) : List ((k : Key) × Row k) :=
  [⟨.definition 3, newDefinition⟩,
    ⟨.operation 4, (⟨1, none, none, .credentialDefinitionRegister, .pending, none, none, 0, none⟩ :
      Operation)⟩,
    ⟨.tenant 1, tenant⟩]

/-- The database with these rows. -/
def registrationDb (tenant : TenantRow) : Db :=
  Store.initial ((registrationRows tenant).map Sigma.fst) (Pub.ofRows (registrationRows tenant))

/-- An agent that takes the schema and then needs more time, forever. -/
def waitingBackend : RegistrationBackend where
  resolve := .ok true
  resolveIssuer := .ok "did:example:issuer"
  resolveSchema := .ok ()
  findSchema := .ok none
  publishSchema := .ok ⟨.wait, none, some "job", none, none, none, none⟩
  findDefinition := .ok none
  publishDefinition := .ok ⟨.wait, none, some "job", none, none, none, none⟩
  verifyRevocation := .ok false

theorem registration_chain_ends_waiting :
    ∃ scheduled s',
      runChain 0 (fun _ => waitingBackend) 1 3 (maxWaitChecks + 1) 0 [0]
          (registrationDb ⟨none, none⟩) = some (scheduled, s') ∧
      scheduled.length ≤ maxWaitChecks ∧
      ∃ d', s'.pub.row (.definition 3) = some d' ∧ d'.registrationState ≠ .pending := by
  refine registration_chain_ends 0 _ 1 3 newDefinition 0 _ ⟨fun _ => rfl, fun _ => rfl⟩
    ⟨rfl, rfl, rfl, fun id' d' hne hd' => ?_, fun o op ho hop => ?_,
      ⟨none, none⟩, rfl, rfl, fun o op state ho hop => ?_⟩
  · have hmem := Pub.mem_of_ofRows hd'
    simp only [registrationRows, List.mem_cons, List.not_mem_nil, or_false] at hmem
    rcases hmem with heq | heq | heq
    · exact absurd (by simpa using congrArg Sigma.fst heq) hne
    · exact absurd (congrArg Sigma.fst heq) (by simp)
    · exact absurd (congrArg Sigma.fst heq) (by simp)
  · obtain rfl : 4 = o := Option.some.inj ho
    obtain rfl := Option.some.inj hop
    rfl
  · obtain rfl : 4 = o := Option.some.inj ho
    obtain rfl := Option.some.inj hop
    cases state <;> decide +kernel

/-- **A definition that stays pending.**  The tenant has been deleted: the run fails, its failure
cannot be recorded either, and no follow-up comes. -/
theorem registration_left_pending :
    ∃ s', runChain 0 (fun _ => waitingBackend) 1 3 (maxWaitChecks + 1) 0 [0]
        (registrationDb ⟨none, some 0⟩) = some ([], s') ∧
      ∃ d' : CredentialDefinition, s'.pub.row (.definition 3) = some d' ∧
        d'.registrationState = .pending := by
  have hresult : (runChain 0 (fun _ => waitingBackend) 1 3 (maxWaitChecks + 1) 0 [0]
      (registrationDb ⟨none, some 0⟩)).map (fun r =>
        (r.1, (r.2.pub.row (.definition 3)).map CredentialDefinition.registrationState)) =
          some ([], some .pending) := by
    decide +kernel
  obtain ⟨⟨scheduled, s'⟩, hchain, hpair⟩ := Option.map_eq_some_iff.mp hresult
  obtain ⟨hscheduled, hstate⟩ := Prod.mk.inj hpair
  obtain rfl : scheduled = [] := hscheduled
  obtain ⟨d', hd', hpending⟩ := Option.map_eq_some_iff.mp hstate
  exact ⟨s', hchain, d', hd', hpending⟩

end DigitalTrust
