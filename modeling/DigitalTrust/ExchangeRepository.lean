/-
# Credentials and credential exchanges

The reads and writes of `credential/credential.repository.ts` and
`credential-exchange/credential-exchange.repository.ts`.

An exchange moves forward by rank (`STATE_RANK`); a failure is not taken once the
agent has issued.  `observe` is what every report of the agent does to the exchange
row, and the only place outside `CredentialExchangeService.issue` that writes
`issueSubmission`.
-/
import DigitalTrust.OperationService

namespace DigitalTrust

open ReadCommitted

/-! ## Credentials -/

/-- `findByExternalId` of the credential repository. -/
def findCredentialByExternalId (l : Label) (tenantId : Uuid) (externalId : String) :
    Service (Option (Uuid × Credential)) :=
  select l fun d =>
    (credentials (fun c => c.tenantId = tenantId && c.externalId = some externalId) d).head?

/-- `updateStateIfForward` of the credential repository; `externalId` is left alone when it
is missing. -/
def updateCredentialStateIfForward (i : ℕ) (id tenantId : Uuid) (state : CredentialState)
    (fromStates : List CredentialState) (externalId : Option String) : Service Bool :=
  update index .step i (.credential id) (fun c => c.tenantId = tenantId && c.state ∈ fromStates)
    fun c => { c with state, externalId := if externalId.isSome then externalId else c.externalId }

/-! ## The progress of an exchange -/

/-- `STATE_RANK`. -/
def ExchangeState.rank : ExchangeState → ℕ
  | .pending => 0
  | .agent .proposalSent => 1
  | .agent .offerSent => 2
  | .agent .offerReceived => 2
  | .agent .requestSent => 3
  | .agent .requestReceived => 3
  | .agent .credentialIssued => 4
  | .agent .credentialReceived => 4
  | .agent .done => 5
  | .agent .abandoned => 5
  | .failed => 5

/-- The exchange state that a normalised string names: `isExchangeState`. -/
def exchangeState? (state : String) : Option ExchangeState :=
  if state = "pending" then some .pending
  else if state = "failed" then some .failed
  else (CredentialExchangeState.values.find? fun s => s.name = state).map .agent

structure ExchangeTransition where
  exchangeId : Uuid
  origin : ExchangeState
  target : ExchangeState

def ExchangeState.isFailure : ExchangeState → Bool
  | .failed => true
  | .agent .abandoned => true
  | _ => false

/-- Whether `advance` takes `next`. -/
def ExchangeState.accepts (current next : ExchangeState) : Bool :=
  !(next.rank ≤ current.rank || next.isFailure && 4 ≤ current.rank)

/-- `advance`: the exchange's next state and the transition made. -/
def CredentialExchange.advance (exchange : CredentialExchange) (id : Uuid)
    (next : ExchangeState) : CredentialExchange × Option ExchangeTransition :=
  if exchange.state.accepts next then
    ({ exchange with state := next }, some ⟨id, exchange.state, next⟩)
  else (exchange, none)

def ExchangeState.isIssued : ExchangeState → Bool
  | .agent .credentialIssued => true
  | .agent .credentialReceived => true
  | .agent .done => true
  | _ => false

/-- A submission that has been made counts as submitted once the agent has issued. -/
def CredentialExchange.confirmSubmission (exchange : CredentialExchange) : CredentialExchange :=
  if exchange.state.isIssued && exchange.issueSubmission ≠ .notSubmitted then
    { exchange with issueSubmission := .submitted }
  else exchange

/-- What `observe` makes of the row it has locked. -/
def CredentialExchange.observed (exchange : CredentialExchange) (id : Uuid) (externalId : String)
    (state : String) : CredentialExchange × Option ExchangeTransition :=
  let bound := { exchange with externalId := some externalId }
  match exchangeState? state with
  | none => (bound, none)
  | some next =>
    let (advanced, transition) := bound.advance id next
    (advanced.confirmSubmission, transition)

/-! ## Repository -/

def lockExchange (i : ℕ) (tenantId id : Uuid) : Service (Option CredentialExchange) := do
  let found ← selectForUpdate (E := Event) (ε := Failure) Label.step i
    (fun id => Key.exchange id) fun d =>
      match (d.row (.exchange id)).filter fun x => x.tenantId = tenantId with
      | some _ => some id
      | none => none
  pure (found.map fun x => x.2)

def findExchangeForTenant (tenantId id : Uuid) : Service (Option CredentialExchange) :=
  select .step fun d => (d.row (.exchange id)).filter fun x => x.tenantId = tenantId

/-- The `UPDATE` of a `save`: the columns in which the entity differs from the row read. -/
def CredentialExchange.save (entity read current : CredentialExchange) : CredentialExchange where
  tenantId := saveColumn entity.tenantId read.tenantId current.tenantId
  connectorId := saveColumn entity.connectorId read.connectorId current.connectorId
  connectionId := saveColumn entity.connectionId read.connectionId current.connectionId
  role := saveColumn entity.role read.role current.role
  protocol := saveColumn entity.protocol read.protocol current.protocol
  format := saveColumn entity.format read.format current.format
  state := saveColumn entity.state read.state current.state
  externalId := saveColumn entity.externalId read.externalId current.externalId
  issueSubmission := saveColumn entity.issueSubmission read.issueSubmission current.issueSubmission
  issueOperationId :=
    saveColumn entity.issueOperationId read.issueOperationId current.issueOperationId

theorem CredentialExchange.save_self (entity read : CredentialExchange) :
    entity.save read read = entity := by
  simp [CredentialExchange.save, saveColumn_self]

/-- `save` of the exchange repository. -/
def saveExchange (i : ℕ) (id : Uuid) (entity : CredentialExchange) : Service Unit :=
  saveRow index .step .step i (.exchange id) entity entity.save

/-- `setSubmission`: outside any transaction, and only while the row is submitting. -/
def setSubmission (i : ℕ) (tenantId id : Uuid) (state : IssueSubmission) : Service Unit :=
  transaction .step i do
    let _ ← update index .step i (.exchange id)
      (fun x => x.tenantId = tenantId && x.issueSubmission = .submitting)
      fun x => { x with issueSubmission := state }
    pure ()

/-- The row that `observe` looks for. -/
def observedExchange (tenantId connectorId : Uuid) (externalId : String) (id : Option Uuid)
    (d : Snapshot Key Row) : Option Uuid :=
  match id with
  | some id =>
    match (d.row (.exchange id)).filter fun x =>
        x.tenantId = tenantId && x.connectorId = connectorId with
    | some _ => some id
    | none => none
  | none =>
    ((exchanges (fun x => x.tenantId = tenantId && x.connectorId = connectorId &&
      x.externalId = some externalId) d).head?).map fun x => x.1

def observe (i : ℕ) (tenantId connectorId : Uuid) (externalId state : String)
    (id : Option Uuid) : Service (Option ExchangeTransition) := do
  let found ← selectForUpdate (E := Event) (ε := Failure) Label.step i
    (fun id => Key.exchange id) (observedExchange tenantId connectorId externalId id)
  match found with
  | none => pure none
  | some ⟨x, exchange⟩ =>
    if truthy exchange.externalId && exchange.externalId ≠ some externalId then
      raise (.conflict "Exchange backend correlation changed")
    else
      saveExchange i x (exchange.observed x externalId (normalizeState state)).1
      pure (exchange.observed x externalId (normalizeState state)).2

/-! ## What an observation does to the row -/

/-- An observation binds the row to the agent's exchange and leaves its identity alone. -/
theorem observed_fixed (exchange : CredentialExchange) (id : Uuid) (externalId state : String) :
    (exchange.observed id externalId state).1.issueOperationId = exchange.issueOperationId ∧
      (exchange.observed id externalId state).1.tenantId = exchange.tenantId ∧
      (exchange.observed id externalId state).1.connectorId = exchange.connectorId := by
  unfold CredentialExchange.observed CredentialExchange.advance
    CredentialExchange.confirmSubmission
  cases exchangeState? state with
  | none => simp
  | some next =>
    dsimp only
    split_ifs <;> simp

/-- An observation never makes a submission nor takes one back. -/
theorem observed_submission (exchange : CredentialExchange) (id : Uuid)
    (externalId state : String) :
    (exchange.observed id externalId state).1.issueSubmission = .notSubmitted ↔
      exchange.issueSubmission = .notSubmitted := by
  unfold CredentialExchange.observed CredentialExchange.advance
    CredentialExchange.confirmSubmission
  cases exchangeState? state with
  | none => simp
  | some next =>
    dsimp only
    split_ifs with h₁ h₂ h₂ <;> simp_all

/-! ## What a transaction can count on -/

section Specs

variable {κ : StoreContract Key Row Event} {C : Label → Db → Prop} {i : ℕ} {χ : κ.TxAssert i}
  {m : Mine Key Row Event}

variable {id tenantId : Uuid}

/-- Locking an exchange of the tenant. -/
theorem body_lockExchange {Q : Option CredentialExchange → Mine Key Row Event → Prop}
    (hnone : Q none m)
    (hsome : ∀ s x, At κ index C i χ m .step s → (s.view i).row (.exchange id) = some x →
      x.tenantId = tenantId → Q (some x) (m.hold (.exchange id) (s.pub.row (.exchange id)))) :
    Body κ index C i χ m (lockExchange i tenantId id) Q := by
  refine Body.seq (Body.selectForUpdate (fun s hs _ => Body.pure hnone) fun s x v hs hx hv => ?_)
  split at hx
  · rename_i y hy
    obtain rfl : id = x := by simpa using hx
    obtain ⟨hr, hp⟩ := Option.filter_eq_some_iff.mp hy
    obtain rfl : v = y := Option.mem_unique hv hr
    exact Body.pure (hsome s v hs hv (by simpa using hp))
  · simp at hx

/-- An observation locks one exchange, if there is one, and makes it what `observed` says. -/
theorem body_observe {connectorId : Uuid} {externalId state : String} {id : Option Uuid}
    {Q : Option ExchangeTransition → Mine Key Row Event → Prop} (hnone : Q none m)
    (hsome : ∀ s x exchange, At κ index C i χ m .step s →
      observedExchange tenantId connectorId externalId id (s.view i) = some x →
      (s.view i).row (.exchange x) = some exchange →
      ∀ m', (m' = m.hold (.exchange x) (s.pub.row (.exchange x)) ∧
          (exchange.observed x externalId (normalizeState state)).1 = exchange ∨
        m' = (m.hold (.exchange x) (s.pub.row (.exchange x))).write (.exchange x)
          (some (exchange.observed x externalId (normalizeState state)).1)) →
        Q (exchange.observed x externalId (normalizeState state)).2 m') :
    Body κ index C i χ m (observe i tenantId connectorId externalId state id) Q := by
  refine Body.seq (Body.selectForUpdate (fun s hs _ => Body.pure hnone) fun s x v hs hx hv => ?_)
  dsimp only
  split_ifs
  · exact Body.throw
  · refine Body.seq (Body.saveRow (c := s.pub.row (.exchange x)) (CredentialExchange.save_self _ v)
      (by simp [Mine.hold]) ((hs.view _).symm.trans hv) (fun heq => ?_) fun hne => ?_)
    · exact Body.pure (hsome s x v hs hx hv _ (Or.inl ⟨rfl, heq⟩))
    · exact Body.pure (hsome s x v hs hx hv _ (Or.inr rfl))

variable {W : Changes Key Row} {T : Event → Prop}

/-- An observation changes an exchange's row only as `W` allows. -/
theorem observe_within {connectorId : Uuid} {externalId state : String} {id : Option Uuid}
    (hm : m.Within W T) (hW : ∀ x exchange, W.rel (.exchange x) (some exchange)
      (some (exchange.observed x externalId (normalizeState state)).1)) :
    Body κ index C i χ m (observe i tenantId connectorId externalId state id)
      fun _ m' => m'.Within W T := by
  refine body_observe hm fun s x exchange hs _ hx m' hm' => ?_
  rcases hm' with ⟨rfl, -⟩ | rfl
  · exact hm.hold hs
  · exact hm.write hs (by rw [hx]; exact hW x exchange)

/-- A guarded write of a Credential changes its row only as `W` allows. -/
theorem updateCredentialStateIfForward_within {state : CredentialState}
    {fromStates : List CredentialState} {externalId : Option String} (hm : m.Within W T)
    (hW : ∀ c, c.state ∈ fromStates → W.rel (.credential id) (some c) (some { c with
      state, externalId := if externalId.isSome then externalId else c.externalId })) :
    Body κ index C i χ m
      (updateCredentialStateIfForward i id tenantId state fromStates externalId)
      fun _ m' => m'.Within W T :=
  Body.update_within hm fun c hc => hW c (by simpa using (Bool.and_eq_true_iff.mp hc).2)

end Specs

end DigitalTrust
