/-
# Tenants and their connectors

`tenant.service.ts` with its repository, and the parts of `connector.service.ts` and
`connector.repository.ts` that decide which connectors a tenant has, statement by statement.  Most
writers lock the tenant's row before they look at it.  `updateStatus` does not: it reads the row,
checks the transition, and only then opens the transaction in which the entity is saved.
-/
import DigitalTrust.Authorization
import DigitalTrust.OperationService

namespace DigitalTrust.Tenancy

open Interleaving ReadCommitted

/-! ## Rows -/

inductive TenantStatus where
  | active
  | suspended
  | deactivated
  | pendingApproval
  | rejected
  deriving DecidableEq

def allowedStatusTransitions : TenantStatus → List TenantStatus
  | .active => [.suspended, .deactivated]
  | .suspended => [.active, .deactivated]
  | .deactivated => [.active]
  | .pendingApproval => []
  | .rejected => []

/-- A member of a tenant's configuration. -/
inductive ConfigValue where
  | null
  | text (s : String)
  | other (json : String)
  deriving DecidableEq

/-- `config` of a tenant: the members that the service reads or writes, and the others. -/
structure TenantConfig where
  defaultConnector : Option ConfigValue
  allowedFormats : Option String
  features : Option String
  others : String
  deriving DecidableEq

/-- A row of `tenant`. -/
structure Tenant where
  name : String
  description : Option String
  status : TenantStatus
  config : TenantConfig
  deactivatedAt : Option ℕ
  deletedAt : Option ℕ
  deriving DecidableEq

/-- A row of `connector`. -/
structure Connector where
  tenantId : Uuid
  active : Bool
  keyVersion : ℕ
  deriving DecidableEq

inductive Key where
  | tenant (id : Uuid)
  | connector (id : Uuid)
  deriving DecidableEq

abbrev Row : Key → Type
  | .tenant _ => Tenant
  | .connector _ => Connector

/-- What is sent with a commit: a job of the queue `tenant.status-change`. -/
inductive Event where
  | statusChange (tenantId : Uuid) (previousStatus status : TenantStatus)
  deriving DecidableEq

/-- Statements that can be told apart: the two statements of the save in `updateStatus`, with the
row as read; the deletion of a connector by its id as spelled; and the removal of a connector whose
registration failed. -/
inductive Label where
  | step
  | reloadForStatus (tenantId : Uuid) (read : Tenant)
  | saveStatus (tenantId : Uuid) (read : Tenant)
  | deleteConnector (tenantId : Uuid) (id : String)
  | discardConnector (id : Uuid)

abbrev Db := Store Key Row Event

abbrev Committed := Pub Key Row Event

abbrev Service := Prog Key Row Event Label Failure

def index : Index Key Row := ⟨fun _ _ _ _ => false, fun _ _ _ _ => rfl⟩

def raise {α : Type} (e : Failure) : Service α := throw (.thrown e)

/-- What the programs take from their surroundings: how a text is cast to `uuid`, how an id
is written, and the current version of the encryption key. -/
structure Surroundings where
  uuidOf : String → Option Uuid
  textOf : Uuid → String
  keyVersion : ℕ

/-! ## `tenant.repository.ts` -/

/-- A row that is not soft deleted. -/
def Tenant.present (t : Tenant) : Bool := t.deletedAt.isNone

def findById (id : Uuid) : Service (Option Tenant) :=
  select .step fun d => (d.row (.tenant id)).filter Tenant.present

def findByIdForUpdate (i : ℕ) (id : Uuid) : Service (Option Tenant) := do
  let found ← selectForUpdate (E := Event) (ε := Failure) Label.step i (fun id => Key.tenant id)
    fun d => if (d.row (.tenant id)).any Tenant.present then some id else none
  pure (found.map fun x => x.2)

/-- The `UPDATE` of a `save`: the columns in which the entity differs from the row read. -/
def Tenant.save (entity read current : Tenant) : Tenant where
  name := saveColumn entity.name read.name current.name
  description := saveColumn entity.description read.description current.description
  status := saveColumn entity.status read.status current.status
  config := saveColumn entity.config read.config current.config
  deactivatedAt := saveColumn entity.deactivatedAt read.deactivatedAt current.deactivatedAt
  deletedAt := saveColumn entity.deletedAt read.deletedAt current.deletedAt

theorem Tenant.save_self (entity read : Tenant) : entity.save read read = entity := by
  simp [Tenant.save, saveColumn_self]

/-- `update`: `manager.save(entity)` reads the row, then writes the columns that differ.  A row
that is gone is inserted again. -/
def saveTenant (reload write : Label) (i : ℕ) (id : Uuid) (entity : Tenant) : Service Unit :=
  saveRow index reload write i (.tenant id) entity entity.save

/-- Whether `config->>'default_connector' IS NULL`. -/
def TenantConfig.defaultUnset (c : TenantConfig) : Bool :=
  match c.defaultConnector with
  | none => true
  | some .null => true
  | some _ => false

/-- The guarded update of `setDefaultConnectorIfUnset`. -/
def writeDefaultConnectorIfUnset (i : ℕ) (tenantId : Uuid) (connectorId : String) : Service Bool :=
  update index .step i (.tenant tenantId) (fun t => t.config.defaultUnset)
    fun t => { t with config := { t.config with defaultConnector := some (.text connectorId) } }

/-! ## Connectors -/

/-- `assertResourceTenantOrNotFound`. -/
def mayAccess (auth : Option AuthContext) (tenantId : Uuid) : Bool :=
  auth.any fun a => isPlatformAdmin a.roles || a.tenantId = some tenantId

/-- The message of a connector that is not found. -/
def connectorNotFound (id : String) : Failure :=
  .notFound s!"Connector credential with ID '{id}' was not found."

section Connectors

variable (env : Surroundings) (i : ℕ)

/-- A parameter of a query as `uuid`; the database refuses other texts. -/
def castUuid (id : String) : Service Uuid :=
  match env.uuidOf id with
  | some c => pure c
  | none => throw .database

/-- `findByTenantAndIdForUpdate`. -/
def lockConnector (tenantId : Uuid) (id : Uuid) : Service (Option Connector) := do
  let found ← selectForUpdate (E := Event) (ε := Failure) Label.step i (fun id => Key.connector id)
    fun d => if (d.row (.connector id)).any fun c => c.tenantId = tenantId then some id else none
  pure (found.map fun x => x.2)

/-- `updateWithLock` with the rotation of `lazyRotateKeyIfNeeded`, inside a transaction. -/
def rotateKey (tenantId : Uuid) (id : Uuid) : Service Unit := do
  let current ← lockConnector i tenantId id
  match current with
  | none => pure ()
  | some current =>
    if current.keyVersion = env.keyVersion then pure ()
    else
      let _ ← update index .step i (.connector id) (fun c => c.tenantId = tenantId)
        fun c => { c with keyVersion := env.keyVersion }
      pure ()

/-- `lazyRotateKeyIfNeeded`; `run` is how the rotation is executed. -/
def lazyRotateKeyIfNeeded (run : Service Unit → Service Unit) (tenantId : Uuid) (id : Uuid)
    (connector : Connector) : Service Unit :=
  if connector.keyVersion = env.keyVersion then pure () else run (rotateKey env i tenantId id)

/-- `findById` of the connector service inside a transaction. -/
def findConnectorIn (tenantId : Uuid) (id : String) (auth : Option AuthContext) :
    Service Connector := do
  let c ← castUuid env id
  let found ← lockConnector i tenantId c
  match found with
  | none => raise (connectorNotFound id)
  | some connector =>
    if mayAccess auth connector.tenantId then do
      lazyRotateKeyIfNeeded env i (fun p => p) tenantId c connector
      pure connector
    else raise (connectorNotFound id)

/-- `findById` of the connector service outside any transaction. -/
def findConnector (tenantId : Uuid) (id : String) (auth : Option AuthContext) : Service Unit := do
  let c ← castUuid env id
  let found ← select .step fun d => d.row (.connector c)
  match found with
  | none => raise (connectorNotFound id)
  | some connector =>
    if connector.tenantId = tenantId ∧ mayAccess auth connector.tenantId then
      lazyRotateKeyIfNeeded env i (transaction .step i) tenantId c connector
    else raise (connectorNotFound id)

/-! ## `tenant.service.ts` -/

structure UpdateTenantDto where
  name : Option String
  description : Option String
  config : Option TenantConfig

/-- The check of a new default connector. -/
def assertActiveConnector (tenantId : Uuid) (id : String) (auth : Option AuthContext) :
    Service Unit := do
  let connector ← findConnectorIn env i tenantId id auth
  if connector.active then pure ()
  else raise (.conflict "default_connector is not active")

/-- The check of the default connector in a new configuration. -/
def assertDefaultConnector (tenantId : Uuid) (auth : Option AuthContext) :
    Option ConfigValue → Service Unit
  | none => pure ()
  | some .null => pure ()
  | some (.other _) => raise (.conflict "default_connector must be a connector ID")
  | some (.text id) => assertActiveConnector env i tenantId id auth

/-- The tenant's row, locked. -/
def requireTenant (id : Uuid) : Service Tenant := do
  let tenant ← findByIdForUpdate i id
  match tenant with
  | none => raise (.notFound "Tenant not found")
  | some tenant => pure tenant

def updateTenant (id : Uuid) (dto : UpdateTenantDto) (auth : Option AuthContext) : Service Unit :=
  transaction .step i do
    let tenant ← requireTenant i id
    let renamed := { tenant with
      name := dto.name.getD tenant.name
      description := dto.description.or tenant.description }
    match dto.config with
    | none => saveTenant .step .step i id renamed
    | some config =>
      assertDefaultConnector env i id auth config.defaultConnector
      saveTenant .step .step i id { renamed with config := config }

/-- `UpdateTenantConfigDto`; the default connector may be set to null. -/
structure UpdateTenantConfigDto where
  defaultConnector : Option (Option String)
  allowedFormats : Option String
  features : Option String

/-- A default connector of the DTO as a member of the configuration. -/
def configValue : Option String → ConfigValue
  | none => .null
  | some id => .text id

/-- The configuration with the members of the DTO. -/
def TenantConfig.merge (c : TenantConfig) (dto : UpdateTenantConfigDto) : TenantConfig where
  defaultConnector := (dto.defaultConnector.map configValue).or c.defaultConnector
  allowedFormats := dto.allowedFormats.or c.allowedFormats
  features := dto.features.or c.features
  others := c.others

def updateConfig (id : Uuid) (dto : UpdateTenantConfigDto) (auth : Option AuthContext) :
    Service Unit :=
  transaction .step i do
    let tenant ← requireTenant i id
    assertDefaultConnector env i id auth (dto.defaultConnector.map configValue)
    saveTenant .step .step i id { tenant with config := tenant.config.merge dto }

def setDefaultConnectorIfUnset (tenantId : Uuid) (connectorId : String)
    (auth : Option AuthContext) : Service Bool :=
  transaction .step i do
    let _ ← requireTenant i tenantId
    assertActiveConnector env i tenantId connectorId auth
    writeDefaultConnectorIfUnset i tenantId connectorId

def TenantStatus.name : TenantStatus → String
  | .active => "active"
  | .suspended => "suspended"
  | .deactivated => "deactivated"
  | .pendingApproval => "pending_approval"
  | .rejected => "rejected"

/-- The entity that `updateStatus` saves. -/
def Tenant.withStatus (t : Tenant) (status : TenantStatus) (now : ℕ) : Tenant :=
  { t with
    status := status
    deactivatedAt := if status = .deactivated then some now else none }

/-- The transaction of `updateStatus`: save the entity, enqueue the job. -/
def commitStatus (id : Uuid) (tenant : Tenant) (status : TenantStatus) (now : ℕ) : Service Unit :=
  transaction .step i do
    saveTenant (.reloadForStatus id tenant) (.saveStatus id tenant) i id
      (tenant.withStatus status now)
    emit .step i (.statusChange id tenant.status status)

/-- `updateStatus`; `now` is the time of the call. -/
def updateStatus (id : Uuid) (status : TenantStatus) (now : ℕ) : Service Unit := do
  let found ← findById id
  match found with
  | none => raise (.notFound "Tenant not found")
  | some tenant =>
    if status ∈ allowedStatusTransitions tenant.status then commitStatus i id tenant status now
    else
      let previous := tenant.status.name
      let target := status.name
      raise (.conflict s!"Cannot transition tenant from '{previous}' to '{target}'")

/-- `delete`: the row is only marked. -/
def deleteTenant (id : Uuid) (now : ℕ) : Service Unit := do
  let found ← findById id
  match found with
  | none => raise (.notFound "Tenant not found")
  | some _ =>
    let _ ← transaction .step i
      (update index .step i (.tenant id) (fun _ => true) fun t => { t with deletedAt := some now })
    pure ()

def restoreTenant (id : Uuid) : Service Unit := do
  let _ ← transaction .step i
    (update index .step i (.tenant id) (fun _ => true) fun t => { t with deletedAt := none })
  let found ← findById id
  match found with
  | none => raise (.notFound "Restore failed: Tenant not found after restore")
  | some _ => pure ()

/-! ## `connector.service.ts` -/

inductive ConnectorDeletionResult where
  | deleted
  | isDefault
  | notFound

def deleteUnlessDefault (tenantId : Uuid) (id : String) : Service ConnectorDeletionResult :=
  transaction .step i do
    let tenant ← findByIdForUpdate i tenantId
    match tenant with
    | none => pure .notFound
    | some tenant =>
      if tenant.config.defaultConnector = some (.text id) then pure .isDefault
      else
        let c ← castUuid env id
        let deleted ← delete index (.deleteConnector tenantId id) i (.connector c)
          fun x => x.tenantId = tenantId
        pure (if deleted then .deleted else .notFound)

/-- `delete`; `hasDependents` is whether credentials refer to the connector. -/
def deleteConnector (tenantId : Uuid) (id : String) (auth : Option AuthContext)
    (hasDependents : Bool) : Service Unit := do
  findConnector env i tenantId id auth
  if hasDependents then
    raise (.conflict "Cannot delete connector: credential records still reference it.")
  else
    let result ← deleteUnlessDefault env i tenantId id
    match result with
    | .deleted => pure ()
    | .isDefault => raise (.conflict
        "Cannot delete the default connector. Select a different default connector in tenant settings first.")
    | .notFound => raise (connectorNotFound id)

/-- How the registration of a webhook with the agent ends, and what the agent then says about
it: whether it is registered, or nothing. -/
inductive Registration where
  | notNeeded
  | registered
  | failed (error : Failure) (verified : Option Bool)

/-- `deleteOrLogFailure`. -/
def discardConnector (id : Uuid) : Service Unit :=
  tryCatch (do
    let _ ← transaction (.discardConnector id) i (delete index .step i (.connector id)
      fun _ => true)
    pure ()) fun _ => pure ()

/-- A connector whose registration failed is deleted again if the agent confirms that, and `create`
fails unless the agent has it registered. -/
def settleRegistration (id : Uuid) : Registration → Service Unit
  | .notNeeded => pure ()
  | .registered => pure ()
  | .failed _ (some true) => pure ()
  | .failed error none => raise error
  | .failed error (some false) => do
    discardConnector i id
    raise error

/-- `create`, from the check of the tenant on. -/
def createConnector (tenantId id : Uuid) (auth : Option AuthContext) (registration : Registration) :
    Service Unit := do
  let found ← findById tenantId
  match found with
  | none => raise (.notFound "Tenant not found")
  | some _ =>
    transaction .step i (insert index .step i (.connector id) ⟨tenantId, true, env.keyVersion⟩)
    settleRegistration i id registration
    let _ ← setDefaultConnectorIfUnset env i tenantId (env.textOf id) auth
    pure ()

end Connectors

/-! ## Requests -/

inductive Request where
  | update (id : Uuid) (dto : UpdateTenantDto) (auth : Option AuthContext)
  | updateConfig (id : Uuid) (dto : UpdateTenantConfigDto) (auth : Option AuthContext)
  | setDefaultConnectorIfUnset (tenantId : Uuid) (connectorId : String) (auth : Option AuthContext)
  | updateStatus (id : Uuid) (status : TenantStatus) (now : ℕ)
  | delete (id : Uuid) (now : ℕ)
  | restore (id : Uuid)
  | deleteConnector (tenantId : Uuid) (id : String) (auth : Option AuthContext)
      (hasDependents : Bool)
  | createConnector (tenantId id : Uuid) (auth : Option AuthContext) (registration : Registration)

def handler (env : Surroundings) : Request → ℕ → Service Unit
  | .update id dto auth, i => updateTenant env i id dto auth
  | .updateConfig id dto auth, i => updateConfig env i id dto auth
  | .setDefaultConnectorIfUnset tenantId connectorId auth, i => do
      let _ ← setDefaultConnectorIfUnset env i tenantId connectorId auth
      pure ()
  | .updateStatus id status now, i => updateStatus i id status now
  | .delete id now, i => deleteTenant i id now
  | .restore id, i => restoreTenant i id
  | .deleteConnector tenantId id auth hasDependents, i =>
    deleteConnector env i tenantId id auth hasDependents
  | .createConnector tenantId id auth registration, i =>
    createConnector env i tenantId id auth registration

/-! ## What the transactions do

All transactions but those of `updateStatus` and of a deletion are tame: they send nothing,
leave the status of a tenant alone, take no connector away, and a default connector that they
write is one they have locked. -/

def Unset : Option ConfigValue → Prop
  | none => True
  | some .null => True
  | some _ => False

/-- A member that names the connector `c`. -/
def Names (env : Surroundings) (v : Option ConfigValue) (c : Uuid) : Prop :=
  ∃ id, v = some (.text id) ∧ env.uuidOf id = some c

/-- A transaction so far, as described above. -/
structure Tame (env : Surroundings) (m : Mine Key Row Event) : Prop where
  events : m.tx.events = []
  tenants : ∀ t w, m.tx.writes (.tenant t) = some w → ∃ v v' : Tenant,
    m.held (.tenant t) = some (some v) ∧ w = some v' ∧ v'.status = v.status ∧
      v'.deactivatedAt = v.deactivatedAt ∧
      (v'.config.defaultConnector = v.config.defaultConnector ∨ Unset v'.config.defaultConnector ∨
        ∃ c, Names env v'.config.defaultConnector c ∧
          ∃ x : Connector, m.held (.connector c) = some (some x) ∧ x.tenantId = t)
  connectors : ∀ c w, m.tx.writes (.connector c) = some w →
    ∃ held, m.held (.connector c) = some held ∧
      ∀ x : Connector, held = some x → ∃ y : Connector, w = some y ∧ y.tenantId = x.tenantId

section Tame

variable {env : Surroundings} {κ : StoreContract Key Row Event} {C : Label → Db → Prop} {i : ℕ}
  {φ : κ.Assert i} {m : Mine Key Row Event} {l : Label} {s : Db}

theorem tame_idle (env : Surroundings) : Tame env Mine.idle where
  events := rfl
  tenants t w h := by simp [Mine.idle, Tx.empty] at h
  connectors c w h := by simp [Mine.idle, Tx.empty] at h

/-- A lock changes nothing that was held before. -/
theorem held_hold (hs : At κ index C i φ m l s) {k k' : Key} {c : Option (Row k')}
    (h : m.held k' = some c) : (m.hold k (s.pub.row k)).held k' = some c := by
  by_cases hk : k' = k
  · subst hk
    rw [Mine.hold_self, hs.held h]
  · rw [Mine.hold_of_ne _ _ hk, h]

/-- Locking a row keeps a transaction tame. -/
theorem Tame.hold (h : Tame env m) (hs : At κ index C i φ m l s) (k : Key) :
    Tame env (m.hold k (s.pub.row k)) where
  events := h.events
  tenants t w hw := by
    obtain ⟨v, v', hv, rfl, hstatus, hdate, hdefault⟩ := h.tenants t w hw
    refine ⟨v, v', held_hold hs hv, rfl, hstatus, hdate, ?_⟩
    rcases hdefault with hd | hd | ⟨c, hc, x, hx, ht⟩
    · exact Or.inl hd
    · exact Or.inr (Or.inl hd)
    · exact Or.inr (Or.inr ⟨c, hc, x, held_hold hs hx, ht⟩)
  connectors c w hw := by
    obtain ⟨held, hheld, hx⟩ := h.connectors c w hw
    exact ⟨held, held_hold hs hheld, hx⟩

variable {t c id : Uuid} {auth : Option AuthContext}

/-- Writing a tenant that is locked. -/
theorem Tame.writeTenant (h : Tame env m) {v v' : Tenant} (hv : m.held (.tenant t) = some (some v))
    (hstatus : v'.status = v.status) (hdate : v'.deactivatedAt = v.deactivatedAt)
    (hdefault : v'.config.defaultConnector = v.config.defaultConnector ∨
      Unset v'.config.defaultConnector ∨ ∃ c, Names env v'.config.defaultConnector c ∧
        ∃ x : Connector, m.held (.connector c) = some (some x) ∧ x.tenantId = t) :
    Tame env (m.write (.tenant t) (some v')) where
  events := h.events
  tenants t' w hw := by
    by_cases ht : t' = t
    · subst ht
      obtain rfl : some v' = w := by simpa [Mine.write, Tx.write] using hw
      exact ⟨v, v', hv, rfl, hstatus, hdate, hdefault⟩
    · rw [Mine.write_of_ne _ _ (by simpa using ht)] at hw
      exact h.tenants t' w hw
  connectors c w hw := by
    rw [Mine.write_of_ne _ _ (by simp)] at hw
    exact h.connectors c w hw

/-- Writing a connector that is locked. -/
theorem Tame.writeConnector (h : Tame env m) {held : Option Connector} {y : Connector}
    (hheld : m.held (.connector c) = some held)
    (hy : ∀ x, held = some x → y.tenantId = x.tenantId) :
    Tame env (m.write (.connector c) (some y)) where
  events := h.events
  tenants t w hw := by
    rw [Mine.write_of_ne _ _ (by simp)] at hw
    exact h.tenants t w hw
  connectors c' w hw := by
    by_cases hc : c' = c
    · subst hc
      obtain rfl : some y = w := by simpa [Mine.write, Tx.write] using hw
      exact ⟨held, hheld, fun x hx => ⟨y, rfl, hy x hx⟩⟩
    · rw [Mine.write_of_ne _ _ (by simpa using hc)] at hw
      exact h.connectors c' w hw

/-- Between two parts of a transaction no lock was given up and no tenant written. -/
structure SameTenants (m m' : Mine Key Row Event) : Prop where
  held : ∀ k c, m.held k = some c → m'.held k = some c
  writes : ∀ t, m'.tx.writes (.tenant t) = m.tx.writes (.tenant t)

theorem SameTenants.refl (m : Mine Key Row Event) : SameTenants m m :=
  ⟨fun _ _ h => h, fun _ => rfl⟩

theorem SameTenants.trans {m₁ m₂ m₃ : Mine Key Row Event} (h : SameTenants m₁ m₂)
    (h' : SameTenants m₂ m₃) : SameTenants m₁ m₃ :=
  ⟨fun k c hc => h'.held k c (h.held k c hc), fun t => (h'.writes t).trans (h.writes t)⟩

theorem sameTenants_hold (hs : At κ index C i φ m l s) (k : Key) :
    SameTenants m (m.hold k (s.pub.row k)) :=
  ⟨fun _ _ h => held_hold hs h, fun _ => rfl⟩

theorem sameTenants_writeConnector (m : Mine Key Row Event) (c : Uuid) (w : Option Connector) :
    SameTenants m (m.write (.connector c) w) :=
  ⟨fun _ _ h => h, fun _ => Mine.write_of_ne _ _ (by simp) _⟩

/-! ### The statements -/

theorem body_castUuid {id : String} {Q : Uuid → Mine Key Row Event → Prop}
    (h : ∀ c, env.uuidOf id = some c → Q c m) : Body κ index C i φ m (castUuid env id) Q := by
  unfold castUuid
  cases hc : env.uuidOf id with
  | none => exact Body.throw
  | some c => exact Body.pure (h c hc)

theorem body_findByIdForUpdate {Q : Option Tenant → Mine Key Row Event → Prop} (hnone : Q none m)
    (hsome : ∀ s (v : Tenant), At κ index C i φ m .step s → (s.view i).row (.tenant id) = some v →
      Q (some v) (m.hold (.tenant id) (s.pub.row (.tenant id)))) :
    Body κ index C i φ m (findByIdForUpdate i id) Q := by
  refine Body.seq (Body.selectForUpdate (fun s hs _ => Body.pure hnone) fun s x v hs hx hv => ?_)
  split_ifs at hx with hp
  obtain rfl : id = x := Option.some.inj hx
  exact Body.pure (hsome s v hs hv)

/-- The rule for a locked connector. -/
theorem body_lockConnector {Q : Option Connector → Mine Key Row Event → Prop} (hnone : Q none m)
    (hsome : ∀ s (x : Connector), At κ index C i φ m .step s →
      (s.view i).row (.connector c) = some x → x.tenantId = t →
      Q (some x) (m.hold (.connector c) (s.pub.row (.connector c)))) :
    Body κ index C i φ m (lockConnector i t c) Q := by
  refine Body.seq (Body.selectForUpdate (fun s hs _ => Body.pure hnone) fun s x v hs hx hv => ?_)
  split_ifs at hx with hp
  obtain rfl : c = x := Option.some.inj hx
  rw [hv] at hp
  exact Body.pure (hsome s v hs hv (by simpa using hp))

/-- The tenant's row once it is locked, at the start of a transaction. -/
theorem body_requireTenant (env : Surroundings) {Q : Tenant → Mine Key Row Event → Prop}
    (h : ∀ v, Tame env (Mine.idle.hold (.tenant id) (some v)) →
      (Mine.idle.hold (.tenant id) (some v) : Mine Key Row Event).held (.tenant id) =
        some (some v) → Q v (Mine.idle.hold (.tenant id) (some v))) :
    Body κ index C i φ Mine.idle (requireTenant i id) Q := by
  refine Body.seq (body_findByIdForUpdate Body.throw fun s v hs hv => ?_)
  have hrow : s.pub.row (.tenant id) = some v := hs.row rfl hv
  have htame := (tame_idle env).hold hs (.tenant id)
  rw [hrow] at htame ⊢
  exact Body.pure (h v htame (Mine.hold_self _ _ _))

/-! ### The parts of the transactions -/

/-- What is known of a connector that the transaction looked up. -/
structure Locked (env : Surroundings) (m m' : Mine Key Row Event) (t : Uuid) (id : String) :
    Prop where
  tame : Tame env m'
  same : SameTenants m m'
  found : ∃ c, env.uuidOf id = some c ∧
    ∃ x : Connector, m'.held (.connector c) = some (some x) ∧ x.tenantId = t

/-- The rotation of a key. -/
theorem body_rotateKey (h : Tame env m) :
    Body κ index C i φ m (rotateKey env i t c) fun _ m' => Tame env m' ∧ SameTenants m m' := by
  refine Body.seq (body_lockConnector (Body.pure ⟨h, .refl m⟩) fun s x hs hx _ => ?_)
  have hhold := h.hold hs (.connector c)
  have hsame := sameTenants_hold hs (.connector c)
  dsimp only
  split_ifs with hv
  · exact Body.pure ⟨hhold, hsame⟩
  · refine Body.seq (Body.update (fun s' hs' _ => Body.pure ⟨hhold, hsame⟩)
      fun s' y hs' hy _ => Body.pure ⟨?_, ?_⟩)
    · refine (hhold.hold hs' (.connector c)).writeConnector (Mine.hold_self _ _ _) fun x' hx' => ?_
      -- the visible row is the committed one or the one this transaction wrote over it
      rw [hs'.view] at hy
      cases hw : (m.hold (.connector c) (s.pub.row (.connector c))).tx.writes (.connector c) with
      | none =>
        rw [hw, Option.getD_none, hx'] at hy
        rw [Option.some.inj hy]
      | some w =>
        obtain ⟨held, hheld, hkept⟩ := hhold.connectors c w hw
        rw [hs'.held hheld] at hx'
        obtain ⟨y', rfl, hy'⟩ := hkept x' hx'
        rw [hw, Option.getD_some] at hy
        rw [← hy', Option.some.inj hy]
    · exact hsame.trans ((sameTenants_hold hs' (.connector c)).trans
        (sameTenants_writeConnector _ c _))

/-- The lookup of a connector, in a transaction that has not written any. -/
theorem body_findConnectorIn {id : String} (h : Tame env m)
    (hunwritten : ∀ c, m.tx.writes (.connector c) = none) :
    Body κ index C i φ m (findConnectorIn env i t id auth) fun _ m' => Locked env m m' t id := by
  refine Body.seq (body_castUuid fun c hc => ?_)
  refine Body.seq (body_lockConnector Body.throw fun s x hs hx ht => ?_)
  have hrow : s.pub.row (.connector c) = some x := by
    rw [hs.view, hunwritten c] at hx
    exact hx
  have hheld : (m.hold (.connector c) (s.pub.row (.connector c))).held (.connector c) =
      some (some x) := by
    rw [hrow, Mine.hold_self]
  have hhold := h.hold hs (.connector c)
  have hsame := sameTenants_hold hs (.connector c)
  dsimp only
  split_ifs with haccess
  · unfold lazyRotateKeyIfNeeded
    split_ifs with hversion
    · exact Body.seq (Body.pure (Body.pure ⟨hhold, hsame, c, hc, x, hheld, ht⟩))
    · refine Body.bind (body_rotateKey hhold) fun _ m' hm => Body.pure ?_
      exact ⟨hm.1, hsame.trans hm.2, c, hc, x, hm.2.held _ _ hheld, ht⟩
  · exact Body.throw

/-- An asserted connector is locked. -/
theorem body_assertActiveConnector {id : String} (h : Tame env m)
    (hunwritten : ∀ c, m.tx.writes (.connector c) = none) :
    Body κ index C i φ m (assertActiveConnector env i t id auth) fun _ m' =>
      Locked env m m' t id := by
  refine Body.bind (body_findConnectorIn h hunwritten) fun x m' hm => ?_
  split_ifs with hactive
  · exact Body.pure hm
  · exact Body.throw

/-- What holds of a default connector that was checked. -/
def Checked (env : Surroundings) (m : Mine Key Row Event) (t : Uuid) (v : Option ConfigValue) :
    Prop :=
  Unset v ∨ ∃ c, Names env v c ∧
    ∃ x : Connector, m.held (.connector c) = some (some x) ∧ x.tenantId = t

/-- The check of a default locks the connector. -/
theorem body_assertDefaultConnector (h : Tame env m)
    (hunwritten : ∀ c, m.tx.writes (.connector c) = none) (v : Option ConfigValue) :
    Body κ index C i φ m (assertDefaultConnector env i t auth v) fun _ m' =>
      Tame env m' ∧ SameTenants m m' ∧ Checked env m' t v := by
  unfold assertDefaultConnector
  split
  · exact Body.pure ⟨h, .refl m, Or.inl trivial⟩
  · exact Body.pure ⟨h, .refl m, Or.inl trivial⟩
  · exact Body.throw
  · rename_i id
    refine Body.post (body_assertActiveConnector h hunwritten) fun _ m' hm => ?_
    obtain ⟨c, hc, hx⟩ := hm.found
    exact ⟨hm.tame, hm.same, Or.inr ⟨c, ⟨id, rfl, hc⟩, hx⟩⟩

/-- Saving a tenant under the lock, with the status it has and a default connector that is the
old one or was checked. -/
theorem body_saveTenant_tame {reload write : Label} {v entity : Tenant} (h : Tame env m)
    (hheld : m.held (.tenant t) = some (some v)) (hunwritten : m.tx.writes (.tenant t) = none)
    (hstatus : entity.status = v.status) (hdate : entity.deactivatedAt = v.deactivatedAt)
    (hdefault : entity.config.defaultConnector = v.config.defaultConnector ∨
      Checked env m t entity.config.defaultConnector) :
    Body κ index C i φ m (saveTenant reload write i t entity) fun _ m' => Tame env m' := by
  refine Body.saveRow (Tenant.save_self _ v) hheld (by rw [hunwritten, Option.getD_none])
    (fun _ => h) fun _ => ?_
  exact h.writeTenant hheld hstatus hdate hdefault

/-! ### The transactions -/

variable (env) in
/-- A tame transaction is a step that the contract allows, and that the assertion of its process
survives. -/
def TameStep (κ : StoreContract Key Row Event) : Prop :=
  ∀ (C : Label → Db → Prop) (i : ℕ) (φ : κ.Assert i) (m : Mine Key Row Event) (l : Label) (s : Db),
    Tame env m → At κ index C i φ m l s →
      (∀ k, κ.guard k s.pub (s.pub.commit i m.tx)) ∧ κ.Step i m.tx s.pub φ.holds

variable (hκ : TameStep env κ)
include hκ

/-- A transaction whose body is tame. -/
theorem keeps_transaction {α : Type} {p : Service α}
    (h : Body κ index C i φ Mine.idle p fun _ m => Tame env m) :
    Keeps κ index C i φ (transaction l i p) :=
  Run.transactionTo (BodyTo.post (Body.plain h) fun _ m χ hm s hs => by
    obtain ⟨rfl, hm⟩ := hm
    obtain ⟨hG, hstep⟩ := hκ C i φ m l s hm hs
    exact ⟨fun k _ => hG k, φ, hstep, rfl, rfl⟩) fun _ => rfl

/-- An update keeps a tame contract. -/
theorem updateTenant_keeps {dto : UpdateTenantDto} :
    Keeps κ index C i φ (updateTenant env i id dto auth) := by
  refine keeps_transaction hκ (Body.seq (body_requireTenant env fun v hv hheld => ?_))
  dsimp only
  split
  · exact body_saveTenant_tame hv hheld rfl rfl rfl (Or.inl rfl)
  · refine Body.bind (body_assertDefaultConnector hv (fun _ => rfl) _) fun _ m' hm => ?_
    exact body_saveTenant_tame hm.1 (hm.2.1.held _ _ hheld) (hm.2.1.writes id) rfl rfl
      (Or.inr hm.2.2)

/-- So does a change of configuration. -/
theorem updateConfig_keeps {dto : UpdateTenantConfigDto} :
    Keeps κ index C i φ (updateConfig env i id dto auth) := by
  refine keeps_transaction hκ (Body.seq (body_requireTenant env fun v hv hheld => ?_))
  refine Body.bind (body_assertDefaultConnector hv (fun _ => rfl) _) fun _ m' hm => ?_
  refine body_saveTenant_tame hm.1 (hm.2.1.held _ _ hheld) (hm.2.1.writes id) rfl rfl ?_
  -- a member that the DTO leaves out keeps its value
  cases hd : dto.defaultConnector with
  | none => exact Or.inl (by simp [TenantConfig.merge, hd])
  | some d =>
    refine Or.inr ?_
    have hchecked := hm.2.2
    rw [hd] at hchecked
    simpa [TenantConfig.merge, hd] using hchecked

/-- So does setting the default connector. -/
theorem setDefaultConnectorIfUnset_keeps {id : String} :
    Keeps κ index C i φ (setDefaultConnectorIfUnset env i t id auth) := by
  refine keeps_transaction hκ (Body.seq (body_requireTenant env fun v hv hheld => ?_))
  refine Body.bind (body_assertActiveConnector hv fun _ => rfl) fun _ m' hm => ?_
  refine Body.update (fun _ _ _ => hm.tame) fun s x hs hx _ => ?_
  have hheld' := hm.same.held _ _ hheld
  obtain rfl : v = x := by
    rw [hs.view, hm.same.writes t, hs.held hheld'] at hx
    exact Option.some.inj hx
  obtain ⟨c, hc, hfound⟩ := hm.found
  rw [hs.held hheld', hold_held hheld']
  exact hm.tame.writeTenant hheld' rfl rfl (Or.inr (Or.inr ⟨c, ⟨id, rfl, hc⟩, hfound⟩))

/-- Marking a tenant as deleted or not. -/
theorem markTenant_keeps {deletedAt : Option ℕ} :
    Keeps κ index C i φ (transaction .step i (update index .step i (.tenant id) (fun _ => true)
      fun t => { t with deletedAt := deletedAt }) : Service Bool) := by
  refine keeps_transaction hκ (Body.update (fun _ _ _ => tame_idle env) fun s v hs hv _ => ?_)
  have hrow : s.pub.row (.tenant id) = some v := hs.row rfl hv
  have htame := (tame_idle env).hold hs (.tenant id)
  rw [hrow] at htame ⊢
  exact htame.writeTenant (Mine.hold_self _ _ _) rfl rfl (Or.inl rfl)

theorem deleteTenant_keeps {now : ℕ} : Keeps κ index C i φ (deleteTenant i id now) := by
  refine Keeps.bind Keeps.select fun found => ?_
  split
  · exact Keeps.throw
  · exact Keeps.bind (markTenant_keeps hκ) fun _ => Keeps.pure

theorem restoreTenant_keeps : Keeps κ index C i φ (restoreTenant i id) := by
  refine Keeps.bind (markTenant_keeps hκ) fun _ => Keeps.bind Keeps.select fun found => ?_
  split
  · exact Keeps.throw
  · exact Keeps.pure

omit hκ in
theorem castUuid_keeps {id : String} : Keeps κ index C i φ (castUuid env id) := by
  unfold castUuid
  split
  · exact Keeps.pure
  · exact Keeps.throw

/-- Finding a connector keeps a tame contract. -/
theorem findConnector_keeps {id : String} :
    Keeps κ index C i φ (findConnector env i t id auth) := by
  refine Keeps.bind castUuid_keeps fun c => Keeps.bind Keeps.select fun found => ?_
  split
  · exact Keeps.throw
  · split_ifs
    · unfold lazyRotateKeyIfNeeded
      split_ifs
      · exact Keeps.pure
      · exact keeps_transaction hκ (Body.post (body_rotateKey (tame_idle env)) fun _ _ hm => hm.1)
    · exact Keeps.throw

/-- The insertion of a connector. -/
theorem insertConnector_keeps {x : Connector} :
    Keeps κ index C i φ
      (transaction .step i (insert index .step i (.connector id) x) : Service Unit) := by
  refine keeps_transaction hκ (Body.insert fun s hs hk _ => ?_)
  have hrow : s.pub.row (.connector id) = none := by
    by_contra hr
    exact hk (hs.wf.keys _ hr)
  have htame := (tame_idle env).hold hs (.connector id)
  rw [hrow] at htame
  exact htame.writeConnector (Mine.hold_self _ _ _) fun x hx => by simp at hx

/-- The deletion of a connector, given its part under the tenant's lock. -/
theorem deleteConnector_keeps {id : String} {hasDependents : Bool}
    (h : Keeps κ index C i φ (deleteUnlessDefault env i t id)) :
    Keeps κ index C i φ (deleteConnector env i t id auth hasDependents) := by
  refine Keeps.bind (findConnector_keeps hκ) fun _ => ?_
  split_ifs
  · exact Keeps.throw
  · refine Keeps.bind h fun result => ?_
    cases result with
    | deleted => exact Keeps.pure
    | isDefault => exact Keeps.throw
    | notFound => exact Keeps.throw

/-- The creation of a connector, given the removal of one whose registration failed. -/
theorem createConnector_keeps {registration : Registration}
    (h : Keeps κ index C i φ (discardConnector i id)) :
    Keeps κ index C i φ (createConnector env i t id auth registration) := by
  refine Keeps.bind Keeps.select fun found => ?_
  split
  · exact Keeps.throw
  · refine Keeps.bind (insertConnector_keeps hκ) fun _ => ?_
    refine Keeps.bind ?_ fun _ =>
      Keeps.bind (setDefaultConnectorIfUnset_keeps hκ) fun _ => Keeps.pure
    unfold settleRegistration
    split
    · exact Keeps.pure
    · exact Keeps.pure
    · exact Keeps.pure
    · exact Keeps.throw
    · exact Keeps.bind h fun _ => Keeps.throw

omit hκ in
/-- `updateStatus`, given its transaction from what the tenant's existence implies. -/
theorem updateStatus_of_commitStatus {ψ : κ.Assert i} {status : TenantStatus} {now : ℕ}
    (hψ : ∀ p, p.row (.tenant id) ≠ none → ψ.holds p)
    (h : ∀ tenant : Tenant, status ∈ allowedStatusTransitions tenant.status →
      Run κ index C i ψ (commitStatus i id tenant status now) fun _ _ => True) :
    Run κ index C i φ (updateStatus i id status now) fun _ _ => True := by
  refine Run.seq (Run.observe (fun s hs => ?_) trivial)
  cases hrow : s.pub.row (.tenant id) with
  | none =>
    refine ⟨φ, hs.holds, ?_⟩
    simp only [Store.now, hrow, Option.filter_none]
    exact Run.throw trivial
  | some v =>
    refine ⟨ψ, hψ _ (by simp [hrow]), ?_⟩
    simp only [Store.now, hrow]
    split
    · exact Run.throw trivial
    · split_ifs with hallowed
      · exact h _ hallowed
      · exact Run.throw trivial

end Tame

end DigitalTrust.Tenancy
