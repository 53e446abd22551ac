/-
# Overlapping updates of a connector

`update` and `lazyRotateKeyIfNeeded` of `connector.service.ts` and `updateWithLock` and
`deactivateAllForTenant` of its repository, when the calls overlap.

`update` builds a patch from the row that it has read and applies it under the row's lock if the
row is still that one; otherwise it starts again, three times at most.  The test compares all
columns but `agent_log_id_hash`, which changes together with the ciphertext only, and a ciphertext
never comes back.  `updateWithLock` holds the lock until it commits, so it counts as one statement.
-/
import DigitalTrust.Connectors
import DigitalTrust.Journal

namespace DigitalTrust.ConnectorUpdates

open Interleaving Relational Connectors

/-! ## Credentials -/

structure ConnectorDto where
  apiKey : String
  tractionTenantId : Option String
  webhookSecret : Option String
  deriving DecidableEq

/-- `StoredConnectorCredentials`: what a ciphertext holds. -/
structure StoredConnectorCredentials where
  credentials : ConnectorDto
  agentLogId : Option String
  deriving DecidableEq

/-- `UpdateConnectorCredentialsDto`; an absent member is `none`. -/
structure UpdateConnectorCredentialsDto where
  apiKey : Option String
  tractionTenantId : Option String
  webhookSecret : Option String

structure UpdateConnectorCredentialDto where
  endpointUrl : Option String
  credentials : Option UpdateConnectorCredentialsDto

def hasManager : ConnectorType → Bool
  | .traction => true
  | .credo => false

/-- `mergeCredentials` of the Traction manager, and what replaces it for a type without a
manager, which leaves the Traction tenant out. -/
def mergeCredentials (connectorType : ConnectorType) (existing : ConnectorDto)
    (updates : UpdateConnectorCredentialsDto) : ConnectorDto where
  apiKey := updates.apiKey.getD existing.apiKey
  tractionTenantId :=
    if hasManager connectorType then updates.tractionTenantId.or existing.tractionTenantId
    else existing.tractionTenantId
  webhookSecret := updates.webhookSecret.or existing.webhookSecret

def UpdateConnectorCredentialDto.merge (dto : UpdateConnectorCredentialDto)
    (connectorType : ConnectorType) (existing : ConnectorDto) : ConnectorDto :=
  dto.credentials.elim existing (mergeCredentials connectorType existing)

/-! ## Programs -/

/-- The nonce of an encryption: the process that makes it and its number there.  Encryptions that
were made before have none. -/
abbrev Nonce := Option (ℕ × ℕ)

/-- The encryption and the blind index of an agent log identifier. -/
structure Environment (B : Type) where
  encryption : Encryption Nonce StoredConnectorCredentials B
  hashAgentLogId : ConnectorType → String → String

/-- The calls that change a connector.  An update carries the row that its patch was built from;
a call that writes a ciphertext carries its nonce. -/
inductive Call (B : Type) where
  | update (snapshot : Connector B) (dto : UpdateConnectorCredentialDto) (nonce : Nonce)
  | rotate (nonce : Nonce)
  | deactivateAll

/-- The connectors with the journal of their changes. -/
abbrev State (B : Type) := Journal String (Connector B) (Call B) Unit

abbrev Program (B : Type) := Proc (State B) Unit (Except Failure Unit)

/-- The columns of an `UPDATE`; the ciphertext and its key version are written together. -/
structure Patch (B : Type) where
  endpointUrl : Option String
  encrypted : Option (B × ℕ)
  agentLogIdHash : Option (Option String)

/-- No column. -/
def Patch.none {B : Type} : Patch B := ⟨.none, .none, .none⟩

/-- `Object.keys(updates).length === 0`. -/
def Patch.isEmpty {B : Type} (p : Patch B) : Bool :=
  p.endpointUrl.isNone && p.encrypted.isNone && p.agentLogIdHash.isNone

/-- The row after the `UPDATE`. -/
def Patch.apply {B : Type} (p : Patch B) (c : Connector B) : Connector B :=
  { c with
    endpointUrl := p.endpointUrl.getD c.endpointUrl
    credentialsEncrypted := (p.encrypted.map Prod.fst).getD c.credentialsEncrypted
    keyVersion := (p.encrypted.map Prod.snd).getD c.keyVersion
    agentLogIdHash := p.agentLogIdHash.getD c.agentLogIdHash }

/-- What the agent answers to one attempt: the health check with the agent log identifier, and
the registration of the webhook. -/
structure Answers where
  assertHealthy : Except Failure (Option String)
  webhook : Except Failure Unit

/-! ### Service -/

section Service

variable {B : Type}

def fail (e : Failure) : Program B := .ret (.error e)

def query (k : State B → Program B) : Program B := .attempt () id (fail queryFailed) k

def notFound (id : String) : Failure :=
  .notFound s!"Connector credential with ID '{id}' was not found."

def agentLogIdConflict : Failure :=
  .conflict "This agent sub-wallet is already bound to another connector."

def existsOther (t : Table String (Connector B)) (agentLogIdHash : String) (id : String) : Bool :=
  (t.first fun id' c => id' ≠ id && c.active && c.agentLogIdHash = some agentLogIdHash).isSome

/-- `uq_connector_credential_agent_log_id_hash` accepts the row. -/
def accepts (t : Table String (Connector B)) (id : String) (c : Connector B) : Bool :=
  !(c.active && c.agentLogIdHash.any fun hash => existsOther t hash id)

/-- The row that `updateWithLock` locks. -/
def lockedRow (s : State B) (tenantId id : String) : Option (Connector B) :=
  (s.table.row id).filter fun c => c.tenantId = tenantId

/-- What `updateWithLock` does to the row: `.ok none` if the patch is empty. -/
def rowUpdate (t : Table String (Connector B)) (id : String)
    (buildUpdates : Connector B → Except Failure (Patch B)) (existing : Connector B) :
    Except Failure (Option (Patch B)) := do
  let updates ← buildUpdates existing
  if updates.isEmpty then pure none
  else
    ensure (accepts t id (updates.apply existing) = true) agentLogIdConflict
    pure (some updates)

/-- `updateWithLock`; `k` gets the row found and the row left, if there is one. -/
def updateWithLock (call : Call B) (tenantId id : String)
    (buildUpdates : Connector B → Except Failure (Patch B))
    (k : Option (Connector B × Connector B) → Program B) : Program B :=
  .attempt ()
    (fun s => match lockedRow s tenantId id with
      | none => s
      | some existing => match rowUpdate s.table id buildUpdates existing with
        | .ok (some updates) => s.updateRow call id (fun _ => true) updates.apply
        | _ => s)
    (fail queryFailed)
    fun s => match lockedRow s tenantId id with
      | none => k none
      | some existing => .demand (rowUpdate s.table id buildUpdates existing) fun
        | none => k (some (existing, existing))
        | some updates => k (some (existing, updates.apply existing))

variable (env : Environment B)

/-- The credentials that a row holds. -/
def value (c : Connector B) : Except Failure StoredConnectorCredentials :=
  env.encryption.decrypt c.credentialsEncrypted c.keyVersion

def rotation (current : ℕ) (nonce : Nonce) (c : Connector B) : Except Failure (Patch B) :=
  if c.keyVersion = current then .ok .none
  else do
    let decrypted ← value env c
    pure ⟨none, some (env.encryption.encrypt current nonce decrypted, current), none⟩

/-- `lazyRotateKeyIfNeeded`; `current` is the version of the current key. -/
def lazyRotateKeyIfNeeded (current : ℕ) (nonce : Nonce) (id : String) (credential : Connector B)
    (k : Connector B → Program B) : Program B :=
  if credential.keyVersion = current then k credential
  else updateWithLock (.rotate nonce) credential.tenantId id (rotation env current nonce) fun
    | none => k credential
    | some (_, rotated) => k rotated

/-- `findById`; `access` is the answer of `assertResourceTenantOrNotFound` for a tenant. -/
def findById (current : ℕ) (nonce : Nonce) (tenantId id : String) (access : String → Bool)
    (k : Connector B → Program B) : Program B :=
  query fun s => .demand
    (need ((s.table.row id).filter fun c => c.tenantId = tenantId && access c.tenantId)
      (notFound id))
    fun credential => lazyRotateKeyIfNeeded env current nonce id credential k

/-- `assertHealthy`: without a manager the health check fails. -/
def assertHealthy (connectorType : ConnectorType) (answers : Answers)
    (k : Option String → Program B) : Program B :=
  query fun _ => .demand
    (if hasManager connectorType then answers.assertHealthy
      else .error (.other ("Could not verify connectivity to the connector endpoint: No " ++
        s!"connectivity probe is registered for connector type {connectorType.value}.")))
    k

def assertAgentLogIdAvailable (id : String) (existing : Connector B) (agentLogId : Option String)
    (existingCredentials : StoredConnectorCredentials) (k : Option String → Program B) :
    Program B :=
  match agentLogId with
  | none =>
    if existing.agentLogIdHash ≠ none ∨ existingCredentials.agentLogId ≠ none then
      fail (.other ("The connector no longer reports its agent identifier; " ++
        "the existing binding was kept."))
    else k none
  | some agentLogId =>
    let hash := env.hashAgentLogId existing.connectorType agentLogId
    query fun s => .demand (ensure (existsOther s.table hash id = false) agentLogIdConflict)
      fun _ => k (some hash)

/-- The registration of the webhook, for credentials that are to be stored. -/
def ensureWebhookRegistered (connectorType : ConnectorType) (answers : Answers) (k : Program B) :
    Program B :=
  if hasManager connectorType then query fun _ => .demand answers.webhook fun _ => k else k

def buildCredentialUpdates (current : ℕ) (nonce : Nonce) (id : String) (existing : Connector B)
    (dto : UpdateConnectorCredentialDto) (answers : Answers) (k : Patch B → Program B) :
    Program B :=
  match dto.credentials with
  | some updates =>
    .demand (value env existing) fun existingCredentials =>
    let credentialsToPersist :=
      mergeCredentials existing.connectorType existingCredentials.credentials updates
    assertHealthy existing.connectorType answers fun agentLogId =>
    assertAgentLogIdAvailable env id existing agentLogId existingCredentials fun hash =>
    ensureWebhookRegistered existing.connectorType answers <|
    k ⟨dto.endpointUrl, some (env.encryption.encrypt current nonce
        ⟨credentialsToPersist, agentLogId⟩, current), some hash⟩
  | none => match dto.endpointUrl with
    | some endpointUrl =>
      .demand (value env existing) fun existingCredentials =>
      assertHealthy existing.connectorType answers fun agentLogId =>
      if agentLogId = existingCredentials.agentLogId then k ⟨some endpointUrl, none, none⟩
      else
        assertAgentLogIdAvailable env id existing agentLogId existingCredentials fun hash =>
        k ⟨some endpointUrl, some (env.encryption.encrypt current nonce
          ⟨existingCredentials.credentials, agentLogId⟩, current), some hash⟩
    | none => fail (.badRequest "At least one of endpoint_url or credentials must be provided.")

/-- The row is not the snapshot any more. -/
def stale [DecidableEq B] (current snapshot : Connector B) : Bool :=
  current.endpointUrl ≠ snapshot.endpointUrl || current.connectorType ≠ snapshot.connectorType ||
    current.active ≠ snapshot.active || current.keyVersion ≠ snapshot.keyVersion ||
    current.credentialsEncrypted ≠ snapshot.credentialsEncrypted

def Call.ofPatch (snapshot : Connector B) (dto : UpdateConnectorCredentialDto) (nonce : Nonce)
    (updates : Patch B) : Call B :=
  .update snapshot dto (if updates.encrypted.isSome then nonce else none)

/-- The loop of `update`, for process `i`: `attempts` are left, `attempt` were made. -/
def updateLoop [DecidableEq B] (i current : ℕ) (tenantId id : String)
    (dto : UpdateConnectorCredentialDto) (answers : ℕ → Answers) :
    (attempts attempt : ℕ) → Connector B → Program B
  | 0, _, _ => fail (.conflict "Connector changed during validation. Retry the update.")
  | attempts + 1, attempt, snapshot =>
    let nonce := some (i, attempt + 1)
    buildCredentialUpdates env current nonce id snapshot dto (answers attempt) fun updates =>
    updateWithLock (.ofPatch snapshot dto nonce updates) tenantId id
      (fun row => .ok (if stale row snapshot then .none else updates)) fun
      | none => fail (notFound id)
      | some (row, updated) =>
        if stale row snapshot then
          updateLoop i current tenantId id dto answers attempts (attempt + 1) updated
        else
          lazyRotateKeyIfNeeded env current (some (i, attempt + 2)) id updated fun _ =>
            .ret (.ok ())

def update [DecidableEq B] (i current : ℕ) (tenantId id : String)
    (dto : UpdateConnectorCredentialDto) (access : String → Bool) (answers : ℕ → Answers) :
    Program B :=
  findById env current (some (i, 0)) tenantId id access fun snapshot =>
    updateLoop env i current tenantId id dto answers 3 0 snapshot

/-- `deactivateAllForTenant`: the rows are chosen when the `UPDATE` begins, and those that still
satisfy its condition are written. -/
def deactivateAllForTenant (tenantId : String) : Program B :=
  let condition (c : Connector B) : Bool := c.tenantId = tenantId && c.active
  query fun s =>
    let chosen := s.table.keys condition
    .attempt ()
      (fun s => s.update .deactivateAll (fun id c => decide (id ∈ chosen) && condition c)
        fun c => { c with active := false })
      (fail queryFailed) fun _ => .ret (.ok ())

end Service

/-! ### Requests -/

/-- The calls; `current` is the version of the key that is current where the call runs. -/
inductive Request where
  | update (current : ℕ) (tenantId id : String) (dto : UpdateConnectorCredentialDto)
      (access : String → Bool) (answers : ℕ → Answers)
  | find (current : ℕ) (tenantId id : String) (access : String → Bool)
  | deactivateAllForTenant (tenantId : String)

/-- What a request runs as process `i`. -/
def Request.program {B : Type} [DecidableEq B] (env : Environment B) (i : ℕ) : Request → Program B
  | .update current tenantId id dto access answers =>
    ConnectorUpdates.update env i current tenantId id dto access answers
  | .find current tenantId id access =>
    findById env current (some (i, 0)) tenantId id access fun _ => .ret (.ok ())
  | .deactivateAllForTenant tenantId => ConnectorUpdates.deactivateAllForTenant tenantId

/-- The service.  Every statement commits on its own, so a crash changes nothing. -/
def service {B : Type} [DecidableEq B] (env : Environment B) : System (State B) Unit Request where
  prog r i := (r.program env i).discard
  crash := some fun _ s => s

/-! ## Sound changes -/

section Changes

variable {B : Type} (env : Environment B)

/-- The nonce of the ciphertext that a call writes. -/
def Call.nonce : Call B → Nonce
  | .update _ _ nonce | .rotate nonce => nonce
  | .deactivateAll => none

/-- What a call does to the credentials. -/
def Call.merge (call : Call B) (connectorType : ConnectorType) (existing : ConnectorDto) :
    ConnectorDto :=
  match call with
  | .update _ dto _ => dto.merge connectorType existing
  | .rotate _ | .deactivateAll => existing

/-- The changes, latest first, merged into the credentials in the order of their commits. -/
def merged (changes : List (Change String (Connector B) (Call B))) (first : ConnectorDto) :
    ConnectorDto :=
  changes.foldr (fun c existing => c.call.merge c.before.connectorType existing) first

/-- What every change has to respect: an update is made to the row that its patch was built
from, the credentials are merged, and only an update changes the decrypted value. -/
structure Sound (c : Change String (Connector B) (Call B)) : Prop where
  exact : ∀ snapshot dto nonce, c.call = .update snapshot dto nonce → c.before = snapshot
  merges : ∃ v v', value env c.before = .ok v ∧ value env c.after = .ok v' ∧
    v'.credentials = c.call.merge c.before.connectorType v.credentials
  keeps : (∀ snapshot dto nonce, c.call ≠ .update snapshot dto nonce) →
    value env c.after = value env c.before

/-- Along sound changes the decrypted credentials are the merged ones. -/
theorem value_of_leads {first : Connector B} {v₀ : StoredConnectorCredentials}
    (hfirst : value env first = .ok v₀) :
    ∀ {changes : List (Change String (Connector B) (Call B))} {last : Option (Connector B)},
      (∀ c ∈ changes, Sound env c) → Leads (some first) changes last →
      ∃ row v, last = some row ∧ value env row = .ok v ∧
        v.credentials = merged changes v₀.credentials := by
  intro changes
  induction changes with
  | nil => exact fun _ hleads => ⟨first, v₀, hleads, hfirst, rfl⟩
  | cons c changes ih =>
    intro last hsound hleads
    obtain ⟨row, v, hrow, hv, hcredentials⟩ :=
      ih (fun d hd => hsound d (List.mem_cons_of_mem _ hd)) hleads.2
    obtain rfl := Option.some.inj hrow
    obtain ⟨w, v', hw, hv', hmerge⟩ := (hsound c List.mem_cons_self).merges
    obtain rfl : w = v := Except.ok.inj (hw.symm.trans hv)
    refine ⟨c.after, v', hleads.1, hv', ?_⟩
    rw [hmerge, hcredentials]
    rfl

end Changes

/-! ## The contract of the calls -/

section Contract

variable {B : Type} (env : Environment B) (t₀ : Table String (Connector B))

/-- The nonces whose ciphertexts were written. -/
def used (s : State B) : List (ℕ × ℕ) := s.changes.filterMap fun c => c.call.nonce

/-- The connector has, or had, this row. -/
def Version (s : State B) (id : String) (c : Connector B) : Prop :=
  t₀.row id = some c ∨ ∃ ch ∈ s.changes, ch.key = id ∧ ch.after = c

/-- What two rows of one connector have in common: the keys, and with the ciphertext also the
hash of the agent log identifier. -/
structure Kin (c d : Connector B) : Prop where
  id : c.id = d.id
  tenantId : c.tenantId = d.tenantId
  hash : c.credentialsEncrypted = d.credentialsEncrypted → c.agentLogIdHash = d.agentLogIdHash

/-- Every change so far is sound, every ciphertext was made by an encryption that is accounted
for, and the rows of a connector are kin. -/
structure Inv (s : State B) : Prop where
  recorded : s.Recorded t₀ (Sound env)
  sealed : ∀ id c, Version t₀ s id c → ∃ n v,
    c.credentialsEncrypted = env.encryption.encrypt c.keyVersion n v ∧ ∀ m ∈ n, m ∈ used s
  kin : ∀ id c d, Version t₀ s id c → Version t₀ s id d → Kin c d

/-- The programs keep the invariant; a process relies on its nonces and on the rows that a
connector once had. -/
def contract : Contract (State B) where
  inv := Inv env t₀
  rely o s s' := (∀ id c, Version t₀ s id c → Version t₀ s' id c) ∧
    ∀ i ∈ o, ∀ k, (i, k) ∉ used s → (i, k) ∉ used s'
  start i s := ∀ k, (i, k) ∉ used s

/-- The nonces of process `i` from the `n`-th on are not used yet. -/
def Unused (i n : ℕ) (s : State B) : Prop := ∀ k, n ≤ k → (i, k) ∉ used s

variable {env t₀}

theorem rely_refl (s : State B) (o : Option ℕ) : (contract env t₀).rely o s s :=
  ⟨fun _ _ h => h, fun _ _ _ h => h⟩

theorem stable_unused (i n : ℕ) : (contract env t₀).Stable i (Unused i n) :=
  fun _ _ _ _ h hrely k hk => hrely.2 i rfl k (h k hk)

theorem stable_version (i : ℕ) (id : String) (c : Connector B) :
    (contract env t₀).Stable i fun s => Version t₀ s id c :=
  fun _ _ _ _ h hrely => hrely.1 id c h

/-- The assertion of a process that has read a row. -/
def Seen (t₀ : Table String (Connector B)) (i n : ℕ) (id : String) (c : Connector B)
    (s : State B) : Prop :=
  Unused i n s ∧ Version t₀ s id c

theorem stable_seen (i n : ℕ) (id : String) (c : Connector B) :
    (contract env t₀).Stable i (Seen t₀ i n id c) :=
  (stable_unused i n).and (stable_version i id c)

/-- The present row of a connector is one of its rows. -/
theorem Inv.version {s : State B} (hs : Inv env t₀ s) {id : String} {c : Connector B}
    (hc : s.table.row id = some c) : Version t₀ s id c := hs.recorded.row hc

/-- The ciphertext of a row can be decrypted. -/
theorem Inv.value {s : State B} (hs : Inv env t₀ s) {id : String} {c : Connector B}
    (hc : Version t₀ s id c) : ∃ v, value env c = .ok v := by
  obtain ⟨n, v, hcipher, -⟩ := hs.sealed id c hc
  refine ⟨v, ?_⟩
  rw [ConnectorUpdates.value, hcipher]
  exact env.encryption.decrypt_encrypt _ _ _

/-- What a call may do to the ciphertext: leave it alone, together with the hash, or write one
with its own nonce, which is a new one. -/
inductive Reseals (env : Environment B) (s : State B) (call : Call B) (c c' : Connector B) : Prop
  | same : c'.credentialsEncrypted = c.credentialsEncrypted → c'.keyVersion = c.keyVersion →
      c'.agentLogIdHash = c.agentLogIdHash → Reseals env s call c c'
  | fresh (m : ℕ × ℕ) (v : StoredConnectorCredentials) : call.nonce = some m → m ∉ used s →
      c'.credentialsEncrypted = env.encryption.encrypt c'.keyVersion (some m) v →
      Reseals env s call c c'

section Update

variable {s : State B} {call : Call B} {p : String → Connector B → Bool}
  {u : Connector B → Connector B}

/-- The versions after an update. -/
theorem version_update {id : String} {c : Connector B} :
    Version t₀ (s.update call p u) id c ↔
      Version t₀ s id c ∨ ∃ d, s.table.row id = some d ∧ p id d = true ∧ u d = c := by
  constructor
  · rintro (hfirst | ⟨ch, hch, rfl, rfl⟩)
    · exact Or.inl (Or.inl hfirst)
    · obtain ⟨d, hd, hp, heq⟩ | hold := Journal.mem_changes_update.mp hch
      · exact Or.inr ⟨d, hd, hp, by rw [heq]⟩
      · exact Or.inl (Or.inr ⟨ch, hold, rfl, rfl⟩)
  · rintro ((hfirst | ⟨ch, hch, hkey, hafter⟩) | ⟨d, hd, hp, rfl⟩)
    · exact Or.inl hfirst
    · exact Or.inr ⟨ch, Journal.mem_changes_update.mpr (Or.inr hch), hkey, hafter⟩
    · exact Or.inr ⟨⟨call, id, d, u d⟩,
        Journal.mem_changes_update.mpr (Or.inl ⟨d, hd, hp, rfl⟩), rfl, rfl⟩

/-- The nonces used after an update. -/
theorem mem_used_update {m : ℕ × ℕ} :
    m ∈ used (s.update call p u) ↔
      m ∈ used s ∨ call.nonce = some m ∧ ∃ id d, s.table.row id = some d ∧ p id d = true := by
  simp only [used, List.mem_filterMap]
  constructor
  · rintro ⟨ch, hch, hnonce⟩
    obtain ⟨d, hd, hp, heq⟩ | hold := Journal.mem_changes_update.mp hch
    · rw [heq] at hnonce
      exact Or.inr ⟨hnonce, ch.key, d, hd, hp⟩
    · exact Or.inl ⟨ch, hold, hnonce⟩
  · rintro (⟨ch, hch, hnonce⟩ | ⟨hnonce, id, d, hd, hp⟩)
    · exact ⟨ch, Journal.mem_changes_update.mpr (Or.inr hch), hnonce⟩
    · exact ⟨⟨call, id, d, u d⟩, Journal.mem_changes_update.mpr (Or.inl ⟨d, hd, hp, rfl⟩), hnonce⟩

/-- An update that meets the conditions keeps the invariant. -/
theorem Inv.update (hs : Inv env t₀ s)
    (hsound : ∀ id c, s.table.row id = some c → p id c = true → Sound env ⟨call, id, c, u c⟩)
    (hkeys : ∀ id c, s.table.row id = some c → p id c = true →
      (u c).id = c.id ∧ (u c).tenantId = c.tenantId)
    (hseal : ∀ id c, s.table.row id = some c → p id c = true → Reseals env s call c (u c)) :
    Inv env t₀ (s.update call p u) := by
  -- a new row is kin to every row that the connector had
  have hnew : ∀ id c d, s.table.row id = some c → p id c = true → Version t₀ s id d →
      Kin (u c) d := by
    intro id c d hc hp hd
    have hkin := hs.kin id c d (hs.version hc) hd
    refine ⟨(hkeys id c hc hp).1.trans hkin.id, (hkeys id c hc hp).2.trans hkin.tenantId, ?_⟩
    intro hcipher
    obtain ⟨hsame, -, hhash⟩ | ⟨m, v, -, hunused, hfresh⟩ := hseal id c hc hp
    · exact hhash.trans (hkin.hash (hsame.symm.trans hcipher))
    · obtain ⟨n, w, hold, hused⟩ := hs.sealed id d hd
      have hn := env.encryption.nonce_inj (hfresh.symm.trans (hcipher.trans hold))
      exact absurd (hused m hn.symm) hunused
  refine ⟨hs.recorded.update hsound, fun id c hc => ?_, fun id c d hc hd => ?_⟩
  · obtain hold | ⟨d, hd, hp, rfl⟩ := version_update.mp hc
    · obtain ⟨n, v, hcipher, hused⟩ := hs.sealed id c hold
      exact ⟨n, v, hcipher, fun m hm => mem_used_update.mpr (Or.inl (hused m hm))⟩
    · obtain ⟨hsame, hversion, -⟩ | ⟨m, v, hnonce, -, hfresh⟩ := hseal id d hd hp
      · obtain ⟨n, v, hcipher, hused⟩ := hs.sealed id d (hs.version hd)
        refine ⟨n, v, ?_, fun m hm => mem_used_update.mpr (Or.inl (hused m hm))⟩
        rw [hsame, hversion, hcipher]
      · refine ⟨some m, v, hfresh, fun m' hm' => ?_⟩
        obtain rfl := Option.some.inj hm'
        exact mem_used_update.mpr (Or.inr ⟨hnonce, id, d, hd, hp⟩)
  · obtain hold | ⟨a, ha, hpa, rfl⟩ := version_update.mp hc <;>
      obtain hold' | ⟨b, hb, hpb, rfl⟩ := version_update.mp hd
    · exact hs.kin id c d hold hold'
    · have hkin := hnew id b c hb hpb hold
      exact ⟨hkin.id.symm, hkin.tenantId.symm, fun h => (hkin.hash h.symm).symm⟩
    · exact hnew id a d ha hpa hold'
    · obtain rfl := Option.mem_unique ha hb
      exact ⟨rfl, rfl, fun _ => rfl⟩

/-- An update by process `i` disturbs no other: its nonce is its own. -/
theorem rely_update {i : ℕ} (hnonce : ∀ m, call.nonce = some m → m.1 = i) {o : Option ℕ}
    (ho : o ≠ some i) : (contract env t₀).rely o s (s.update call p u) := by
  refine ⟨fun id c hc => version_update.mpr (Or.inl hc), fun j hj k hk hused => ?_⟩
  obtain hold | ⟨hm, -⟩ := mem_used_update.mp hused
  · exact hk hold
  · exact ho (hj.trans (congrArg some (hnonce (j, k) hm)))

/-- After an update with the nonce `(i, n)`, the later ones of process `i` are still unused. -/
theorem unused_update {i n : ℕ} (h : Unused i n s)
    (hnonce : ∀ m, call.nonce = some m → m = (i, n)) : Unused i (n + 1) (s.update call p u) := by
  intro k hk hused
  obtain hold | ⟨hm, -⟩ := mem_used_update.mp hused
  · exact h k (by omega) hold
  · have hkn : k = n := congrArg Prod.snd (hnonce _ hm)
    omega

end Update

theorem Seen.succ {i n : ℕ} {id : String} {c : Connector B} {s : State B} (h : Seen t₀ i n id c s) :
    Seen t₀ i (n + 1) id c s :=
  ⟨fun k hk => h.1 k (by omega), h.2⟩

end Contract

/-! ## Every call follows it -/

section Calls

variable {B : Type} {env : Environment B} {t₀ : Table String (Connector B)}
  {i n : ℕ} {id : String} {snapshot : Connector B} {A : State B → Prop}

/-- The program of process `i` follows the contract from `A` on. -/
abbrev Follows (env : Environment B) (t₀ : Table String (Connector B)) (i : ℕ) (p : Program B)
    (A : State B → Prop) : Prop :=
  (contract env t₀).Ok Always i (fun _ _ => True) p A

theorem fail_follows (e : Failure) : Follows env t₀ i (fail e) A := fun _ _ _ => trivial

theorem demand_follows {β : Type} {x : Except Failure β} {k : β → Program B}
    (h : ∀ b, x = .ok b → Follows env t₀ i (k b) A) : Follows env t₀ i (.demand x k) A :=
  .demand (fun _ _ _ _ => trivial) h

theorem query_follows (hA : (contract env t₀).Stable i A) {k : State B → Program B}
    (h : ∀ s, Follows env t₀ i (k s) A) : Follows env t₀ i (query k) A :=
  .attempt (fail_follows _) fun s hs hAs _ => ⟨hs, fun o _ => rely_refl s o, A, hAs, hA, h s⟩

/-- What a row update accepted. -/
theorem rowUpdate_eq_ok {t : Table String (Connector B)}
    {buildUpdates : Connector B → Except Failure (Patch B)} {c : Connector B} {updates : Patch B}
    (h : rowUpdate t id buildUpdates c = .ok (some updates)) :
    buildUpdates c = .ok updates ∧ updates.isEmpty = false := by
  simp only [rowUpdate, bind_eq_ok] at h
  obtain ⟨updates', hbuild, h⟩ := h
  split_ifs at h with hempty
  · simp at h
  · obtain ⟨_, _, h⟩ := bind_eq_ok.mp h
    obtain rfl := Option.some.inj (pure_eq_ok.mp h)
    exact ⟨hbuild, by simpa using hempty⟩

/-- The rule of `updateWithLock`, for a process that has read a row and has its nonces from the
`n`-th on: whatever it writes has to be sound and to use the `n`-th nonce, if any. -/
theorem updateWithLock_follows {call : Call B} (hnonce : ∀ m, call.nonce = some m → m = (i, n))
    {tenantId : String} {buildUpdates : Connector B → Except Failure (Patch B)}
    {k : Option (Connector B × Connector B) → Program B}
    (hwrite : ∀ s c updates, Inv env t₀ s → Seen t₀ i n id snapshot s → s.table.row id = some c →
      buildUpdates c = .ok updates → updates.isEmpty = false →
      Sound env ⟨call, id, c, updates.apply c⟩ ∧ Reseals env s call c (updates.apply c))
    (hmissing : Follows env t₀ i (k none) (Seen t₀ i n id snapshot))
    (hk : ∀ c c', Follows env t₀ i (k (some (c, c'))) (Seen t₀ i (n + 1) id c')) :
    Follows env t₀ i (updateWithLock call tenantId id buildUpdates k)
      (Seen t₀ i n id snapshot) := by
  refine .attempt (fail_follows _) fun s hs hseen _ => ?_
  cases hlocked : lockedRow s tenantId id with
  | none =>
    exact ⟨hs, fun o _ => rely_refl s o, _, hseen, stable_seen i n id snapshot, hmissing⟩
  | some c =>
    have hc : s.table.row id = some c := (Option.filter_eq_some_iff.mp hlocked).1
    simp only
    cases hupdate : rowUpdate s.table id buildUpdates c with
    | error e =>
      exact ⟨hs, fun o _ => rely_refl s o, _, hseen, stable_seen i n id snapshot,
        fail_follows e⟩
    | ok result =>
      cases result with
      | none =>
        have hseen' : Seen t₀ i (n + 1) id c s := Seen.succ ⟨hseen.1, hs.version hc⟩
        exact ⟨hs, fun o _ => rely_refl s o, _, hseen', stable_seen i (n + 1) id c, hk c c⟩
      | some updates =>
        obtain ⟨hbuild, hnonempty⟩ := rowUpdate_eq_ok hupdate
        obtain ⟨hsound, hseal⟩ := hwrite s c updates hs hseen hc hbuild hnonempty
        -- the statement meets the one row under `id`
        have honly : ∀ id' d, s.table.row id' = some d →
            (decide (id' = id) && true) = true → id' = id ∧ d = c := by
          intro id' d hd hid
          obtain rfl : id' = id := by simpa using hid
          exact ⟨rfl, Option.mem_unique hd hc⟩
        have hinv : Inv env t₀ (s.updateRow call id (fun _ => true) updates.apply) := by
          refine hs.update (fun id' d hd hid => ?_) (fun _ _ _ _ => ⟨rfl, rfl⟩)
            fun id' d hd hid => ?_
          · obtain ⟨rfl, rfl⟩ := honly id' d hd hid
            exact hsound
          · obtain ⟨rfl, rfl⟩ := honly id' d hd hid
            exact hseal
        refine ⟨hinv, fun o ho =>
          rely_update (fun m hm => congrArg Prod.fst (hnonce m hm)) ho,
          _, ⟨unused_update hseen.1 hnonce, ?_⟩, stable_seen i (n + 1) id _, hk c _⟩
        exact version_update.mpr (Or.inr ⟨c, hc, by simp, rfl⟩)

/-- A rotation with an unused nonce is sound. -/
theorem rotation_sound {current : ℕ} {s : State B} (hunused : Unused i n s) {c : Connector B}
    {updates : Patch B}
    (hbuild : rotation env current (some (i, n)) c = .ok updates)
    (hnonempty : updates.isEmpty = false) :
    Sound env ⟨.rotate (some (i, n)), id, c, updates.apply c⟩ ∧
      Reseals env s (.rotate (some (i, n))) c (updates.apply c) := by
  unfold rotation at hbuild
  split_ifs at hbuild
  · obtain rfl := Except.ok.inj hbuild
    exact absurd hnonempty (by simp [Patch.none, Patch.isEmpty])
  · obtain ⟨v, hv, hupdates⟩ := bind_eq_ok.mp hbuild
    obtain rfl := pure_eq_ok.mp hupdates
    have hafter : value env (Patch.apply ⟨none,
        some (env.encryption.encrypt current (some (i, n)) v, current), none⟩ c) = .ok v :=
      env.encryption.decrypt_encrypt _ _ _
    exact ⟨⟨fun _ _ _ h => by simp at h, ⟨v, v, hv, hafter, rfl⟩, fun _ => hafter.trans hv.symm⟩,
      .fresh (i, n) v rfl (hunused n le_rfl) rfl⟩

/-- Lazy rotation follows the contract. -/
theorem lazyRotateKeyIfNeeded_follows {current : ℕ} {k : Connector B → Program B}
    (hk : ∀ c, Follows env t₀ i (k c) (Seen t₀ i (n + 1) id c)) :
    Follows env t₀ i (lazyRotateKeyIfNeeded env current (some (i, n)) id snapshot k)
      (Seen t₀ i n id snapshot) := by
  have hsnapshot : Follows env t₀ i (k snapshot) (Seen t₀ i n id snapshot) :=
    (hk snapshot).pre fun s _ hs => hs.succ
  unfold lazyRotateKeyIfNeeded
  split_ifs
  · exact hsnapshot
  · refine updateWithLock_follows (fun m hm => ?_) ?_ hsnapshot fun _ c' => hk c'
    · exact (Option.some.inj hm).symm
    · exact fun s c updates _ hseen _ hbuild hnonempty =>
        rotation_sound hseen.1 hbuild hnonempty

/-- `findById` leaves the process with a row of the connector. -/
theorem findById_follows {current : ℕ} {tenantId : String} {access : String → Bool}
    {k : Connector B → Program B}
    (hk : ∀ c, Follows env t₀ i (k c) (Seen t₀ i (n + 1) id c)) :
    Follows env t₀ i (findById env current (some (i, n)) tenantId id access k) (Unused i n) := by
  refine .attempt (fail_follows _) fun s hs hunused _ => ?_
  cases hrow : (s.table.row id).filter fun c => c.tenantId = tenantId && access c.tenantId with
  | none =>
    exact ⟨hs, fun o _ => rely_refl s o, _, hunused, stable_unused i n, fail_follows _⟩
  | some c =>
    have hc : s.table.row id = some c := (Option.filter_eq_some_iff.mp hrow).1
    exact ⟨hs, fun o _ => rely_refl s o, _, ⟨hunused, hs.version hc⟩, stable_seen i n id c,
      lazyRotateKeyIfNeeded_follows hk⟩

/-! ### Updates -/

/-- What `buildCredentialUpdates` makes of a row: a patch without a ciphertext if the credentials
stay, or one with the merged credentials, encrypted under the nonce. -/
structure BuiltFrom (env : Environment B) (current : ℕ) (nonce : Nonce) (existing : Connector B)
    (dto : UpdateConnectorCredentialDto) (updates : Patch B) : Prop where
  endpointUrl : updates.endpointUrl = dto.endpointUrl
  encrypted :
    (updates.encrypted = none ∧ updates.agentLogIdHash = none ∧ dto.credentials = none) ∨
    ∃ v v', value env existing = .ok v ∧
      updates.encrypted = some (env.encryption.encrypt current nonce v', current) ∧
      v'.credentials = dto.merge existing.connectorType v.credentials

/-- The availability check keeps what is stable. -/
theorem assertAgentLogIdAvailable_follows (hA : (contract env t₀).Stable i A)
    {existing : Connector B} {agentLogId : Option String}
    {existingCredentials : StoredConnectorCredentials} {k : Option String → Program B}
    (hk : ∀ hash, Follows env t₀ i (k hash) A) :
    Follows env t₀ i (assertAgentLogIdAvailable env id existing agentLogId existingCredentials k)
      A := by
  cases agentLogId with
  | none =>
    simp only [assertAgentLogIdAvailable]
    split_ifs
    · exact fail_follows _
    · exact hk none
  | some agentLogId => exact query_follows hA fun s => demand_follows fun _ _ => hk _

/-- So does building the updates. -/
theorem buildCredentialUpdates_follows (hA : (contract env t₀).Stable i A) {current : ℕ}
    {nonce : Nonce} {existing : Connector B} {dto : UpdateConnectorCredentialDto}
    {answers : Answers} {k : Patch B → Program B}
    (hk : ∀ updates, BuiltFrom env current nonce existing dto updates →
      Follows env t₀ i (k updates) A) :
    Follows env t₀ i (buildCredentialUpdates env current nonce id existing dto answers k) A := by
  obtain ⟨endpointUrl, credentials⟩ := dto
  cases credentials with
  | some changes =>
    refine demand_follows fun v hv => query_follows hA fun _ => demand_follows fun agentLogId _ =>
      assertAgentLogIdAvailable_follows hA fun hash => ?_
    have hpatch : Follows env t₀ i (k ⟨endpointUrl, some (env.encryption.encrypt current nonce
        ⟨mergeCredentials existing.connectorType v.credentials changes, agentLogId⟩, current),
        some hash⟩) A :=
      hk _ ⟨rfl, Or.inr ⟨v, _, hv, rfl, rfl⟩⟩
    unfold ensureWebhookRegistered
    split_ifs
    · exact query_follows hA fun _ => demand_follows fun _ _ => hpatch
    · exact hpatch
  | none =>
    cases endpointUrl with
    | none => exact fail_follows _
    | some endpointUrl =>
      refine demand_follows fun v hv => query_follows hA fun _ =>
        demand_follows fun agentLogId _ => ?_
      split_ifs
      · exact hk _ ⟨rfl, Or.inl ⟨rfl, rfl, rfl⟩⟩
      · exact assertAgentLogIdAvailable_follows hA fun hash =>
          hk _ ⟨rfl, Or.inr ⟨v, _, hv, rfl, rfl⟩⟩

/-- A row that is not stale is the snapshot. -/
theorem eq_of_not_stale [DecidableEq B] {c : Connector B} (hstale : stale c snapshot = false)
    (hkin : Kin c snapshot) : c = snapshot := by
  simp only [stale, Bool.or_eq_false_iff, decide_eq_false_iff_not, not_not] at hstale
  obtain ⟨⟨⟨⟨hendpoint, htype⟩, hactive⟩, hversion⟩, hcipher⟩ := hstale
  have hid := hkin.id
  have htenant := hkin.tenantId
  have hhash := hkin.hash hcipher
  cases c
  cases snapshot
  simp_all

/-- A patch that was built from the row is sound for it. -/
theorem update_sound {current : ℕ} {s : State B} (hs : Inv env t₀ s) (hunused : Unused i n s)
    (hsnapshot : s.table.row id = some snapshot) {dto : UpdateConnectorCredentialDto}
    {updates : Patch B} (hbuilt : BuiltFrom env current (some (i, n)) snapshot dto updates) :
    Sound env ⟨.ofPatch snapshot dto (some (i, n)) updates, id, snapshot,
        updates.apply snapshot⟩ ∧
      Reseals env s (.ofPatch snapshot dto (some (i, n)) updates) snapshot
        (updates.apply snapshot) := by
  have hexact : ∀ row dto' nonce, Call.ofPatch snapshot dto (some (i, n)) updates =
      .update row dto' nonce → snapshot = row := fun row dto' nonce h => by
    simp only [Call.ofPatch, Call.update.injEq] at h
    exact h.1
  have hcall : ¬∀ row dto' nonce, Call.ofPatch snapshot dto (some (i, n)) updates ≠
      .update row dto' nonce := fun h => h _ _ _ rfl
  obtain ⟨hcipher, hhash, hcredentials⟩ | ⟨v, v', hv, hcipher, hmerge⟩ := hbuilt.encrypted
  · obtain ⟨v, hv⟩ := hs.value (hs.version hsnapshot)
    have hafter : value env (updates.apply snapshot) = .ok v := by
      simpa [value, Patch.apply, hcipher] using hv
    refine ⟨⟨hexact, ⟨v, v, hv, hafter, ?_⟩, fun h => absurd h hcall⟩, .same ?_ ?_ ?_⟩
    · simp [Call.ofPatch, Call.merge, UpdateConnectorCredentialDto.merge, hcredentials]
    · simp [Patch.apply, hcipher]
    · simp [Patch.apply, hcipher]
    · simp [Patch.apply, hhash]
  · have hafter : value env (updates.apply snapshot) = .ok v' := by
      simp only [value, Patch.apply, hcipher, Option.map_some, Option.getD_some]
      exact env.encryption.decrypt_encrypt _ _ _
    refine ⟨⟨hexact, ⟨v, v', hv, hafter, hmerge⟩, fun h => absurd h hcall⟩,
      .fresh (i, n) v' ?_ (hunused n le_rfl) ?_⟩
    · simp [Call.ofPatch, Call.nonce, hcipher]
    · simp [Patch.apply, hcipher]

/-- The loop follows the contract, however many attempts are left. -/
theorem updateLoop_follows [DecidableEq B] {current : ℕ} {tenantId : String}
    {dto : UpdateConnectorCredentialDto} {answers : ℕ → Answers} (attempts : ℕ) :
    ∀ (attempt : ℕ) (snapshot : Connector B),
      Follows env t₀ i (updateLoop env i current tenantId id dto answers attempts attempt snapshot)
        (Seen t₀ i (attempt + 1) id snapshot) := by
  induction attempts with
  | zero => exact fun _ _ => fail_follows _
  | succ attempts ih =>
    intro attempt snapshot
    rw [updateLoop]
    refine buildCredentialUpdates_follows (stable_seen i (attempt + 1) id snapshot)
      fun updates hbuilt => ?_
    refine updateWithLock_follows (fun m hm => ?_) ?_ (fail_follows _) fun row updated => ?_
    · simp only [Call.ofPatch, Call.nonce] at hm
      split_ifs at hm
      exact (Option.some.inj hm).symm
    · intro s c patch hs hseen hc hpatch hnonempty
      obtain rfl := Except.ok.inj hpatch
      split_ifs at hnonempty with hstale
      · exact absurd hnonempty (by simp [Patch.none, Patch.isEmpty])
      · have hkin := hs.kin id c snapshot (hs.version hc) hseen.2
        obtain rfl := eq_of_not_stale (by simpa using hstale) hkin
        simp only [hstale]
        exact update_sound hs hseen.1 hc hbuilt
    · simp only
      split_ifs
      · exact ih (attempt + 1) updated
      · exact lazyRotateKeyIfNeeded_follows fun _ _ _ _ => trivial

/-- Deactivating all keeps what is stable. -/
theorem deactivateAllForTenant_follows (tenantId : String)
    (hA : (contract env t₀).Stable i A) :
    Follows env t₀ i (deactivateAllForTenant tenantId) A := by
  refine query_follows hA fun s₀ => .attempt (fail_follows _) fun s hs _ _ => ?_
  refine ⟨hs.update (fun id c hc _ => ?_) (fun _ _ _ _ => ⟨rfl, rfl⟩) fun _ _ _ _ =>
    .same rfl rfl rfl,
    fun o ho => rely_update (fun _ h => by simp [Call.nonce] at h) ho, Contract.done⟩
  obtain ⟨v, hv⟩ := hs.value (hs.version hc)
  exact ⟨fun _ _ _ h => by simp at h, ⟨v, v, hv, hv, rfl⟩, fun _ => rfl⟩

/-- Every request follows the contract. -/
theorem program_follows [DecidableEq B] (r : Request) :
    Follows env t₀ i (r.program env i) ((contract env t₀).start i) := by
  have hstart : ∀ s, (contract env t₀).start i s → Unused i 0 s := fun s hs k _ => hs k
  cases r with
  | update current tenantId id dto access answers =>
    exact Contract.Ok.pre (findById_follows fun c => updateLoop_follows 3 0 c)
      fun s _ hs => hstart s hs
  | find current tenantId id access =>
    exact Contract.Ok.pre (findById_follows fun _ _ _ _ => trivial) fun s _ hs => hstart s hs
  | deactivateAllForTenant tenantId =>
    exact Contract.Ok.pre (deactivateAllForTenant_follows tenantId (stable_unused i 0))
      fun s _ hs => hstart s hs

end Calls

/-- Ciphertexts that show their key version, nonce and content. -/
abbrev Shown := ℕ × Nonce × StoredConnectorCredentials

/-- An encryption that hides nothing. -/
def shownEncryption : Encryption Nonce StoredConnectorCredentials Shown where
  encrypt k n v := (k, n, v)
  decrypt c k := if c.1 = k then .ok c.2.2 else .error (.other "Unsupported state")
  decrypt_encrypt _ _ _ := if_pos rfl
  nonce_inj h := (Prod.mk.inj (Prod.mk.inj h).2).1

def shown : Environment Shown := ⟨shownEncryption, fun t id => t.value ++ ":" ++ id⟩

/-- The credentials of a connector that was created under an older key. -/
def sampleCredentials : StoredConnectorCredentials := ⟨⟨"key", some "wallet", some "secret"⟩, none⟩

def sampleConnector : Connector Shown :=
  ⟨"c", "t", .traction, (0, none, sampleCredentials), "https://agent", true, 0, none⟩

def oneConnector : Table String (Connector Shown) := ⟨[("c", sampleConnector)], by decide⟩

/-- An update of the credentials, made where the key of version 1 is current. -/
def credentialUpdate (dto : UpdateConnectorCredentialsDto) : Request :=
  .update 1 "t" "c" ⟨none, some dto⟩ (fun _ => true) fun _ => ⟨.ok none, .ok ()⟩

/-- Two updates that overlap: the first one also rotates the key, and the second one finds its
snapshot stale and tries again. -/
def racingUpdates : List (Move Request) :=
  [.spawn (credentialUpdate ⟨some "key2", none, none⟩),
    .spawn (credentialUpdate ⟨none, none, some "secret2"⟩),
    .run 0, .run 0, .run 1, .run 0, .run 0, .run 0, .run 1, .run 1, .run 1, .run 1, .run 1, .run 1]

end DigitalTrust.ConnectorUpdates
