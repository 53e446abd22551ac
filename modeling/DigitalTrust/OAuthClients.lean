/-
# OAuth clients

`oauth-client.service.ts` and its repository behind the guards of the controller, for calls that
are made one after another, together with the two statements by which the status-change cascade of
a tenant revokes and restores its clients.  Secrets are random bytes: every call that needs one
draws a value that was never drawn before.
-/
import DigitalTrust.Table
import DigitalTrust.Authorization

namespace DigitalTrust

open Relational

/-! ## Rows -/

inductive OAuthClientRevokedReason where
  | tenantDeactivation
  deriving DecidableEq

abbrev Secret := ℕ

/-- The functions of argon2 that the service calls: a hash verifies the secret that it was made of,
and no other.  A secret is hashed once, with its own salt, so that its hash is a function of it. -/
class Argon2 where
  hash : Secret → String
  verify : String → Secret → Bool
  verify_hash : ∀ secret candidate, verify (hash secret) candidate = true ↔ candidate = secret

def hashClientSecret [Argon2] (secret : Secret) : String := Argon2.hash secret

theorem hashClientSecret_injective [Argon2] : Function.Injective hashClientSecret := by
  intro secret secret' h
  refine (Argon2.verify_hash secret' secret).mp ?_
  rw [show Argon2.hash secret' = Argon2.hash secret from h.symm]
  exact (Argon2.verify_hash secret secret).mpr rfl

/-- A row of `oauth_client`. -/
structure OAuthClient where
  tenantId : Uuid
  clientId : String
  clientSecretHash : Option String
  isPublic : Bool
  name : String
  scopes : List String
  roles : List String
  redirectUris : List String
  grantTypes : List String
  refreshTokenTtlSeconds : Option ℕ
  createdBy : Option Uuid
  revokedAt : Option ℕ
  revokedReason : Option OAuthClientRevokedReason
  deriving DecidableEq

/-- The table `oauth_client` and the number of secrets drawn so far. -/
structure ClientState where
  table : Table Uuid OAuthClient
  drawn : ℕ

namespace OAuthClientService

/-! ## Repository -/

/-- `findByClientId` of the repository. -/
def findByClientId (s : ClientState) (clientId : String) : Option (Uuid × OAuthClient) :=
  s.table.first fun _ c => c.clientId = clientId

def findByTenantAndClientId (s : ClientState) (tenantId : Uuid) (clientId : String) :
    Option (Uuid × OAuthClient) :=
  s.table.first fun _ c => c.tenantId = tenantId && c.clientId = clientId

/-- `update` of the repository. -/
def save (s : ClientState) (id : Uuid) (client : OAuthClient) : ClientState :=
  { s with table := s.table.put id client }

def revoke (s : ClientState) (id : Uuid) (now : ℕ) : ClientState where
  table := s.table.update (fun id' _ => id' = id)
    fun c => { c with revokedAt := some now, revokedReason := none }
  drawn := s.drawn

def revokeAllForTenant (s : ClientState) (tenantId : Uuid) (now : ℕ) : ClientState where
  table := s.table.update (fun _ c => c.tenantId = tenantId && c.revokedAt.isNone)
    fun c => { c with revokedAt := some now, revokedReason := some .tenantDeactivation }
  drawn := s.drawn

def restoreAllForTenant (s : ClientState) (tenantId : Uuid) : ClientState where
  table := s.table.update
    (fun _ c => c.tenantId = tenantId && c.revokedReason = some .tenantDeactivation)
    fun c => { c with revokedAt := none, revokedReason := none }
  drawn := s.drawn

/-! ## Checks -/

/-- The deployment's configuration: the grant types and scopes that it enables. -/
structure OidcConfig where
  grantTypes : List String
  scopes : List String

def machineGrantType : String := "client_credentials"

def reservedOAuthClientIds : List String := ["dtsc-ui", "dtsc-platform-admin"]

def joined (texts : List String) : String := ", ".intercalate texts

def hasPlatformRole (roles : List String) : Bool :=
  roles.any fun role => oauthClientPlatformRoles.contains role

def assertNotReserved (client : OAuthClient) : Except Failure Unit :=
  ensure (client.clientId ∉ reservedOAuthClientIds)
    (.forbidden "System OAuth clients cannot be managed through tenant client APIs.")

def requireTenantClient (s : ClientState) (tenantId : Uuid) (clientId : String) (active : Bool) :
    Except Failure (Uuid × OAuthClient) := do
  let client ← need (findByTenantAndClientId s tenantId clientId)
    (.notFound s!"OAuth client '{clientId}' was not found.")
  ensure (¬(active = true ∧ client.2.revokedAt ≠ none))
    (.notFound s!"OAuth client '{clientId}' was not found.")
  pure client

def assertSupportedGrantTypes (config : OidcConfig) (grantTypes : Option (List String)) :
    Except Failure Unit :=
  let unsupported := (grantTypes.getD []).filter fun g => !config.grantTypes.contains g
  ensure (unsupported = []) (.badRequest ("Unsupported grant type(s): " ++ joined unsupported ++
    ". Supported grant type(s): " ++ joined config.grantTypes ++ "."))

def assertRoleConstraints (roles grantTypes : List String) (caller : AuthContext)
    (checkAssignment : Bool) (previousRoles : List String) : Except Failure Unit := do
  let unknown := roles.filter fun role => !oauthClientAllowedRoles.contains role
  ensure (unknown = []) (.badRequest ("Unsupported role(s): " ++ joined unknown ++
    ". Allowed role(s): " ++ joined oauthClientAllowedRoles ++ "."))
  ensure (¬(checkAssignment = true ∧ hasPlatformRole previousRoles ≠ hasPlatformRole roles ∧
      isPlatformAdmin caller.roles = false))
    (.forbidden ("Only platform-admin callers may assign or clear platform-level roles " ++
      "on OAuth clients."))
  ensure (roles = [] ∨ grantTypes.dedup = [machineGrantType])
    (.badRequest ("Roles may only be assigned to clients restricted to the " ++
      machineGrantType ++ " grant."))

def assertAssignableScopes (config : OidcConfig) (scopes : List String) (caller : AuthContext) :
    Except Failure Unit := do
  ensure (scopes ≠ []) (.badRequest "At least one scope is required.")
  let denied := deniedScopes scopes
    (assignableOAuthClientScopes.filter fun scope => config.scopes.contains scope)
    (expandEffectiveScopes caller.scopes) (isPlatformAdmin caller.roles)
  let unknown := denied.filter fun scope => !assignableOAuthClientScopes.contains scope
  ensure (unknown = []) (.badRequest ("Unsupported scope(s): " ++ joined unknown ++
    ". Allowed scope(s): " ++ joined assignableOAuthClientScopes ++ "."))
  let notConfigured := denied.filter fun scope => !config.scopes.contains scope
  ensure (notConfigured = []) (.badRequest ("Scope(s) not enabled on this deployment: " ++
    joined notConfigured ++ "."))
  ensure (denied = []) (.forbidden ("Cannot assign scope(s) not held by the caller: " ++
    joined denied ++ "."))

/-! ### What the lookups and the checks say -/

section Lookups

variable {s s' : ClientState} {tenantId id : Uuid} {clientId : String} {x : Uuid × OAuthClient}
  {c c' : OAuthClient}

theorem findByClientId_eq_none :
    findByClientId s clientId = none ↔ ∀ id c, s.table.row id = some c → c.clientId ≠ clientId := by
  simp [findByClientId, Table.first_eq_none]

theorem findByTenantAndClientId_eq_some (h : findByTenantAndClientId s tenantId clientId = some x) :
    s.table.row x.1 = some x.2 ∧ x.2.tenantId = tenantId ∧ x.2.clientId = clientId := by
  obtain ⟨hrow, hp⟩ := Table.first_eq_some h
  simp only [Bool.and_eq_true, decide_eq_true_eq] at hp
  exact ⟨hrow, hp⟩

theorem row_save (hc : s.table.row id = some c) (c' : OAuthClient) :
    (save s id c').table.row id = some c' := by
  rw [save, Table.row_put, if_pos rfl, hc]
  rfl

/-- When a client is found for a tenant. -/
theorem requireTenantClient_eq_ok {active : Bool} :
    requireTenantClient s tenantId clientId active = .ok x ↔
      findByTenantAndClientId s tenantId clientId = some x ∧
        (active = true → x.2.revokedAt = none) := by
  simp only [requireTenantClient, bind_eq_ok, need_eq_ok, ensure_eq_ok, pure_eq_ok]
  constructor
  · rintro ⟨y, hy, -, hactive, rfl⟩
    exact ⟨hy, by tauto⟩
  · rintro ⟨hx, hactive⟩
    exact ⟨x, hx, (), by tauto, rfl⟩

/-- The roles of a client change their level only at the hands of a platform admin. -/
theorem assertRoleConstraints_level {roles grantTypes previousRoles : List String}
    {caller : AuthContext} {u : Unit} (hcaller : isPlatformAdmin caller.roles = false)
    (h : assertRoleConstraints roles grantTypes caller true previousRoles = .ok u) :
    hasPlatformRole previousRoles = hasPlatformRole roles := by
  simp only [assertRoleConstraints, bind_eq_ok, ensure_eq_ok] at h
  obtain ⟨-, -, -, hlevel, -⟩ := h
  by_contra hne
  exact hlevel ⟨trivial, hne, hcaller⟩

/-- What a request on an existing client found: the row of the tenant under the client's
identifier, which is not one of the system's own. -/
structure Finds (s : ClientState) (tenantId : Uuid) (clientId : String) (id : Uuid)
    (c : OAuthClient) : Prop where
  found : findByTenantAndClientId s tenantId clientId = some (id, c)
  row : s.table.row id = some c
  tenant : c.tenantId = tenantId
  client : c.clientId = clientId
  managed : c.clientId ∉ reservedOAuthClientIds

theorem finds_of {u : Unit} (h : findByTenantAndClientId s tenantId clientId = some x)
    (hr : assertNotReserved x.2 = .ok u) : Finds s tenantId clientId x.1 x.2 := by
  obtain ⟨hrow, ht, hid⟩ := findByTenantAndClientId_eq_some h
  exact ⟨h, hrow, ht, hid, ensure_eq_ok.mp hr⟩

/-! ### Rows rewritten one by one -/

/-- The rows are rewritten one by one, each in a way that `P` allows. -/
def RowWise (P : OAuthClient → OAuthClient → Prop) (s s' : ClientState) : Prop :=
  ∀ k, Option.Rel P (s.table.row k) (s'.table.row k)

section RowWise

variable {P : OAuthClient → OAuthClient → Prop} {s s' : ClientState}

theorem rowWise_refl (hP : ∀ c, P c c) (s : ClientState) : RowWise P s s := by
  intro k
  cases s.table.row k with
  | none => exact .none
  | some c => exact .some (hP c)

/-- Writing one row back. -/
theorem rowWise_save (hP : ∀ d, P d d) (hc : s.table.row id = some c) (h : P c c')
    (hs : s'.table = s.table.put id c') : RowWise P s s' := by
  intro k
  rw [hs, Table.row_put]
  by_cases e : k = id
  · rw [if_pos e, e, hc]
    exact .some h
  · rw [if_neg e]
    exact rowWise_refl hP s k

/-- `UPDATE ... WHERE`. -/
theorem rowWise_update {p : Uuid → OAuthClient → Bool} {u : OAuthClient → OAuthClient} {n : ℕ}
    (hP : ∀ c, P c c) (h : ∀ k c, s.table.row k = some c → p k c = true → P c (u c)) :
    RowWise P s ⟨s.table.update p u, n⟩ := by
  intro k
  rw [Table.row_update]
  cases hc : s.table.row k with
  | none => exact .none
  | some c =>
    rw [Option.map_some]
    split
    · rename_i hp
      exact .some (h k c hc hp)
    · exact .some (hP c)

/-- A row after the change comes from one before it. -/
theorem RowWise.back (h : RowWise P s s') {k : Uuid} (hc' : s'.table.row k = some c') :
    ∃ c, s.table.row k = some c ∧ P c c' := by
  have hk := h k
  rw [hc'] at hk
  cases hrow : s.table.row k with
  | none => rw [hrow] at hk; cases hk
  | some c =>
    rw [hrow] at hk
    cases hk with
    | some hP => exact ⟨c, rfl, hP⟩

/-- A row before the change is still there after it. -/
theorem RowWise.forth (h : RowWise P s s') {k : Uuid} (hc : s.table.row k = some c) :
    ∃ c', s'.table.row k = some c' ∧ P c c' := by
  have hk := h k
  rw [hc] at hk
  cases hrow : s'.table.row k with
  | none => rw [hrow] at hk; cases hk
  | some c' =>
    rw [hrow] at hk
    cases hk with
    | some hP => exact ⟨c', rfl, hP⟩

end RowWise

end Lookups

/-! ## Service -/

/-- `CreateOAuthClientDto`; an absent member is `none`. -/
structure CreateOAuthClientDto where
  clientId : Option String
  name : String
  scopes : List String
  roles : Option (List String)
  redirectUris : Option (List String)
  grantTypes : Option (List String)
  refreshTokenTtlSeconds : Option ℕ

/-- `UpdateOAuthClientDto`; an absent member is `none`. -/
structure UpdateOAuthClientDto where
  name : Option String
  scopes : Option (List String)
  roles : Option (List String)
  redirectUris : Option (List String)
  grantTypes : Option (List String)
  refreshTokenTtlSeconds : Option (Option ℕ)

/-- `randomBytes`: a secret that was never drawn before. -/
def drawSecret (s : ClientState) : ClientState × Secret :=
  ({ s with drawn := s.drawn + 1 }, s.drawn)

/-- The user that is recorded as creator. -/
def createdBy (caller : AuthContext) : Option Uuid :=
  match caller.subject with
  | .user id => some id
  | .machine _ => none

section Service

variable [Argon2]

/-- `createClient`; `id` is the new row's and `generated` the identifier that is generated
if the request has none. -/
def createClient (config : OidcConfig) (s : ClientState) (id : Uuid) (generated : String)
    (tenantId : Uuid) (dto : CreateOAuthClientDto) (caller : AuthContext) :
    Except Failure (ClientState × Secret) := do
  let grantTypes := dto.grantTypes.getD [machineGrantType]
  let roles := dto.roles.getD []
  assertSupportedGrantTypes config (some grantTypes)
  assertRoleConstraints roles grantTypes caller dto.roles.isSome []
  assertAssignableScopes config dto.scopes caller
  let clientId := dto.clientId.getD generated
  ensure (findByClientId s clientId = none) (.conflict "OAuth client ID is already in use.")
  let table ← need
    (s.table.insert id ⟨tenantId, clientId, some (hashClientSecret (drawSecret s).2), false,
      dto.name, dto.scopes, roles, dto.redirectUris.getD [], grantTypes,
      dto.refreshTokenTtlSeconds, createdBy caller, none, none⟩)
    (.other "duplicate key value violates unique constraint")
  pure ({ (drawSecret s).1 with table := table }, (drawSecret s).2)

/-- The columns that `update` changes. -/
def UpdateOAuthClientDto.apply (dto : UpdateOAuthClientDto) (client : OAuthClient) : OAuthClient :=
  { client with
    name := dto.name.getD client.name
    scopes := dto.scopes.getD client.scopes
    roles := dto.roles.getD client.roles
    redirectUris := dto.redirectUris.getD client.redirectUris
    grantTypes := dto.grantTypes.getD client.grantTypes
    refreshTokenTtlSeconds := dto.refreshTokenTtlSeconds.getD client.refreshTokenTtlSeconds }

/-- The check on the scopes of an update, made only if the request names scopes. -/
def assertUpdatedScopes (config : OidcConfig) (caller : AuthContext) :
    Option (List String) → Except Failure Unit
  | none => .ok ()
  | some scopes => assertAssignableScopes config scopes caller

def update (config : OidcConfig) (s : ClientState) (tenantId : Uuid) (clientId : String)
    (dto : UpdateOAuthClientDto) (caller : AuthContext) : Except Failure ClientState := do
  assertSupportedGrantTypes config dto.grantTypes
  let client ← requireTenantClient s tenantId clientId true
  assertNotReserved client.2
  assertRoleConstraints (dto.roles.getD client.2.roles) (dto.grantTypes.getD client.2.grantTypes)
    caller dto.roles.isSome client.2.roles
  assertUpdatedScopes config caller dto.scopes
  pure (save s client.1 (dto.apply client.2))

def revokeClient (s : ClientState) (tenantId : Uuid) (clientId : String) (now : ℕ) :
    Except Failure ClientState := do
  let client ← requireTenantClient s tenantId clientId false
  assertNotReserved client.2
  pure (if client.2.revokedAt.isSome then s else revoke s client.1 now)

def rotateSecret (s : ClientState) (tenantId : Uuid) (clientId : String) :
    Except Failure (ClientState × Secret) := do
  let client ← requireTenantClient s tenantId clientId true
  assertNotReserved client.2
  ensure (client.2.isPublic = false) (.badRequest "Public clients do not have a client secret.")
  pure (save (drawSecret s).1 client.1
    { client.2 with clientSecretHash := some (hashClientSecret (drawSecret s).2) },
    (drawSecret s).2)

def reactivateClient (s : ClientState) (tenantId : Uuid) (clientId : String) :
    Except Failure ClientState := do
  let client ← requireTenantClient s tenantId clientId false
  assertNotReserved client.2
  pure (save s client.1 { client.2 with revokedAt := none, revokedReason := none })

def verifyClientSecret (s : ClientState) (clientId : String) (clientSecret : Secret) :
    Except Failure Bool := do
  let client ← need (findByClientId s clientId)
    (.notFound s!"OAuth client with ID '{clientId}' was not found.")
  pure (client.2.revokedAt.isNone &&
    client.2.clientSecretHash.any fun h => Argon2.verify h clientSecret)

/-! ## Requests -/

/-- The calls on the clients: those of the controller, made by the bearer of a token, and
those of the status-change cascade. -/
inductive Request where
  | createClient (caller : AuthContext) (tenantId : Uuid) (dto : CreateOAuthClientDto)
      (id : Uuid) (generated : String)
  | update (caller : AuthContext) (tenantId : Uuid) (clientId : String)
      (dto : UpdateOAuthClientDto)
  | revokeClient (caller : AuthContext) (tenantId : Uuid) (clientId : String) (now : ℕ)
  | rotateSecret (caller : AuthContext) (tenantId : Uuid) (clientId : String)
  | reactivateClient (caller : AuthContext) (tenantId : Uuid) (clientId : String)
  | revokeAllForTenant (tenantId : Uuid) (now : ℕ)
  | restoreAllForTenant (tenantId : Uuid)

/-- Who makes a call, and on which tenant; the cascade has no caller. -/
def Request.caller : Request → Option (AuthContext × Uuid)
  | .createClient caller tenantId .. | .update caller tenantId .. | .revokeClient caller tenantId ..
  | .rotateSecret caller tenantId .. | .reactivateClient caller tenantId .. =>
    some (caller, tenantId)
  | .revokeAllForTenant .. | .restoreAllForTenant .. => none

/-- What a request does behind the guards, and the secret that it returns, if any. -/
def serve (config : OidcConfig) (s : ClientState) :
    Request → Except Failure (ClientState × Option Secret)
  | .createClient caller tenantId dto id generated => do
    let r ← createClient config s id generated tenantId dto caller
    pure (r.1, some r.2)
  | .update caller tenantId clientId dto => do
    let s' ← update config s tenantId clientId dto caller
    pure (s', none)
  | .revokeClient _ tenantId clientId now => do
    let s' ← revokeClient s tenantId clientId now
    pure (s', none)
  | .rotateSecret _ tenantId clientId => do
    let r ← rotateSecret s tenantId clientId
    pure (r.1, some r.2)
  | .reactivateClient _ tenantId clientId => do
    let s' ← reactivateClient s tenantId clientId
    pure (s', none)
  | .revokeAllForTenant tenantId now => .ok (revokeAllForTenant s tenantId now, none)
  | .restoreAllForTenant tenantId => .ok (restoreAllForTenant s tenantId, none)

/-- The guards of the controller: the scope `clients:manage` and the tenant of the route. -/
def guards (r : Request) : Except Failure Unit :=
  ensure (r.caller.all fun c => passesGuards c.1 ["clients:manage"] c.2)
    (.forbidden "Token missing required scope: clients:manage")

def respond (config : OidcConfig) (s : ClientState) (r : Request) :
    Except Failure (ClientState × Option Secret) := do
  guards r
  serve config s r

/-- The state after a request; one that is refused changes nothing. -/
def handle (config : OidcConfig) (s : ClientState) (r : Request) : ClientState :=
  match respond config s r with
  | .ok (s', _) => s'
  | .error _ => s

def run (config : OidcConfig) (s : ClientState) (rs : List Request) : ClientState :=
  rs.foldl (handle config) s

/-! ## What a request does to the rows -/

/-- What a request other than `createClient` may do to a row. -/
inductive Rewriting (s : ClientState) : Request → OAuthClient → OAuthClient → Prop where
  | same (r c) : Rewriting s r c c
  | update (caller tenantId clientId dto c) (ht : c.tenantId = tenantId)
      (hid : c.clientId = clientId) (hactive : c.revokedAt = none)
      (hlevel : isPlatformAdmin caller.roles = false →
        hasPlatformRole (dto.apply c).roles = hasPlatformRole c.roles) :
      Rewriting s (.update caller tenantId clientId dto) c (dto.apply c)
  | revoke (caller tenantId clientId now c) (ht : c.tenantId = tenantId)
      (hid : c.clientId = clientId) (hactive : c.revokedAt = none) :
      Rewriting s (.revokeClient caller tenantId clientId now) c
        { c with revokedAt := some now, revokedReason := none }
  | rotate (caller tenantId clientId c) (ht : c.tenantId = tenantId)
      (hid : c.clientId = clientId) (hactive : c.revokedAt = none) :
      Rewriting s (.rotateSecret caller tenantId clientId) c
        { c with clientSecretHash := some (hashClientSecret s.drawn) }
  | reactivate (caller tenantId clientId c) (ht : c.tenantId = tenantId)
      (hid : c.clientId = clientId) :
      Rewriting s (.reactivateClient caller tenantId clientId) c
        { c with revokedAt := none, revokedReason := none }
  | revokeAll (tenantId now c) (ht : c.tenantId = tenantId) (hactive : c.revokedAt = none) :
      Rewriting s (.revokeAllForTenant tenantId now) c
        { c with revokedAt := some now, revokedReason := some .tenantDeactivation }
  | restoreAll (tenantId c) (ht : c.tenantId = tenantId)
      (htag : c.revokedReason = some .tenantDeactivation) :
      Rewriting s (.restoreAllForTenant tenantId) c
        { c with revokedAt := none, revokedReason := none }

variable {s s' : ClientState} {tenantId id : Uuid} {clientId : String} {x : Uuid × OAuthClient}
  {config : OidcConfig} {r : Request} {o : Option Secret} {c c' : OAuthClient}

/-- A request that gets past the guards is served. -/
theorem respond_eq_ok {x : ClientState × Option Secret} :
    respond config s r = .ok x ↔ guards r = .ok () ∧ serve config s r = .ok x := by
  simp only [respond, bind_eq_ok]
  constructor
  · rintro ⟨u, hg, hs⟩
    exact ⟨hg, hs⟩
  · rintro ⟨hg, hs⟩
    exact ⟨(), hg, hs⟩

/-- A new row, with a secret of its own. -/
structure Creates (s : ClientState) (id : Uuid) (c : OAuthClient) (s' : ClientState) : Prop where
  unused : findByClientId s c.clientId = none
  secret : c.clientSecretHash = some (hashClientSecret s.drawn)
  drawn : s'.drawn = s.drawn + 1
  row : ∀ k, s'.table.row k = if k = id then some c else s.table.row k

/-! ### Each request -/

/-- What `createClient` does. -/
theorem serve_createClient {caller : AuthContext} {dto : CreateOAuthClientDto} {generated : String}
    (h : serve config s (.createClient caller tenantId dto id generated) = .ok (s', o)) :
    ∃ c, Creates s id c s' ∧ s.table.row id = none ∧ o = some s.drawn ∧
      (isPlatformAdmin caller.roles = false → hasPlatformRole c.roles = false) := by
  simp only [serve, createClient, bind_eq_ok, need_eq_ok, ensure_eq_ok, pure_eq_ok,
    Prod.mk.injEq] at h
  obtain ⟨x, ⟨-, -, _, hroles, -, -, -, hunused, table, htable, rfl⟩, rfl, rfl⟩ := h
  refine ⟨_, ⟨hunused, rfl, rfl, Table.row_insert htable⟩, Table.row_of_insert htable, rfl,
    fun hcaller => ?_⟩
  cases hdto : dto.roles with
  | none => simp [hasPlatformRole]
  | some roles =>
    rw [hdto] at hroles
    simpa [hasPlatformRole] using (assertRoleConstraints_level hcaller hroles).symm

/-- What `update` does. -/
theorem serve_update {caller : AuthContext} {dto : UpdateOAuthClientDto}
    (h : serve config s (.update caller tenantId clientId dto) = .ok (s', o)) :
    ∃ id c, Finds s tenantId clientId id c ∧ c.revokedAt = none ∧
      s' = save s id (dto.apply c) ∧ o = none ∧
      (isPlatformAdmin caller.roles = false →
        hasPlatformRole (dto.apply c).roles = hasPlatformRole c.roles) := by
  simp only [serve, update, bind_eq_ok, requireTenantClient_eq_ok, pure_eq_ok,
    Prod.mk.injEq] at h
  obtain ⟨-, ⟨-, -, x, ⟨hx, hactive⟩, _, hres, _, hroles, -, -, rfl⟩, rfl, rfl⟩ := h
  refine ⟨x.1, x.2, finds_of hx hres, hactive trivial, rfl, rfl, fun hcaller => ?_⟩
  cases hdto : dto.roles with
  | none => simp [UpdateOAuthClientDto.apply, hdto]
  | some roles =>
    rw [hdto] at hroles
    simpa [UpdateOAuthClientDto.apply, hdto] using
      (assertRoleConstraints_level hcaller hroles).symm

/-- What `revokeClient` does. -/
theorem serve_revokeClient {caller : AuthContext} {now : ℕ}
    (h : serve config s (.revokeClient caller tenantId clientId now) = .ok (s', o)) :
    ∃ id c, Finds s tenantId clientId id c ∧
      s' = (if c.revokedAt.isSome then s else revoke s id now) ∧ o = none := by
  simp only [serve, revokeClient, bind_eq_ok, requireTenantClient_eq_ok, pure_eq_ok,
    Prod.mk.injEq] at h
  obtain ⟨-, ⟨x, ⟨hx, -⟩, _, hres, rfl⟩, rfl, rfl⟩ := h
  exact ⟨x.1, x.2, finds_of hx hres, rfl, rfl⟩

/-- What `rotateSecret` does. -/
theorem serve_rotateSecret {caller : AuthContext}
    (h : serve config s (.rotateSecret caller tenantId clientId) = .ok (s', o)) :
    ∃ id c, Finds s tenantId clientId id c ∧ c.revokedAt = none ∧
      s' = save (drawSecret s).1 id { c with clientSecretHash := some (hashClientSecret s.drawn) } ∧
      o = some s.drawn := by
  simp only [serve, rotateSecret, bind_eq_ok, requireTenantClient_eq_ok, ensure_eq_ok, pure_eq_ok,
    Prod.mk.injEq] at h
  obtain ⟨-, ⟨x, ⟨hx, hactive⟩, _, hres, -, -, rfl⟩, rfl, rfl⟩ := h
  exact ⟨x.1, x.2, finds_of hx hres, hactive trivial, rfl, rfl⟩

/-- What `reactivateClient` does. -/
theorem serve_reactivateClient {caller : AuthContext}
    (h : serve config s (.reactivateClient caller tenantId clientId) = .ok (s', o)) :
    ∃ id c, Finds s tenantId clientId id c ∧
      s' = save s id { c with revokedAt := none, revokedReason := none } ∧ o = none := by
  simp only [serve, reactivateClient, bind_eq_ok, requireTenantClient_eq_ok, pure_eq_ok,
    Prod.mk.injEq] at h
  obtain ⟨-, ⟨x, ⟨hx, -⟩, _, hres, rfl⟩, rfl, rfl⟩ := h
  exact ⟨x.1, x.2, finds_of hx hres, rfl, rfl⟩

/-- A request creates a client, or rewrites rows one by one. -/
theorem serve_cases (h : serve config s r = .ok (s', o)) :
    (∃ caller tenantId dto id generated c, r = .createClient caller tenantId dto id generated ∧
      Creates s id c s' ∧ s.table.row id = none ∧
      (isPlatformAdmin caller.roles = false → hasPlatformRole c.roles = false)) ∨
    RowWise (Rewriting s r) s s' := by
  cases r with
  | createClient caller tenantId dto id generated =>
    obtain ⟨c, hc, hnew, -, hlevel⟩ := serve_createClient h
    exact .inl ⟨caller, tenantId, dto, id, generated, c, rfl, hc, hnew, hlevel⟩
  | update caller tenantId clientId dto =>
    obtain ⟨id, c, hf, hactive, rfl, -, hlevel⟩ := serve_update h
    exact .inr (rowWise_save (.same _) hf.row
      (.update _ _ _ _ c hf.tenant hf.client hactive hlevel) rfl)
  | revokeClient caller tenantId clientId now =>
    obtain ⟨id, c, hf, rfl, -⟩ := serve_revokeClient h
    right
    split
    · exact rowWise_refl (.same _) s
    · rename_i hactive
      refine rowWise_update (.same _) fun k d hd hk => ?_
      obtain rfl : k = id := by simpa using hk
      obtain rfl := Option.mem_unique hf.row hd
      exact .revoke _ _ _ _ c hf.tenant hf.client (by simpa using hactive)
  | rotateSecret caller tenantId clientId =>
    obtain ⟨id, c, hf, hactive, rfl, -⟩ := serve_rotateSecret h
    exact .inr (rowWise_save (.same _) hf.row (.rotate _ _ _ c hf.tenant hf.client hactive) rfl)
  | reactivateClient caller tenantId clientId =>
    obtain ⟨id, c, hf, rfl, -⟩ := serve_reactivateClient h
    exact .inr (rowWise_save (.same _) hf.row (.reactivate _ _ _ c hf.tenant hf.client) rfl)
  | revokeAllForTenant tenantId now =>
    obtain ⟨rfl, -⟩ := Prod.mk.inj (Except.ok.inj h)
    refine .inr (rowWise_update (.same _) fun k c _ hk => ?_)
    simp only [Bool.and_eq_true, decide_eq_true_eq, Option.isNone_iff_eq_none] at hk
    exact .revokeAll _ _ c hk.1 hk.2
  | restoreAllForTenant tenantId =>
    obtain ⟨rfl, -⟩ := Prod.mk.inj (Except.ok.inj h)
    refine .inr (rowWise_update (.same _) fun k c _ hk => ?_)
    simp only [Bool.and_eq_true, decide_eq_true_eq] at hk
    exact .restoreAll _ c hk.1 hk.2

/-- How many secrets are drawn by a request. -/
theorem serve_drawn (h : serve config s r = .ok (s', o)) :
    (s'.drawn = s.drawn ∧ o = none) ∨ (s'.drawn = s.drawn + 1 ∧ o = some s.drawn) := by
  cases r with
  | createClient caller tenantId dto id generated =>
    obtain ⟨c, hc, -, rfl, -⟩ := serve_createClient h
    exact Or.inr ⟨hc.drawn, rfl⟩
  | update caller tenantId clientId dto =>
    obtain ⟨id, c, -, -, rfl, rfl, -⟩ := serve_update h
    exact Or.inl ⟨rfl, rfl⟩
  | revokeClient caller tenantId clientId now =>
    obtain ⟨id, c, -, rfl, rfl⟩ := serve_revokeClient h
    exact Or.inl ⟨by split <;> rfl, rfl⟩
  | rotateSecret caller tenantId clientId =>
    obtain ⟨id, c, -, -, rfl, rfl⟩ := serve_rotateSecret h
    exact Or.inr ⟨rfl, rfl⟩
  | reactivateClient caller tenantId clientId =>
    obtain ⟨id, c, -, rfl, rfl⟩ := serve_reactivateClient h
    exact Or.inl ⟨rfl, rfl⟩
  | revokeAllForTenant tenantId now =>
    obtain ⟨rfl, rfl⟩ := Prod.mk.inj (Except.ok.inj h)
    exact Or.inl ⟨rfl, rfl⟩
  | restoreAllForTenant tenantId =>
    obtain ⟨rfl, rfl⟩ := Prod.mk.inj (Except.ok.inj h)
    exact Or.inl ⟨rfl, rfl⟩

theorem drawn_le_of_serve (h : serve config s r = .ok (s', o)) : s.drawn ≤ s'.drawn := by
  rcases serve_drawn h with ⟨hd, -⟩ | ⟨hd, -⟩ <;> omega

/-- A rewritten row keeps its identifiers; a new secret is the one just drawn. -/
theorem Rewriting.keeps (h : Rewriting s r c c') :
    c'.clientId = c.clientId ∧ c'.tenantId = c.tenantId ∧
      (c'.clientSecretHash = c.clientSecretHash ∨
        c'.clientSecretHash = some (hashClientSecret s.drawn) ∧ ∃ caller tenantId clientId,
          r = .rotateSecret caller tenantId clientId) := by
  cases h with
  | rotate caller tenantId clientId =>
    exact ⟨rfl, rfl, Or.inr ⟨rfl, caller, tenantId, clientId, rfl⟩⟩
  | _ => exact ⟨rfl, rfl, Or.inl rfl⟩

/-- Who is no platform admin leaves the level of the roles alone. -/
theorem Rewriting.level (h : Rewriting s r c c')
    (hr : ∀ x, r.caller = some x → isPlatformAdmin x.1.roles = false) :
    hasPlatformRole c'.roles = hasPlatformRole c.roles := by
  cases h with
  | update caller tenantId clientId dto _ _ _ _ hlevel => exact hlevel (hr (caller, tenantId) rfl)
  | _ => rfl

/-! ## Well-formed states -/

def Verifies (c : OAuthClient) (secret : Secret) : Prop :=
  (c.clientSecretHash.any fun h => Argon2.verify h secret) = true

theorem verifies_of_hash {own secret : Secret}
    (h : c.clientSecretHash = some (hashClientSecret own)) : Verifies c secret ↔ secret = own := by
  rw [Verifies, h, Option.any_some]
  exact Argon2.verify_hash own secret

/-- No client verifies a secret that is still to be drawn, and identifiers of clients are
unique. -/
structure WellFormed (s : ClientState) : Prop where
  drawn : ∀ id c secret, s.table.row id = some c → Verifies c secret → secret < s.drawn
  unique : ∀ id id' c c', s.table.row id = some c → s.table.row id' = some c' →
    c.clientId = c'.clientId → id = id'

/-- A creation keeps the table well formed. -/
theorem wellFormed_creates (hs : WellFormed s) (h : Creates s id c s') : WellFormed s' := by
  have hunused := findByClientId_eq_none.mp h.unused
  refine ⟨fun k d secret hd hverifies => ?_, fun k k' d d' hd hd' he => ?_⟩
  · rw [h.drawn]
    rw [h.row] at hd
    split at hd
    · obtain rfl := Option.some.inj hd
      obtain rfl := (verifies_of_hash h.secret).mp hverifies
      exact Nat.lt_succ_self _
    · exact Nat.lt_succ_of_lt (hs.drawn k d secret hd hverifies)
  · rw [h.row] at hd hd'
    split at hd <;> split at hd'
    · rename_i e e'
      rw [e, e']
    · obtain rfl := Option.some.inj hd
      exact absurd he.symm (hunused k' d' hd')
    · obtain rfl := Option.some.inj hd'
      exact absurd he (hunused k d hd)
    · exact hs.unique k k' d d' hd hd' he

/-- A rewritten row verifies what it verified before, or the secret just drawn. -/
theorem Rewriting.verifies (h : Rewriting s r c c') {secret : Secret}
    (hverifies : Verifies c' secret) :
    Verifies c secret ∨ secret = s.drawn ∧ ∃ caller tenantId clientId,
      r = .rotateSecret caller tenantId clientId := by
  obtain ⟨-, -, hsame | ⟨hnew, hrotate⟩⟩ := h.keeps
  · rw [Verifies, hsame] at hverifies
    exact Or.inl hverifies
  · exact Or.inr ⟨(verifies_of_hash hnew).mp hverifies, hrotate⟩

/-- So does every request. -/
theorem wellFormed_serve (hs : WellFormed s) (h : serve config s r = .ok (s', o)) :
    WellFormed s' := by
  rcases serve_cases h with ⟨_, _, _, id, _, c, rfl, hc, -⟩ | hrows
  · exact wellFormed_creates hs hc
  · refine ⟨fun k c' secret hc' hverifies => ?_, fun k k' c' d' hc' hd' he => ?_⟩
    · obtain ⟨c, hc, hrw⟩ := hrows.back hc'
      obtain hold | ⟨rfl, caller, tenantId, clientId, rfl⟩ := hrw.verifies hverifies
      · exact (hs.drawn k c secret hc hold).trans_le (drawn_le_of_serve h)
      · obtain ⟨id, d, -, -, rfl, -⟩ := serve_rotateSecret h
        exact Nat.lt_succ_self _
    · obtain ⟨c, hc, hrw⟩ := hrows.back hc'
      obtain ⟨d, hd, hrw'⟩ := hrows.back hd'
      exact hs.unique k k' c d hc hd (hrw.keeps.1.symm.trans (he.trans hrw'.keeps.1))

/-- The states of the service. -/
abbrev Clients := {s : ClientState // WellFormed s}

/-- The state after a request. -/
theorem handle_cases (config : OidcConfig) (s : ClientState) (r : Request) :
    (∃ o, respond config s r = .ok (handle config s r, o)) ∨
      ((∃ e, respond config s r = .error e) ∧ handle config s r = s) := by
  unfold handle
  cases h : respond config s r with
  | ok x => exact Or.inl ⟨x.2, rfl⟩
  | error e => exact Or.inr ⟨⟨e, rfl⟩, rfl⟩

/-- So does every run. -/
theorem wellFormed_run (config : OidcConfig) (rs : List Request) :
    ∀ {s : ClientState}, WellFormed s → WellFormed (run config s rs) := by
  induction rs with
  | nil => exact fun hs => hs
  | cons r rs ih =>
    intro s hs
    refine ih ?_
    rcases handle_cases config s r with ⟨o, h⟩ | ⟨-, h⟩
    · exact wellFormed_serve hs (respond_eq_ok.mp h).2
    · rw [h]
      exact hs

/-! ## Clients with a platform-level role -/

def CarriesPlatformRole (s : ClientState) (id : Uuid) : Prop :=
  ∃ c, s.table.row id = some c ∧ hasPlatformRole c.roles = true

/-- The call is made by one who is no platform admin. -/
def Request.byNonAdmin (r : Request) : Bool := r.caller.any fun c => !isPlatformAdmin c.1.roles

/-- The secret that a call returns, if any. -/
def returned (config : OidcConfig) (s : ClientState) (r : Request) : Option Secret :=
  match respond config s r with
  | .ok (_, secret) => secret
  | .error _ => none

/-- The secrets that a sequence of calls returns to callers that are no platform admins. -/
def learned (config : OidcConfig) : ClientState → List Request → List Secret
  | _, [] => []
  | s, r :: rs =>
    (if r.byNonAdmin then (returned config s r).toList else []) ++
      learned config (handle config s r) rs

/-- The secret authenticates a client which is not revoked and carries a platform-level role. -/
def AuthenticatesPlatform (s : ClientState) (secret : Secret) : Prop :=
  ∃ clientId id c, findByClientId s clientId = some (id, c) ∧ c.revokedAt = none ∧
    hasPlatformRole c.roles = true ∧ verifyClientSecret s clientId secret = .ok true

/-- The call changes whether some client carries a platform-level role. -/
def ChangesPlatformRole (config : OidcConfig) (s : ClientState) (r : Request) : Prop :=
  ∃ id, ¬(CarriesPlatformRole (handle config s r) id ↔ CarriesPlatformRole s id)

/-- The call rotates the secret of a client that carries a platform-level role. -/
def RotatesPlatformSecret (config : OidcConfig) (s : ClientState) (r : Request) : Prop :=
  ∃ caller tenantId clientId id c x, r = .rotateSecret caller tenantId clientId ∧
    findByTenantAndClientId s tenantId clientId = some (id, c) ∧
    hasPlatformRole c.roles = true ∧ respond config s r = .ok x

/-- The call gives a platform-level role to a client that had none and verifies one of the
secrets. -/
def PromotesKnown (config : OidcConfig) (s : ClientState) (known : List Secret) (r : Request) :
    Prop :=
  ∃ caller tenantId clientId dto id c x, r = .update caller tenantId clientId dto ∧
    findByTenantAndClientId s tenantId clientId = some (id, c) ∧
    hasPlatformRole c.roles = false ∧ hasPlatformRole (dto.apply c).roles = true ∧
    (∃ secret ∈ known, Verifies c secret) ∧ respond config s r = .ok x

/-- No secret that was returned to one who is no platform admin ever authenticates a client with a
platform-level role, and no call of such a one changes whether a client carries one. -/
def PlatformClientsSafe (config : OidcConfig) (s : ClientState) (rs : List Request) : Prop :=
  (∀ before later, rs = before ++ later → ∀ secret ∈ learned config s before,
      ¬AuthenticatesPlatform (run config s before) secret) ∧
    ∀ before r later, rs = before ++ r :: later → r.byNonAdmin = true →
      ¬ChangesPlatformRole config (run config s before) r

/-- Authenticating with a secret: the client is not revoked and verifies it. -/
theorem verifyClientSecret_eq_true {secret : Secret} :
    verifyClientSecret s clientId secret = .ok true ↔
      ∃ id c, findByClientId s clientId = some (id, c) ∧ c.revokedAt = none ∧
        Verifies c secret := by
  simp only [verifyClientSecret, Verifies, bind_eq_ok, need_eq_ok, pure_eq_ok, Bool.and_eq_true,
    Option.isNone_iff_eq_none, Prod.exists]

/-- The one row with a client id. -/
theorem findByClientId_eq_some (hs : WellFormed s) :
    findByClientId s clientId = some (id, c) ↔ s.table.row id = some c ∧ c.clientId = clientId := by
  constructor
  · intro h
    simpa using Table.first_eq_some h
  · rintro ⟨hc, rfl⟩
    cases h : findByClientId s c.clientId with
    | none => exact absurd rfl (findByClientId_eq_none.mp h id c hc)
    | some x =>
      obtain ⟨hx, hid⟩ := Table.first_eq_some h
      obtain ⟨k, d⟩ := x
      obtain rfl := hs.unique k id d c hx hc (by simpa using hid)
      rw [hc] at hx
      rw [Option.some.inj hx]

/-- A secret authenticates a client of the platform exactly if some row does. -/
theorem authenticatesPlatform_iff (hs : WellFormed s) {secret : Secret} :
    AuthenticatesPlatform s secret ↔ ∃ id c, s.table.row id = some c ∧ c.revokedAt = none ∧
      hasPlatformRole c.roles = true ∧ Verifies c secret := by
  constructor
  · rintro ⟨clientId, id, c, hfind, hactive, hplatform, hverify⟩
    obtain ⟨id', c', hfind', -, hverifies⟩ := verifyClientSecret_eq_true.mp hverify
    obtain ⟨rfl, rfl⟩ := Prod.mk.inj (Option.mem_unique hfind hfind')
    exact ⟨id, c, ((findByClientId_eq_some hs).mp hfind).1, hactive, hplatform, hverifies⟩
  · rintro ⟨id, c, hc, hactive, hplatform, hverifies⟩
    have hfind := (findByClientId_eq_some hs).mpr ⟨hc, rfl⟩
    exact ⟨c.clientId, id, c, hfind, hactive, hplatform,
      verifyClientSecret_eq_true.mpr ⟨id, c, hfind, hactive, hverifies⟩⟩

/-- Who is no platform admin never changes whether a client carries a platform-level role. -/
theorem not_changesPlatformRole (config : OidcConfig) (s : ClientState)
    (hr : r.byNonAdmin = true) : ¬ChangesPlatformRole config s r := by
  obtain ⟨⟨caller, tenantId⟩, hcaller, hadmin⟩ := (Option.any_eq_true _ _).mp hr
  replace hadmin : isPlatformAdmin caller.roles = false := by simpa using hadmin
  rintro ⟨id, hid⟩
  apply hid
  rcases handle_cases config s r with ⟨o, h⟩ | ⟨-, h⟩
  · have hserve := (respond_eq_ok.mp h).2
    rcases serve_cases hserve with ⟨caller', _, _, id', _, c, rfl, hc, hnew, hlevel⟩ | hrows
    · obtain rfl : caller' = caller := (Prod.mk.inj (Option.some.inj hcaller)).1
      by_cases e : id = id'
      · subst e
        simp [CarriesPlatformRole, hc.row, hnew, hlevel hadmin]
      · simp [CarriesPlatformRole, hc.row, e]
    · have hlevel : ∀ x, r.caller = some x → isPlatformAdmin x.1.roles = false := by
        intro x hx
        obtain rfl := Option.mem_unique hcaller hx
        exact hadmin
      constructor
      · rintro ⟨c', hc', hplatform⟩
        obtain ⟨c, hc, hrw⟩ := hrows.back hc'
        exact ⟨c, hc, (hrw.level hlevel).symm.trans hplatform⟩
      · rintro ⟨c, hc, hplatform⟩
        obtain ⟨c', hc', hrw⟩ := hrows.forth hc
        exact ⟨c', hc', (hrw.level hlevel).trans hplatform⟩
  · rw [h]

/-! ### Secrets that callers have learned -/

theorem run_append (before later : List Request) :
    run config s (before ++ later) = run config (run config s before) later :=
  List.foldl_append

/-- What is learned in two parts. -/
theorem learned_append (before later : List Request) :
    learned config s (before ++ later) =
      learned config s before ++ learned config (run config s before) later := by
  induction before generalizing s with
  | nil => rfl
  | cons r before ih =>
    rw [List.cons_append, learned, learned, ih, List.append_assoc]
    rfl

/-- A call teaches its caller at most the secret that it draws. -/
theorem mem_learned_one {secret : Secret} :
    secret ∈ learned config s [r] ↔
      r.byNonAdmin = true ∧ ∃ s', respond config s r = .ok (s', some secret) := by
  rw [learned, learned, List.append_nil]
  cases hr : r.byNonAdmin with
  | false => simp
  | true =>
    rw [if_pos rfl, returned]
    cases h : respond config s r with
    | error e => simp
    | ok x =>
      obtain ⟨s', o⟩ := x
      simp

/-- No client with a platform-level role verifies one of the secrets, all of which were drawn. -/
structure Kept (s : ClientState) (known : List Secret) : Prop where
  drawn : ∀ secret ∈ known, secret < s.drawn
  level : ∀ id c, s.table.row id = some c → hasPlatformRole c.roles = true →
    ∀ secret ∈ known, ¬Verifies c secret

/-- A row is found by its tenant and its client identifier. -/
theorem findByTenantAndClientId_of_row (hs : WellFormed s) (hc : s.table.row id = some c) :
    findByTenantAndClientId s c.tenantId c.clientId = some (id, c) := by
  cases h : findByTenantAndClientId s c.tenantId c.clientId with
  | none => simpa using Table.first_eq_none.mp h id c hc
  | some x =>
    obtain ⟨hx, -, hclient⟩ := findByTenantAndClientId_eq_some h
    obtain ⟨k, d⟩ := x
    obtain rfl := hs.unique k id d c hx hc hclient
    rw [Option.mem_unique hc hx]

/-- The secret that a served call draws verifies for no client with a platform-level role, if the
caller learns it and rotates no such client's. -/
theorem level_of_drawn (hs : WellFormed s) (hserve : serve config s r = .ok (s', o))
    (hr : r.byNonAdmin = true)
    (hrotates : ∀ caller tenantId clientId id c, r = .rotateSecret caller tenantId clientId →
      findByTenantAndClientId s tenantId clientId = some (id, c) → hasPlatformRole c.roles = false)
    (hc : s'.table.row id = some c) (hverifies : Verifies c s.drawn) :
    hasPlatformRole c.roles = false := by
  have hold : ∀ {d : OAuthClient}, s.table.row id = some d → ¬Verifies d s.drawn :=
    fun hd he => lt_irrefl _ (hs.drawn id _ _ hd he)
  rcases serve_cases hserve with ⟨caller, _, _, id', _, c', rfl, hc', -, hlevel⟩ | hrows
  · rw [hc'.row] at hc
    split at hc
    · obtain rfl := Option.some.inj hc
      exact hlevel (by simpa [Request.byNonAdmin, Request.caller] using hr)
    · exact absurd hverifies (hold hc)
  · obtain ⟨d, hd, hrw⟩ := hrows.back hc
    obtain h | ⟨-, caller, tenantId, clientId, rfl⟩ := hrw.verifies hverifies
    · exact absurd h (hold hd)
    · cases hrw with
      | same => exact absurd hverifies (hold hd)
      | rotate _ _ _ _ ht hid =>
        exact hrotates caller _ _ id d rfl (ht ▸ hid ▸ findByTenantAndClientId_of_row hs hd)

/-- Only `update` gives a client a platform-level role. -/
theorem Rewriting.promotes (h : Rewriting s r c c') (hbefore : hasPlatformRole c.roles = false)
    (hafter : hasPlatformRole c'.roles = true) :
    ∃ caller dto, r = .update caller c.tenantId c.clientId dto ∧ c' = dto.apply c := by
  cases h with
  | update caller tenantId clientId dto _ ht hid => exact ⟨caller, dto, by rw [ht, hid], rfl⟩
  | _ => exact absurd hafter (by simp [hbefore])

/-- A client that verifies an old secret after a call verified it before. -/
theorem verified_before (h : serve config s r = .ok (s', o)) (hc : s'.table.row id = some c)
    {secret : Secret} (hverifies : Verifies c secret) (hne : secret ≠ s.drawn) :
    ∃ d, s.table.row id = some d ∧ Verifies d secret ∧ Rewriting s r d c := by
  rcases serve_cases h with ⟨_, _, _, id', _, c', rfl, hc', -⟩ | hrows
  · rw [hc'.row] at hc
    split at hc
    · obtain rfl := Option.some.inj hc
      exact absurd ((verifies_of_hash hc'.secret).mp hverifies) hne
    · exact ⟨c, hc, hverifies, .same _ c⟩
  · obtain ⟨d, hd, hrw⟩ := hrows.back hc
    exact ⟨d, hd, (hrw.verifies hverifies).resolve_right fun h => hne h.1, hrw⟩

/-- What one call keeps. -/
theorem kept_handle {known : List Secret} (hs : WellFormed s) (hk : Kept s known)
    (hrotates : r.byNonAdmin = true → ¬RotatesPlatformSecret config s r)
    (hpromotes : ¬PromotesKnown config s known r) :
    Kept (handle config s r) (known ++ learned config s [r]) := by
  rcases handle_cases config s r with ⟨o, h⟩ | ⟨⟨e, he⟩, h⟩
  · have hserve := (respond_eq_ok.mp h).2
    have hnew : ∀ secret ∈ learned config s [r], r.byNonAdmin = true ∧ secret = s.drawn ∧
        secret < (handle config s r).drawn := by
      intro secret hsecret
      obtain ⟨hr, s', hs'⟩ := mem_learned_one.mp hsecret
      obtain ⟨-, rfl⟩ := Prod.mk.inj (Except.ok.inj (h.symm.trans hs'))
      rcases serve_drawn hserve with ⟨-, ho⟩ | ⟨hd, ho⟩
      · cases ho
      · obtain rfl := Option.some.inj ho
        exact ⟨hr, rfl, by rw [hd]; exact Nat.lt_succ_self _⟩
    refine ⟨fun secret hsecret => ?_, fun id c hc hplatform secret hsecret hverifies => ?_⟩
    · rcases List.mem_append.mp hsecret with hmem | hmem
      · exact (hk.drawn secret hmem).trans_le (drawn_le_of_serve hserve)
      · exact (hnew secret hmem).2.2
    · rcases List.mem_append.mp hsecret with hmem | hmem
      · obtain ⟨d, hd, hold, hrw⟩ := verified_before hserve hc hverifies (hk.drawn secret hmem).ne
        cases hbefore : hasPlatformRole d.roles with
        | true => exact hk.level id d hd hbefore secret hmem hold
        | false =>
          obtain ⟨caller, dto, rfl, rfl⟩ := hrw.promotes hbefore hplatform
          exact hpromotes ⟨caller, _, _, dto, id, d, _, rfl, findByTenantAndClientId_of_row hs hd,
            hbefore, hplatform, ⟨secret, hmem, hold⟩, h⟩
      · obtain ⟨hr, rfl, -⟩ := hnew secret hmem
        have hlevel := level_of_drawn hs hserve hr (fun caller tenantId clientId id d e hd => by
          by_contra hd'
          exact hrotates hr ⟨caller, tenantId, clientId, id, d, _, e, hd, by simpa using hd', h⟩)
          hc hverifies
        simp [hplatform] at hlevel
  · have hnone : learned config s [r] = [] := by
      refine List.eq_nil_iff_forall_not_mem.mpr fun secret hsecret => ?_
      obtain ⟨-, s', hs'⟩ := mem_learned_one.mp hsecret
      cases he.symm.trans hs'
    rw [h, hnone, List.append_nil]
    exact hk

/-- The calls that a sequence has to avoid. -/
def Exposes (config : OidcConfig) (s : ClientState) (before : List Request) (r : Request) : Prop :=
  (r.byNonAdmin = true ∧ RotatesPlatformSecret config (run config s before) r) ∨
    PromotesKnown config (run config s before) (learned config s before) r

/-- What every prefix of a sequence keeps that avoids them. -/
theorem kept_run (hs : WellFormed s) {rs : List Request}
    (h : ∀ before r later, rs = before ++ r :: later → ¬Exposes config s before r) :
    ∀ before later, rs = before ++ later →
      Kept (run config s before) (learned config s before) := by
  intro before
  induction before using List.reverseRecOn with
  | nil => exact fun _ _ => ⟨fun _ => nofun, fun _ _ _ _ _ => nofun⟩
  | append_singleton before r ih =>
    intro later hrs
    have hrs' : rs = before ++ r :: later := by rw [hrs, List.append_assoc, List.singleton_append]
    obtain ⟨hrotates, hpromotes⟩ := not_or.mp (h before r later hrs')
    rw [run_append, learned_append]
    exact kept_handle (wellFormed_run config before hs) (ih (r :: later) hrs')
      (fun hr hrot => hrotates ⟨hr, hrot⟩) hpromotes

/-- What authenticates a client of the platform after a call. -/
theorem authenticates_after (hs : WellFormed s) (hok : respond config s r = .ok (s', o))
    (hc : s'.table.row id = some c) (hactive : c.revokedAt = none)
    (hplatform : hasPlatformRole c.roles = true) {secret : Secret} (hverifies : Verifies c secret) :
    AuthenticatesPlatform (run config s [r]) secret := by
  rw [run, List.foldl_cons, List.foldl_nil, handle, hok,
    authenticatesPlatform_iff (wellFormed_serve hs (respond_eq_ok.mp hok).2)]
  exact ⟨id, c, hc, hactive, hplatform, hverifies⟩

/-- A call to avoid lets a secret that one who is no platform admin knows authenticate a client of
the platform. -/
theorem authenticates_of_exposes (hs : WellFormed s) {before : List Request}
    (h : Exposes config s before r) :
    ∃ secret ∈ learned config s (before ++ [r]),
      AuthenticatesPlatform (run config s (before ++ [r])) secret := by
  have hwf := wellFormed_run config before hs
  rw [learned_append, run_append]
  obtain ⟨hr, caller, tenantId, clientId, id, c, ⟨s', o⟩, rfl, hfind, hplatform, hok⟩ |
    ⟨caller, tenantId, clientId, dto, id, c, ⟨s', o⟩, rfl, hfind, -, hplatform,
      ⟨secret, hsecret, hverifies⟩, hok⟩ := h
  · obtain ⟨id', c', hf, hactive, rfl, rfl⟩ := serve_rotateSecret (respond_eq_ok.mp hok).2
    obtain ⟨rfl, rfl⟩ := Prod.mk.inj (Option.mem_unique hfind hf.found)
    refine ⟨_, List.mem_append_right _ (mem_learned_one.mpr ⟨hr, _, hok⟩), ?_⟩
    exact authenticates_after hwf hok (row_save (s := (drawSecret _).1) hf.row _) hactive hplatform
      ((verifies_of_hash rfl).mpr rfl)
  · obtain ⟨id', c', hf, hactive, rfl, rfl, -⟩ := serve_update (respond_eq_ok.mp hok).2
    obtain ⟨rfl, rfl⟩ := Prod.mk.inj (Option.mem_unique hfind hf.found)
    exact ⟨secret, List.mem_append_left _ hsecret,
      authenticates_after hwf hok (row_save hf.row _) hactive hplatform hverifies⟩

/-- **Clients of the platform.**  They are safe in a sequence of calls exactly if nobody but a
platform admin rotates the secret of one, and no `update` makes one of a client whose secret was
returned to somebody else. -/
theorem platformClientsSafe_iff (config : OidcConfig) (s : Clients) (rs : List Request) :
    PlatformClientsSafe config s rs ↔ ∀ before r later, rs = before ++ r :: later →
      (r.byNonAdmin = true → ¬RotatesPlatformSecret config (run config s before) r) ∧
        ¬PromotesKnown config (run config s before) (learned config s before) r := by
  have hexposes : ∀ before r, ¬Exposes config s before r ↔
      (r.byNonAdmin = true → ¬RotatesPlatformSecret config (run config s before) r) ∧
        ¬PromotesKnown config (run config s before) (learned config s before) r := by
    intro before r
    rw [Exposes, not_or, not_and]
  simp only [← hexposes]
  constructor
  · rintro ⟨hsafe, -⟩ before r later hrs hexp
    obtain ⟨secret, hsecret, hauth⟩ := authenticates_of_exposes s.2 hexp
    exact hsafe (before ++ [r]) later (by rw [hrs, List.append_assoc, List.singleton_append])
      secret hsecret hauth
  · intro h
    refine ⟨fun before later hrs secret hsecret hauth => ?_, fun before r later _ hr =>
      not_changesPlatformRole config _ hr⟩
    obtain ⟨id, c, hc, -, hplatform, hverifies⟩ :=
      (authenticatesPlatform_iff (wellFormed_run config before s.2)).mp hauth
    exact (kept_run s.2 h before later hrs).level id c hc hplatform secret hsecret hverifies

end Service

/-! ### A tenant admin and a client of the platform -/

def sampleConfig : OidcConfig := ⟨["client_credentials"], ["clients:manage", "logs:read"]⟩

/-- Texts in the place of hashes: as many letters as the secret says. -/
local instance sampleArgon2 : Argon2 where
  hash secret := String.ofList (List.replicate secret 'x')
  verify h secret := h = String.ofList (List.replicate secret 'x')
  verify_hash secret candidate := by
    rw [decide_eq_true_eq, String.ofList_inj, List.replicate_left_inj]
    exact eq_comm

def noClients : ClientState := ⟨⟨[], by simp⟩, 0⟩

theorem wellFormed_noClients : WellFormed noClients :=
  ⟨fun _ _ _ h => by simp [noClients, Table.row] at h,
    fun _ _ _ _ h => by simp [noClients, Table.row] at h⟩

def platformAdmin : AuthContext := ⟨.user 1, none, [], ["platform-admin"]⟩

def tenantAdmin : AuthContext := ⟨.user 2, some 7, ["clients:manage"], ["admin"]⟩

/-- The platform admin creates a client in tenant 7. -/
def creation (roles : List String) : Request :=
  .createClient platformAdmin 7
    ⟨some "dtcs_ops", "ops", ["logs:read"], some roles, none, none, none⟩
    10 ""

/-- An admin rotates its secret. -/
def rotation (caller : AuthContext) : Request := .rotateSecret caller 7 "dtcs_ops"

/-- The platform admin makes it a client of the platform. -/
def promotion : Request :=
  .update platformAdmin 7 "dtcs_ops" ⟨none, none, some ["platform-admin"], none, none, none⟩

/-- The tenant admin obtains a secret of the platform's client. -/
theorem rotation_exposes :
    ¬PlatformClientsSafe sampleConfig noClients
      [creation ["platform-admin"], rotation tenantAdmin] := by
  intro h
  have hexposes : Exposes sampleConfig noClients [creation ["platform-admin"]]
      (rotation tenantAdmin) :=
    .inl ⟨by decide, tenantAdmin, 7, "dtcs_ops", 10, _, _, rfl, rfl, by decide +kernel, rfl⟩
  obtain ⟨secret, hsecret, hauth⟩ := authenticates_of_exposes wellFormed_noClients hexposes
  exact h.1 _ [] rfl secret hsecret hauth

/-- The client may be promoted once its secret has been rotated again. -/
theorem platformClientsSafe_rotation :
    PlatformClientsSafe sampleConfig noClients
      [creation ["member"], rotation tenantAdmin, rotation platformAdmin, promotion] := by
  refine (platformClientsSafe_iff sampleConfig ⟨noClients, wellFormed_noClients⟩ _).mpr ?_
  intro before r later hsplit
  refine ⟨?_, ?_⟩
  · -- the tenant admin rotates while the client has no such role
    rintro hr ⟨caller, tenantId, clientId, id, c, x, rfl, hfind, hplatform, -⟩
    have hmember : (findByTenantAndClientId
        (run sampleConfig noClients [creation ["member"]]) 7 "dtcs_ops").all
          (fun x => !hasPlatformRole x.2.roles) = true := by decide +kernel
    match before, hsplit with
    | [], hsplit | [_, _, _], hsplit => simp [creation, rotation, promotion] at hsplit
    | [b], hsplit =>
      simp only [List.cons_append, List.nil_append, List.cons.injEq, rotation,
        Request.rotateSecret.injEq] at hsplit
      obtain ⟨rfl, ⟨rfl, rfl, rfl⟩, -⟩ := hsplit
      rw [hfind] at hmember
      simp [hplatform] at hmember
    | [_, _], hsplit =>
      simp only [List.cons_append, List.nil_append, List.cons.injEq, rotation,
        Request.rotateSecret.injEq] at hsplit
      obtain ⟨-, -, ⟨rfl, -, -⟩, -⟩ := hsplit
      exact absurd (show (rotation platformAdmin).byNonAdmin = true from hr) (by decide)
    | _ :: _ :: _ :: _ :: _, hsplit => simp at hsplit
  · -- what the tenant admin knows is not the present secret
    rintro ⟨caller, tenantId, clientId, dto, id, c, x, rfl, hfind, -, -,
      ⟨secret, hsecret, hverifies⟩, -⟩
    match before, hsplit with
    | [], hsplit | [_], hsplit | [_, _], hsplit => simp [creation, rotation, promotion] at hsplit
    | [a, b, d], hsplit =>
      simp only [List.cons_append, List.nil_append, List.cons.injEq, promotion,
        Request.update.injEq] at hsplit
      obtain ⟨rfl, rfl, rfl, ⟨rfl, rfl, rfl, rfl⟩, -⟩ := hsplit
      have hreplaced : ∀ secret ∈ learned sampleConfig noClients
          [creation ["member"], rotation tenantAdmin, rotation platformAdmin],
          (findByTenantAndClientId (run sampleConfig noClients
            [creation ["member"], rotation tenantAdmin, rotation platformAdmin]) 7 "dtcs_ops").all
            (fun x => !x.2.clientSecretHash.any fun h => Argon2.verify h secret) = true := by
        decide +kernel
      have hfalse := hreplaced secret hsecret
      rw [hfind] at hfalse
      simp [show (c.clientSecretHash.any fun h => Argon2.verify h secret) = true from hverifies]
        at hfalse
    | _ :: _ :: _ :: _ :: _, hsplit => simp at hsplit

/-! ## Clients that were revoked on their own -/

section Revocations

variable [Argon2] {s : ClientState} {tenantId id : Uuid} {clientId : String} {config : OidcConfig}
  {r : Request} {c : OAuthClient}

def Revoked (s : ClientState) (id : Uuid) : Prop :=
  ∃ c, s.table.row id = some c ∧ c.revokedAt ≠ none

/-- A row carries the tag by which the cascade restores clients. -/
def Tagged (c : OAuthClient) : Prop :=
  c.revokedAt ≠ none ∧ c.revokedReason = some .tenantDeactivation

/-- A revoked client is left alone by every request but its reactivation and, if it is tagged,
the restoration of its tenant's clients. -/
theorem row_handle_of_revoked (hc : s.table.row id = some c) (hrevoked : c.revokedAt ≠ none)
    (hreactivate : ∀ caller, r ≠ .reactivateClient caller c.tenantId c.clientId)
    (hrestore : ¬(Tagged c ∧ r = .restoreAllForTenant c.tenantId)) :
    (handle config s r).table.row id = some c := by
  rcases handle_cases config s r with ⟨o, h⟩ | ⟨-, h⟩
  · have hserve := (respond_eq_ok.mp h).2
    rcases serve_cases hserve with ⟨_, _, _, id', _, d, rfl, hd, hnew, -⟩ | hrows
    · rw [hd.row, if_neg, hc]
      rintro rfl
      simp [hc] at hnew
    · obtain ⟨c', hc', hrw⟩ := hrows.forth hc
      rw [hc']
      cases hrw with
      | same => rfl
      | reactivate caller tenantId clientId _ ht hid =>
        exact absurd (ht ▸ hid ▸ rfl) (hreactivate caller)
      | restoreAll tenantId _ ht htag => exact absurd ⟨⟨hrevoked, htag⟩, ht ▸ rfl⟩ hrestore
      | update _ _ _ _ _ _ _ hactive | revoke _ _ _ _ _ _ _ hactive
      | rotate _ _ _ _ _ _ hactive | revokeAll _ _ _ _ hactive => exact absurd hactive hrevoked
  · rw [h, hc]

/-- The same for a sequence of requests. -/
theorem row_run_of_revoked (config : OidcConfig) (hrevoked : c.revokedAt ≠ none)
    (rs : List Request) :
    ∀ {s : ClientState}, s.table.row id = some c →
      (∀ caller, .reactivateClient caller c.tenantId c.clientId ∉ rs) →
      ¬(Tagged c ∧ .restoreAllForTenant c.tenantId ∈ rs) →
      (run config s rs).table.row id = some c := by
  induction rs with
  | nil => exact fun hc _ _ => hc
  | cons r rs ih =>
    intro s hc hreactivate hrestore
    refine ih (row_handle_of_revoked hc hrevoked (fun caller e => ?_) (fun ⟨ht, e⟩ => ?_))
      (fun caller hm => hreactivate caller (List.mem_cons_of_mem _ hm))
      (fun ⟨ht, hm⟩ => hrestore ⟨ht, List.mem_cons_of_mem _ hm⟩)
    · exact hreactivate caller (by simp [e])
    · exact hrestore ⟨ht, by simp [e]⟩

/-- The row after `revokeClient` has returned: revoked, and tagged only if it was before. -/
theorem revokeClient_row {caller : AuthContext} {now : ℕ} {x : ClientState × Option Secret}
    (h : respond config s (.revokeClient caller tenantId clientId now) = .ok x)
    (hfind : findByTenantAndClientId s tenantId clientId = some (id, c)) :
    ∃ c', (handle config s (.revokeClient caller tenantId clientId now)).table.row id = some c' ∧
      c'.revokedAt ≠ none ∧ c'.tenantId = tenantId ∧ c'.clientId = clientId ∧
      (Tagged c' ↔ Tagged c) := by
  obtain ⟨s', o⟩ := x
  obtain ⟨id', c', hf, rfl, -⟩ := serve_revokeClient (respond_eq_ok.mp h).2
  obtain ⟨rfl, rfl⟩ := Prod.mk.inj (Option.mem_unique hfind hf.found)
  rw [handle, h]
  by_cases hrevoked : c.revokedAt = none
  · refine ⟨{ c with revokedAt := some now, revokedReason := none }, ?_, by simp, hf.tenant,
      hf.client, by simp [Tagged, hrevoked]⟩
    simp [hrevoked, revoke, hf.row]
  · refine ⟨c, ?_, hrevoked, hf.tenant, hf.client, Iff.rfl⟩
    simp [Option.isSome_iff_ne_none.mpr hrevoked, hf.row]

/-- A tagged client is restored with its tenant. -/
theorem row_restored (config : OidcConfig) (hc : s.table.row id = some c) (ht : Tagged c) :
    (handle config s (.restoreAllForTenant c.tenantId)).table.row id =
      some { c with revokedAt := none, revokedReason := none } := by
  rw [show handle config s (.restoreAllForTenant c.tenantId) = restoreAllForTenant s c.tenantId
    from rfl]
  simp [restoreAllForTenant, hc, ht.2]

/-- In a sequence of calls, a client for which `revokeClient` has returned is revoked until
`reactivateClient` is called on it. -/
def RevokedUntilReactivated (config : OidcConfig) (s : ClientState) (rs : List Request) : Prop :=
  ∀ before caller tenantId clientId now since later x id c,
    rs = before ++ .revokeClient caller tenantId clientId now :: (since ++ later) →
    respond config (run config s before) (.revokeClient caller tenantId clientId now) = .ok x →
    findByTenantAndClientId (run config s before) tenantId clientId = some (id, c) →
    (∀ caller', .reactivateClient caller' tenantId clientId ∉ since) →
    Revoked (run config s (before ++ .revokeClient caller tenantId clientId now :: since)) id

/-- A client that was revoked on its own stays revoked exactly if it was not tagged by the
cascade when that happened, or the clients of its tenant are not restored before it is
reactivated. -/
theorem revokedUntilReactivated_iff (config : OidcConfig) (s : ClientState) (rs : List Request) :
    RevokedUntilReactivated config s rs ↔
      ∀ before caller tenantId clientId now since later x id c,
        rs = before ++ .revokeClient caller tenantId clientId now :: (since ++ later) →
        respond config (run config s before) (.revokeClient caller tenantId clientId now) = .ok x →
        findByTenantAndClientId (run config s before) tenantId clientId = some (id, c) →
        (∀ caller', .reactivateClient caller' tenantId clientId ∉ since) →
        ¬(Tagged c ∧ .restoreAllForTenant tenantId ∈ since) := by
  have hrun : ∀ before r since, run config s (before ++ r :: since) =
      run config (handle config (run config s before) r) since :=
    fun before r since => run_append before (r :: since)
  constructor
  · rintro h before caller tenantId clientId now since later x id c rfl hok hfind hnot ⟨ht, hm⟩
    -- up to and including the first restoration the row is known
    obtain ⟨l₁, l₂, rfl, hl₁⟩ := List.eq_append_cons_of_mem hm
    obtain ⟨c', hc', hrevoked, htenant, hclient, htag⟩ := revokeClient_row hok hfind
    obtain ⟨d, hd, hd'⟩ := h before caller tenantId clientId now
      (l₁ ++ [.restoreAllForTenant tenantId]) (l₂ ++ later) x id c (by simp) hok hfind
      (fun caller' hmem => hnot caller' (by
        simp only [List.mem_append, List.mem_cons] at hmem ⊢
        tauto))
    have hrow := row_run_of_revoked config hrevoked l₁ hc'
      (fun caller' hmem => hnot caller' (by
        rw [htenant, hclient] at hmem
        exact List.mem_append_left _ hmem))
      (fun ⟨_, hmem⟩ => hl₁ (htenant ▸ hmem))
    rw [hrun, run, List.foldl_append, List.foldl_cons, List.foldl_nil] at hd
    have hrestored := row_restored config hrow (htag.mpr ht)
    rw [htenant] at hrestored
    obtain rfl := Option.mem_unique hd hrestored
    simp at hd'
  · intro h before caller tenantId clientId now since later x id c hrs hok hfind hnot
    have hsafe := h before caller tenantId clientId now since later x id c hrs hok hfind hnot
    obtain ⟨c', hc', hrevoked, rfl, rfl, htag⟩ := revokeClient_row hok hfind
    rw [hrun]
    exact ⟨c', row_run_of_revoked config hrevoked since hc' hnot (by rwa [htag]), hrevoked⟩

end Revocations

/-! ### A client that comes back -/

def deactivation : Request := .revokeAllForTenant 7 100

/-- A platform admin revokes the client for cause. -/
def revocation : Request := .revokeClient platformAdmin 7 "dtcs_ops" 200

def reactivation : Request := .restoreAllForTenant 7

/-- The client revoked for cause while its tenant was deactivated comes back with the tenant. -/
theorem revocation_undone : ¬RevokedUntilReactivated sampleConfig noClients
    [creation ["member"], deactivation, revocation, reactivation] := by
  intro h
  obtain ⟨c, hc, hrevoked⟩ := h [creation ["member"], deactivation] platformAdmin 7 "dtcs_ops" 200
    [reactivation] [] _ 10 _ rfl rfl rfl (by simp [reactivation])
  have hback : ((run sampleConfig noClients ([creation ["member"], deactivation] ++
      [.revokeClient platformAdmin 7 "dtcs_ops" 200, reactivation])).table.row 10).all
        (fun c => c.revokedAt.isNone) = true := by decide +kernel
  rw [hc] at hback
  exact hrevoked (by simpa using hback)

/-- A client revoked for cause before its tenant is deactivated stays revoked. -/
theorem revocation_kept : RevokedUntilReactivated sampleConfig noClients
    [creation ["member"], revocation, deactivation, reactivation] := by
  refine (revokedUntilReactivated_iff sampleConfig noClients _).mpr ?_
  rintro before caller tenantId clientId now since later x id c hsplit - hfind - ⟨⟨ht, -⟩, -⟩
  match before, hsplit with
  | [], hsplit => simp [creation] at hsplit
  | [b], hsplit =>
    simp only [List.cons_append, List.nil_append, List.cons.injEq] at hsplit
    obtain ⟨rfl, hrevocation, -⟩ := hsplit
    simp only [revocation, Request.revokeClient.injEq] at hrevocation
    obtain ⟨rfl, rfl, rfl, rfl⟩ := hrevocation
    have hactive : (findByTenantAndClientId
        (run sampleConfig noClients [creation ["member"]]) 7 "dtcs_ops").all
          (fun x => x.2.revokedAt.isNone) = true := by decide +kernel
    rw [hfind] at hactive
    exact ht (by simpa using hactive)
  | [_, b], hsplit => simp [deactivation] at hsplit
  | [_, _, b], hsplit => simp [reactivation] at hsplit
  | _ :: _ :: _ :: _ :: _, hsplit => simp at hsplit

end OAuthClientService

end DigitalTrust
