/-
# Logging in through the upstream provider

`oidc-interaction.controller.ts` with `oidc-upstream.service.ts` and the repository of the
table `oidc_upstream_interaction`, statement by statement, for any number of browsers.

Random values are process numbers: no two calls draw the same.  A code stands for a login at the
upstream provider, with the nonce and the challenge of the request it answers, so an exchange
succeeds only for the interaction that made the request.
-/
import DigitalTrust.TenantUsers
import DigitalTrust.OperationService

namespace DigitalTrust.Federation

open Interleaving ReadCommitted TenantUserService

/-! ## Rows -/

/-- A row of `oidc_upstream_interaction`; its key is `interactionUid`. -/
structure UpstreamInteraction where
  state : ℕ
  nonce : ℕ
  codeVerifier : ℕ
  tenantId : Uuid
  tenantUserId : Option Uuid
  expiresAt : ℕ
  consumedAt : Option ℕ
  deriving DecidableEq

/-- The interactions by their uid, and the table `tenant_user`. -/
inductive Key where
  | interaction (uid : String)
  | users
  deriving DecidableEq

abbrev Row : Key → Type
  | .interaction _ => UpstreamInteraction
  | .users => Users

/-- What can be seen of a login: a `state` is issued, the callback of a browser authenticates an
account, and `interactionFinished` is called with a login or with a consent. -/
inductive Event where
  | initiated (uid : String) (state : ℕ)
  | authenticated (browser : ℕ) (uid : String) (account : Uuid)
  | finished (uid : String) (account : Uuid)
  | consented (uid : String) (account : Uuid)
  deriving DecidableEq

/-- The moment at which the callback of a browser has authenticated a user for an interaction is
told apart from all others. -/
inductive Label where
  | step
  | authenticated (browser : ℕ) (uid : String)

abbrev Db := Store Key Row Event

abbrev Committed := Pub Key Row Event

abbrev Service := Prog Key Row Event Label Failure

/-- The unique index on `state`. -/
def index : Index Key Row where
  clash
    | .interaction _, r, .interaction _, r' => r.state = r'.state
    | _, _, _, _ => false
  symm k v k' v' := by
    cases k <;> cases k' <;> simp [eq_comm]

def raise {α : Type} (message : String) : Service α := throw (.thrown (.other message))

/-- A call that may fail and whose effect nothing here reads. -/
def call : Service Unit := select .step fun _ => ()

/-- What the programs take from their surroundings: the browser that holds the cookie of an
interaction, the queries on users, and the scopes of a role. -/
structure Surroundings where
  holder : String → ℕ
  queries : UserQueries
  roleScopes : TenantUserRole → Uuid → List String

/-! ## `oidc-upstream-interaction.repository.ts` -/

def findByState (state : ℕ) : Service (Option (String × UpstreamInteraction)) :=
  select .step fun d => d.keys.findSome? fun
    | .interaction uid => ((d.row (.interaction uid)).filter fun r => r.state = state).map (uid, ·)
    | .users => none

/-- The `UPDATE` of a `save`: the columns in which the entity differs from the row read. -/
def UpstreamInteraction.save (entity read current : UpstreamInteraction) : UpstreamInteraction where
  state := saveColumn entity.state read.state current.state
  nonce := saveColumn entity.nonce read.nonce current.nonce
  codeVerifier := saveColumn entity.codeVerifier read.codeVerifier current.codeVerifier
  tenantId := saveColumn entity.tenantId read.tenantId current.tenantId
  tenantUserId := saveColumn entity.tenantUserId read.tenantUserId current.tenantUserId
  expiresAt := saveColumn entity.expiresAt read.expiresAt current.expiresAt
  consumedAt := saveColumn entity.consumedAt read.consumedAt current.consumedAt

/-- `update`: `save(entity)` reads the row, then writes the columns that differ.  A row that is
gone is inserted again. -/
def saveInteraction (i : ℕ) (uid : String) (entity : UpstreamInteraction) : Service Unit :=
  transaction .step i (saveRow index .step .step i (.interaction uid) entity entity.save)

/-- `upsertByInteractionUid`: the row starts anew with fresh values. -/
def upsertByInteractionUid (i : ℕ) (uid : String) (entity : UpstreamInteraction) :
    Service Unit := do
  let _ ← transaction .step i do
    let _ ← upsert index .step i (.interaction uid) fun _ =>
      some { entity with consumedAt := none, tenantUserId := none }
    emit .step i (.initiated uid entity.state)
  let saved ← select .step fun d => d.row (.interaction uid)
  match saved with
  | none => raise s!"Unable to load upserted interaction for uid {uid}"
  | some _ => pure ()

/-! ## `oidc-upstream.service.ts` -/

def validateInteraction (state now : ℕ) : Service (String × UpstreamInteraction) := do
  let found ← findByState state
  match found with
  | none => raise s!"Interaction not found for state: {state}"
  | some (uid, interaction) =>
    if interaction.expiresAt < now then raise s!"Interaction has expired for state: {state}"
    else pure (uid, interaction)

def setTenantUserIdForInteraction (i state : ℕ) (tenantUserId : Uuid) (now : ℕ) : Service Unit := do
  let found ← validateInteraction state now
  saveInteraction i found.1 { found.2 with tenantUserId := some tenantUserId }

def consumeInteraction (i state now : ℕ) : Service Unit := do
  let found ← validateInteraction state now
  saveInteraction i found.1 { found.2 with consumedAt := some now }

/-- The default of `ttlMinutes`, in milliseconds. -/
def ttl : ℕ := 15 * 60 * 1000

/-- `initiateUpstreamLogin`: `state`, nonce and verifier are drawn by the call. -/
def initiateUpstreamLogin (i : ℕ) (uid : String) (tenantId : Uuid) (now : ℕ) : Service Unit :=
  if uid = "" then raise "interactionUid is required for upsertByInteractionUid"
  else upsertByInteractionUid i uid ⟨i, i, i, tenantId, none, now + ttl, none⟩

structure IdToken where
  sub : Option String
  email : Option String
  name : Option String

/-- An authorization code: the nonce and the challenge of the request that it answers, and the
ID token of the user who has logged in. -/
structure Code where
  nonce : ℕ
  codeVerifier : ℕ
  idToken : Option IdToken

/-- The claims that `handleUpstreamCallback` returns. -/
structure Claims where
  sub : String
  email : Option String
  name : Option String

/-- `authorizationCodeGrant` and the checks of the token. -/
def exchange (interaction : UpstreamInteraction) (code : Code) : Service Claims := do
  call
  if code.codeVerifier = interaction.codeVerifier ∧ code.nonce = interaction.nonce then
    match code.idToken with
    | none => raise "Missing ID token from upstream authorization code grant"
    | some token => match token.sub with
      | none => raise "Invalid or missing sub claim in ID token"
      | some sub => pure ⟨sub, token.email, token.name⟩
  else raise "the upstream provider refuses the code"

/-! ## The user of a callback -/

/-- The users as a statement sees them. -/
def usersOf (d : Snapshot Key Row) : Users := (d.row .users).getD ⟨[], List.nodup_nil⟩

/-- A statement that changes `tenant_user`. -/
def changeUsers {α : Type} (i : ℕ) (f : Users → Except Failure (Users × α)) : Service α :=
  transaction .step i do
    let found ← selectForUpdate Label.step i (fun _ : Unit => Key.users) fun _ => some ()
    match found with
    | none => throw .database
    | some row => match f row.2 with
      | .error e => throw (.thrown e)
      | .ok (users, a) =>
        let _ ← update index .step i .users (fun _ => true) fun _ => users
        pure a

/-- The loop of `claimAllInvitedByEmail`. -/
def claimInvites (i : ℕ) (externalUserId : String) : List (Uuid × TenantUser) → List Uuid →
    List (Uuid × TenantUser) → Service (List (Uuid × TenantUser))
  | [], _, claimedRows => pure claimedRows
  | (id, invite) :: invites, takenTenantIds, claimedRows =>
    if invite.tenantId ∈ takenTenantIds then
      claimInvites i externalUserId invites takenTenantIds claimedRows
    else do
      let claimed ← changeUsers i fun t => t.claimInvitedById id externalUserId
      if claimed then do
        let row ← select .step fun d => (usersOf d).row id
        claimInvites i externalUserId invites (invite.tenantId :: takenTenantIds)
          (claimedRows ++ row.toList.map (id, ·))
      else claimInvites i externalUserId invites (invite.tenantId :: takenTenantIds) claimedRows

def claimAllInvitedByEmail (q : UserQueries) (i : ℕ) (email externalUserId : String) :
    Service (List (Uuid × TenantUser)) := do
  let invites ← select .step fun d => (usersOf d).findUnclaimedInvitesByEmail q email
  if invites = [] then pure []
  else do
    let existing ← select .step fun d => (usersOf d).findByExternalUserId externalUserId
    claimInvites i externalUserId invites (existing.map fun x => x.2.tenantId) []

/-- The invitations that a callback claims: none if the provider reports no email. -/
def claimInvited (q : UserQueries) (i : ℕ) (claims : Claims) : Service (List (Uuid × TenantUser)) :=
  match claims.email with
  | none => pure []
  | some email => if email = "" then pure [] else claimAllInvitedByEmail q i email claims.sub

/-- The row of a first login. -/
def newUser (tenantId : Uuid) (claims : Claims) (createdAt : ℕ) : TenantUser :=
  ⟨tenantId, some claims.sub, claims.email.getD "",
    some ((claims.name.or claims.email).getD claims.sub), .readonly, .active, false, createdAt⟩

def createUser (i : ℕ) (tenantId : Uuid) (claims : Claims) (id : Uuid) (createdAt : ℕ) :
    Service Uuid := do
  let existing ← select .step fun d => (usersOf d).findByTenantAndExternalUserId tenantId claims.sub
  match existing with
  | some _ => throw (.thrown (.conflict "User already belongs to this tenant."))
  | none => changeUsers i fun t =>
    (t.add id (newUser tenantId claims createdAt)).map fun t' => (t', id)

/-- The member of the interaction's tenant, who has to be active, or a new one. -/
def findOrCreate (i : ℕ) (tenantId : Uuid) (claims : Claims) (id : Uuid) (createdAt : ℕ) :
    Service Uuid := do
  let found ← select .step fun d => (usersOf d).findByTenantAndExternalUserId tenantId claims.sub
  match found with
  | some (id, u) =>
    if u.status = .active then pure id else raise "Federated user is not active"
  | none => createUser i tenantId claims id createdAt

/-- The federated user: the oldest membership held before, an invitation to the interaction's
tenant, or else its member. -/
def resolveUser (q : UserQueries) (i : ℕ) (tenantId : Uuid) (claims : Claims) (id : Uuid)
    (createdAt : ℕ) : Service Uuid := do
  let prior ← select .step fun d => (usersOf d).findActiveByExternalUserId q claims.sub
  let claimed ← claimInvited q i claims
  match prior.head?.or (claimed.find? fun x => x.2.tenantId = tenantId) with
  | some (id, _) => pure id
  | none => findOrCreate i tenantId claims id createdAt

/-! ## `oidc-interaction.controller.ts` -/

inductive Prompt where
  | login
  | consent
  | other (name : String)

/-- `interactionDetails`, the tenant of the active client that the lookup finds, and the time. -/
structure Details where
  uid : String
  prompt : Prompt
  missingOIDCScope : Option (List String)
  accountId : Option Uuid
  clientId : Option String
  client : Option Uuid
  now : ℕ

def standardOidcScopes : List String := ["openid", "profile", "email", "tenant", "offline_access"]

def roleName : TenantUserRole → String
  | .owner => "owner"
  | .admin => "admin"
  | .member => "member"
  | .readonly => "readonly"

/-- The scopes that a grant of the user may not have. -/
def deniedFor (env : Surroundings) (user : TenantUser) (requested : List String) : List String :=
  let allowed := standardOidcScopes ++ env.roleScopes user.role user.tenantId
  deniedScopes requested allowed allowed false

def accountName : Option Uuid → String
  | none => "null"
  | some a => s!"{a}"

/-- `createAndSaveGrant`; the value is the account of the grant. -/
def createAndSaveGrant (env : Surroundings) (accountId : Option Uuid)
    (missingOIDCScope : Option (List String)) : Service Uuid := do
  let found ← select .step fun d => accountId.bind fun a => ((usersOf d).row a).map (a, ·)
  match found.filter fun x => x.2.status = .active with
  | none =>
    let account := accountName accountId
    raise s!"Active tenant user not found: {account}"
  | some (account, user) => do
    call
    let denied := deniedFor env user (missingOIDCScope.getD [])
    if denied = [] then do
      call
      pure account
    else
      let role := roleName user.role
      let scopes := String.intercalate ", " denied
      throw (.thrown (.forbidden
        s!"Requested scopes exceed tenant-user role \"{role}\": {scopes}"))

def startUpstreamLogin (i : ℕ) (details : Details) : Service Unit :=
  match details.accountId with
  | some a => raise s!"Attempted upstream login despite existing accountId {a}"
  | none => match details.clientId with
    | none => raise "Missing client_id in interaction params"
    | some clientId => do
      call
      match details.client with
      | none => raise s!"OAuth client not found: {clientId}"
      | some tenantId => initiateUpstreamLogin i details.uid tenantId details.now

/-- The login prompt once the interaction's row is known. -/
def finishLogin (env : Surroundings) (i : ℕ) (details : Details)
    (interaction : UpstreamInteraction) :
    Service Unit := do
  let account ← createAndSaveGrant env interaction.tenantUserId details.missingOIDCScope
  record .step i (.finished details.uid account)

/-- `interaction`, called by the browser that holds the cookie. -/
def interaction (env : Surroundings) (i : ℕ) (details : Details) : Service Unit :=
  match details.prompt with
  | .login => do
    let found ← select .step fun d => d.row (.interaction details.uid)
    match found.filter fun r => r.consumedAt.isSome with
    | some row => finishLogin env i details row
    | none => startUpstreamLogin i details
  | .consent => match details.accountId with
    | none => raise "No authenticated session"
    | some a => do
      let account ← createAndSaveGrant env (some a) details.missingOIDCScope
      record .step i (.consented details.uid account)
  | .other name => raise s!"Unsupported oidc-provider interaction prompt: {name}"

/-- What a browser sends to `callback`, the times of the three lookups, and id and time of a
new user. -/
structure Callback where
  error : Option String
  code : Option Code
  state : Option ℕ
  host : Option String
  received : ℕ
  bound : ℕ
  consumed : ℕ
  userId : Uuid
  userCreatedAt : ℕ

/-- What `callback` does with a code and a `state`. -/
def handleUpstreamCallback (env : Surroundings) (i browser : ℕ) (r : Callback) (code : Code)
    (state : ℕ) : Service Unit := do
  let found ← validateInteraction state r.received
  let claims ← exchange found.2 code
  let user ← resolveUser env.queries i found.2.tenantId claims r.userId r.userCreatedAt
  record (.authenticated browser found.1) i (.authenticated browser found.1 user)
  call
  setTenantUserIdForInteraction i state user r.bound
  consumeInteraction i state r.consumed

def callback (env : Surroundings) (i browser : ℕ) (r : Callback) : Service Unit :=
  match r.error.filter (· ≠ "") with
  | some error => throw (.thrown (.badRequest s!"Upstream OIDC error: {error}"))
  | none => match r.code, r.state with
    | some code, some state => match r.host with
      | none => raise "Missing Host header"
      | some _ => handleUpstreamCallback env i browser r code state
    | _, _ => throw (.thrown (.badRequest "Missing code or state in upstream callback"))

/-- A request of a browser; that to `interaction` is made with the cookie. -/
inductive Request where
  | interaction (details : Details)
  | callback (browser : ℕ) (r : Callback)

def handler (env : Surroundings) : Request → ℕ → Service Unit
  | .interaction details, i => interaction env i details
  | .callback browser r, i => callback env i browser r

end DigitalTrust.Federation
