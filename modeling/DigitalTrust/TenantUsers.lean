/-
# The users of a tenant

`tenant-user.service.ts` and its repository, the guard in front of the controller
(`tenant-membership.guard.ts`) and the part of the sign-in callback that resolves the user, for
calls that are made one after another.  The guard looks the bearer's own row up and hands it to the
service; the service's own callers (seeding the first owner, the sign-in) pass no row.
-/
import DigitalTrust.Table
import DigitalTrust.Authorization

namespace DigitalTrust

open Relational

/-! ## Rows -/

inductive TenantUserRole where
  | owner
  | admin
  | member
  | readonly
  deriving DecidableEq

inductive TenantUserStatus where
  | active
  | invited
  | disabled
  deriving DecidableEq

/-- A row of `tenant_user`. -/
structure TenantUser where
  tenantId : Uuid
  externalUserId : Option String
  email : String
  displayName : Option String
  role : TenantUserRole
  status : TenantUserStatus
  isPlatformOperator : Bool
  createdAt : ℕ
  deriving DecidableEq

abbrev Users := Table Uuid TenantUser

/-- `uq_tenant_user_external_user` and `uq_tenant_user_tenant_email`. -/
def TenantUser.clash (a b : TenantUser) : Bool :=
  a.tenantId = b.tenantId &&
    (a.externalUserId.isSome && a.externalUserId = b.externalUserId || a.email = b.email)

/-- What a query joins and compares with: which tenants are not soft deleted, and the
functions on texts of the database and the runtime. -/
structure UserQueries where
  live : Uuid → Bool
  lower : String → String
  trim : String → String

/-! ## Repository -/

namespace Users

/-- Whether another row stands in the way of writing `u` under `id`. -/
def refuses (t : Users) (id : Uuid) (u : TenantUser) : Bool :=
  (t.first fun id' u' => id' ≠ id && u.clash u').isSome

def duplicateKey : Failure := .other "duplicate key value violates unique constraint"

def add (t : Users) (id : Uuid) (u : TenantUser) : Except Failure Users := do
  ensure (t.refuses id u = false) duplicateKey
  need (t.insert id u) duplicateKey

/-- `update` of the repository. -/
def save (t : Users) (id : Uuid) (u : TenantUser) : Except Failure Users := do
  ensure (t.refuses id u = false) duplicateKey
  pure (t.put id u)

def findByTenantAndId (t : Users) (tenantId id : Uuid) : Option TenantUser :=
  (t.row id).filter fun u => u.tenantId = tenantId

def countByTenantAndRole (t : Users) (tenantId : Uuid) (role : TenantUserRole) : ℕ :=
  t.count fun _ u => u.tenantId = tenantId && u.role = role

def countActiveOwnersByTenant (t : Users) (tenantId : Uuid) : ℕ :=
  t.count fun _ u => u.tenantId = tenantId && u.role = .owner && u.status = .active

def countActiveAdministratorsByTenant (t : Users) (tenantId : Uuid) : ℕ :=
  t.count fun _ u => u.tenantId = tenantId && (u.role = .owner || u.role = .admin) &&
    u.status = .active

def findByTenantAndEmail (t : Users) (tenantId : Uuid) (email : String) :
    Option (Uuid × TenantUser) :=
  t.first fun _ u => u.tenantId = tenantId && u.email = email

def findByTenantAndExternalUserId (t : Users) (tenantId : Uuid) (externalUserId : String) :
    Option (Uuid × TenantUser) :=
  t.first fun _ u => u.tenantId = tenantId && u.externalUserId = some externalUserId

def findByExternalUserId (t : Users) (externalUserId : String) : List (Uuid × TenantUser) :=
  t.select fun _ u => u.externalUserId = some externalUserId

/-- `ORDER BY created_at, id`. -/
def older (a b : Uuid × TenantUser) : Bool :=
  a.2.createdAt < b.2.createdAt || a.2.createdAt = b.2.createdAt && a.1 ≤ b.1

/-- The rows in this order. -/
def oldestFirst (rows : List (Uuid × TenantUser)) : List (Uuid × TenantUser) :=
  rows.insertionSort fun a b => older a b = true

def findActiveByExternalUserId (q : UserQueries) (t : Users) (externalUserId : String) :
    List (Uuid × TenantUser) :=
  oldestFirst (t.select fun _ u => q.live u.tenantId && u.externalUserId = some externalUserId &&
    u.status = .active)

def findUnclaimedInvitesByEmail (q : UserQueries) (t : Users) (email : String) :
    List (Uuid × TenantUser) :=
  oldestFirst (t.select fun _ u => q.live u.tenantId && q.lower u.email = q.lower (q.trim email) &&
    u.externalUserId = none && u.status = .invited)

/-- `claimInvitedById`; the value says whether the row was claimed. -/
def claimInvitedById (t : Users) (id : Uuid) (externalUserId : String) :
    Except Failure (Users × Bool) :=
  match t.row id with
  | none => .ok (t, false)
  | some u =>
    if u.externalUserId = none ∧ u.status = .invited then do
      let t' ← t.save id { u with externalUserId := some externalUserId, status := .active }
      pure (t', true)
    else .ok (t, false)

end Users

/-! ## Service -/

namespace TenantUserService

structure InviteTenantUserDto where
  email : String
  role : TenantUserRole

structure CreateTenantUserDto where
  tenantId : Uuid
  externalUserId : String
  email : String
  displayName : Option String
  role : TenantUserRole
  status : TenantUserStatus

/-- `UpdateTenantUserDto`; an absent member is `none`. -/
structure UpdateTenantUserDto where
  email : Option String
  displayName : Option String
  role : Option TenantUserRole
  status : Option TenantUserStatus
  deriving DecidableEq

def isAdministrator (role : TenantUserRole) : Bool := role = .owner || role = .admin

def assertMayManageOwner (callerTenantUser : Option TenantUser) (touchesOwner : Bool) :
    Except Failure Unit :=
  ensure (¬(touchesOwner = true ∧ callerTenantUser.any fun u => u.role ≠ .owner))
    (.forbidden "Only an owner can grant the owner role or act on an owner.")

def findCurrentCaller (t : Users) (tenantId targetId : Uuid) (target : TenantUser) :
    Option (Uuid × TenantUser) → Except Failure (Option TenantUser)
  | none => .ok none
  | some callerTenantUser => do
    let caller ← need
      (if callerTenantUser.1 = targetId then some target
        else t.findByTenantAndId tenantId callerTenantUser.1)
      (.forbidden "An active tenant owner or admin is required to manage users.")
    ensure (caller.status = .active ∧ isAdministrator caller.role = true)
      (.forbidden "An active tenant owner or admin is required to manage users.")
    pure (some caller)

/-- `assertAnotherAdministratorRemains`, called only if an administrator loses access. -/
def assertAnotherAdministratorRemains (t : Users) (tenantId : Uuid)
    (losesAdministratorAccess : Prop) [Decidable losesAdministratorAccess] : Except Failure Unit :=
  ensure (losesAdministratorAccess → 1 < t.countActiveAdministratorsByTenant tenantId)
    (.conflict "Cannot remove the tenant's last active administrator.")

/-- `invite`; `id` and `createdAt` are the new row's. -/
def invite (t : Users) (id : Uuid) (createdAt : ℕ) (tenantId : Uuid) (dto : InviteTenantUserDto)
    (callerTenantUser : Option (Uuid × TenantUser)) : Except Failure Users := do
  assertMayManageOwner (callerTenantUser.map Prod.snd) (dto.role = .owner)
  ensure (t.findByTenantAndEmail tenantId dto.email = none)
    (.conflict "A tenant user with this email already exists for this tenant.")
  t.add id ⟨tenantId, none, dto.email, none, dto.role, .invited, false, createdAt⟩

def create (t : Users) (id : Uuid) (createdAt : ℕ) (dto : CreateTenantUserDto) :
    Except Failure Users := do
  ensure (t.findByTenantAndExternalUserId dto.tenantId dto.externalUserId = none)
    (.conflict "User already belongs to this tenant.")
  t.add id ⟨dto.tenantId, some dto.externalUserId, dto.email, dto.displayName, dto.role,
    dto.status, false, createdAt⟩

/-- The loop of `claimAllInvitedByEmail`.  Each invitation is claimed by a statement of its
own: those claimed before an error stay claimed. -/
def claimInvites (externalUserId : String) :
    List (Uuid × TenantUser) → List Uuid → Users → List (Uuid × TenantUser) →
      Users × Except Failure (List (Uuid × TenantUser))
  | [], _, t, claimedRows => (t, .ok claimedRows)
  | (id, invite) :: invites, takenTenantIds, t, claimedRows =>
    if invite.tenantId ∈ takenTenantIds then
      claimInvites externalUserId invites takenTenantIds t claimedRows
    else match t.claimInvitedById id externalUserId with
      | .error e => (t, .error e)
      | .ok (t', claimed) =>
        claimInvites externalUserId invites (invite.tenantId :: takenTenantIds) t'
          (if claimed then claimedRows ++ [(id, invite)] else claimedRows)

def claimAllInvitedByEmail (q : UserQueries) (t : Users) (email externalUserId : String) :
    Users × Except Failure (List (Uuid × TenantUser)) :=
  claimInvites externalUserId (t.findUnclaimedInvitesByEmail q email)
    ((t.findByExternalUserId externalUserId).map fun x => x.2.tenantId) t []

/-- The columns that `update` changes. -/
def UpdateTenantUserDto.apply (dto : UpdateTenantUserDto) (u : TenantUser) : TenantUser :=
  { u with
    email := dto.email.getD u.email
    displayName := dto.displayName.or u.displayName
    role := dto.role.getD u.role
    status := dto.status.getD u.status }

def update (t : Users) (tenantId id : Uuid) (dto : UpdateTenantUserDto)
    (callerTenantUser : Option (Uuid × TenantUser)) : Except Failure Users := do
  let tenantUser ← need (t.findByTenantAndId tenantId id)
    (.notFound s!"Tenant user '{id}' was not found.")
  let caller ← findCurrentCaller t tenantId id tenantUser callerTenantUser
  assertMayManageOwner caller (dto.role = some .owner || tenantUser.role = .owner)
  ensure (dto.role ≠ none ∧ dto.role ≠ some tenantUser.role ∧ tenantUser.role = .owner →
      1 < t.countByTenantAndRole tenantId .owner)
    (.conflict "Cannot change the role of the tenant's last owner.")
  ensure (tenantUser.status = .active ∧ tenantUser.role = .owner ∧
      ((dto.role ≠ none ∧ dto.role ≠ some .owner) ∨
        (dto.status ≠ none ∧ dto.status ≠ some .active)) →
      1 < t.countActiveOwnersByTenant tenantId)
    (.conflict "Cannot change access for the tenant's last active owner.")
  assertAnotherAdministratorRemains t tenantId
    (tenantUser.status = .active ∧ isAdministrator tenantUser.role = true ∧
      ((dto.role.any fun role => !isAdministrator role) ∨
        (dto.status ≠ none ∧ dto.status ≠ some .active)))
  t.save id (dto.apply tenantUser)

def delete (t : Users) (tenantId id : Uuid) (callerTenantUser : Option (Uuid × TenantUser)) :
    Except Failure Users := do
  let tenantUser ← need (t.findByTenantAndId tenantId id)
    (.notFound s!"Tenant user '{id}' was not found.")
  let caller ← findCurrentCaller t tenantId id tenantUser callerTenantUser
  assertMayManageOwner caller (tenantUser.role = .owner)
  ensure (tenantUser.role = .owner → 1 < t.countByTenantAndRole tenantId .owner)
    (.conflict "Cannot remove the tenant's last owner.")
  ensure (tenantUser.role = .owner ∧ tenantUser.status = .active →
      1 < t.countActiveOwnersByTenant tenantId)
    (.conflict "Cannot remove the tenant's last active owner.")
  assertAnotherAdministratorRemains t tenantId
    (tenantUser.status = .active ∧ isAdministrator tenantUser.role = true)
  pure (t.delete fun id' _ => id' = id)

/-! ## Requests -/

/-- Who makes a call: a part of the service itself, or the bearer of a token. -/
inductive Caller where
  | internal
  | bearer (auth : AuthContext)

/-- `TenantMembershipGuard` in front of the controller, which requires the role owner or
admin: the row that is handed to the service. -/
def canActivate (t : Users) (tenantId : Uuid) :
    Caller → Except Failure (Option (Uuid × TenantUser))
  | .internal => .ok none
  | .bearer auth =>
    if isPlatformAdmin auth.roles then .ok none
    else match auth.subject with
      | .machine _ => .error (.forbidden "Only tenant users can hold a tenant role")
      | .user sub => do
        let u ← need (t.findByTenantAndId tenantId sub)
          (.forbidden "Caller does not have a sufficient tenant role for this action")
        ensure (u.status = .active ∧ (u.role = .owner ∨ u.role = .admin))
          (.forbidden "Caller does not have a sufficient tenant role for this action")
        pure (some (sub, u))

/-- What the sign-in of a user brings along: the claims of the upstream provider, the tenant
of the interaction, and identifier and time of a new row. -/
structure SignIn where
  tenantId : Uuid
  sub : String
  email : Option String
  name : Option String
  id : Uuid
  createdAt : ℕ

/-- The row that a first sign-in creates. -/
def SignIn.dto (r : SignIn) : CreateTenantUserDto :=
  ⟨r.tenantId, r.sub, r.email.getD "", some ((r.name.or r.email).getD r.sub), .readonly, .active⟩

/-- The invitations that `callback` claims: none if the provider reports no email. -/
def SignIn.claims (q : UserQueries) (t : Users) (r : SignIn) :
    Users × Except Failure (List (Uuid × TenantUser)) :=
  match r.email with
  | none => (t, .ok [])
  | some email => if email = "" then (t, .ok []) else claimAllInvitedByEmail q t email r.sub

/-- The part of `callback` that resolves the user. -/
def signIn (q : UserQueries) (t : Users) (r : SignIn) : Users × Except Failure Uuid :=
  match r.claims q t with
  | (t', .error e) => (t', .error e)
  | (t', .ok claimed) =>
    match (t.findActiveByExternalUserId q r.sub).head?.or
        (claimed.find? fun x => x.2.tenantId = r.tenantId) with
    | some (id, _) => (t', .ok id)
    | none => match t'.findByTenantAndExternalUserId r.tenantId r.sub with
      | some (id, u) =>
        if u.status = .active then (t', .ok id)
        else (t', .error (.other "Federated user is not active"))
      | none => match create t' r.id r.createdAt r.dto with
        | .ok t'' => (t'', .ok r.id)
        | .error e => (t', .error e)

inductive Request where
  | invite (caller : Caller) (tenantId : Uuid) (dto : InviteTenantUserDto) (id : Uuid)
      (createdAt : ℕ)
  | create (dto : CreateTenantUserDto) (id : Uuid) (createdAt : ℕ)
  | claim (email externalUserId : String)
  | signIn (r : SignIn)
  | update (caller : Caller) (tenantId id : Uuid) (dto : UpdateTenantUserDto)
  | delete (caller : Caller) (tenantId id : Uuid)

/-- The table after a call that commits as a whole or not at all. -/
def committed (t : Users) : Except Failure Users → Users
  | .ok t' => t'
  | .error _ => t

/-- The table after a call. -/
def handle (q : UserQueries) (t : Users) : Request → Users
  | .invite caller tenantId dto id createdAt => committed t do
    invite t id createdAt tenantId dto (← canActivate t tenantId caller)
  | .create dto id createdAt => committed t (create t id createdAt dto)
  | .claim email externalUserId => (claimAllInvitedByEmail q t email externalUserId).1
  | .signIn r => (signIn q t r).1
  | .update caller tenantId id dto => committed t do
    update t tenantId id dto (← canActivate t tenantId caller)
  | .delete caller tenantId id => committed t do
    delete t tenantId id (← canActivate t tenantId caller)

def run (q : UserQueries) (t : Users) (rs : List Request) : Users := rs.foldl (handle q) t

/-- Who makes a call; creating and claiming rows is the service's own business. -/
def Request.caller : Request → Caller
  | .invite caller .. | .update caller .. | .delete caller .. => caller
  | .create .. | .claim .. | .signIn .. => .internal

end TenantUserService

open TenantUserService

/-! ## Owners -/

def owners (t : Users) (tenantId : Uuid) : Set Uuid :=
  {id | ∃ u, t.row id = some u ∧ u.tenantId = tenantId ∧ u.role = .owner}

def HasActiveOwner (t : Users) (tenantId : Uuid) : Prop :=
  ∃ id u, t.row id = some u ∧ u.tenantId = tenantId ∧ u.role = .owner ∧ u.status = .active

/-- A call is made without a row of the caller: by the service itself or a platform admin. -/
def TenantUserService.Caller.undefined : Caller → Prop
  | .internal => True
  | .bearer auth => isPlatformAdmin auth.roles = true

/-- A call is made by an active owner of the tenant. -/
def TenantUserService.Caller.isOwner (t : Users) (tenantId : Uuid) : Caller → Prop
  | .internal => False
  | .bearer auth => ∃ id u, auth.subject = .user id ∧ t.row id = some u ∧
      u.tenantId = tenantId ∧ u.role = .owner ∧ u.status = .active

/-! ### What each call does to the rows -/

/-- Rows may be added, identities linked and invitations accepted; no role is changed. -/
structure Grows (t t' : Users) : Prop where
  kept : ∀ id u, t.row id = some u → ∃ u', t'.row id = some u' ∧ u'.tenantId = u.tenantId ∧
    u'.role = u.role ∧ (u.status = .active → u'.status = .active)

theorem Grows.refl (t : Users) : Grows t t :=
  ⟨fun _ u h => ⟨u, h, rfl, rfl, id⟩⟩

section Calls

variable {t t' : Users} {id tenantId : Uuid} {u : TenantUser} {c : Option (Uuid × TenantUser)}

theorem Grows.trans {t'' : Users} (h : Grows t t') (h' : Grows t' t'') : Grows t t'' := by
  refine ⟨fun id u hu => ?_⟩
  obtain ⟨u', hu', ht', hr', hs'⟩ := h.kept id u hu
  obtain ⟨u'', hu'', ht'', hr'', hs''⟩ := h'.kept id u' hu'
  exact ⟨u'', hu'', ht''.trans ht', hr''.trans hr', hs'' ∘ hs'⟩

theorem add_row (h : t.add id u = .ok t') :
    t.row id = none ∧ ∀ id', t'.row id' = if id' = id then some u else t.row id' := by
  simp only [Users.add, bind_eq_ok, ensure_eq_ok, need_eq_ok] at h
  obtain ⟨-, -, h⟩ := h
  exact ⟨Table.row_of_insert h, Table.row_insert h⟩

theorem save_row {v : TenantUser} (hu : t.row id = some u) (h : t.save id v = .ok t') (id' : Uuid) :
    t'.row id' = if id' = id then some v else t.row id' := by
  simp only [Users.save, bind_eq_ok, ensure_eq_ok, pure_eq_ok] at h
  obtain ⟨-, -, rfl⟩ := h
  rw [Table.row_put, hu]
  rfl

theorem findByTenantAndId_eq_some :
    t.findByTenantAndId tenantId id = some u ↔ t.row id = some u ∧ u.tenantId = tenantId := by
  simp [Users.findByTenantAndId, Option.filter_eq_some_iff]

/-- An added row takes nothing away. -/
theorem grows_add (h : t.add id u = .ok t') : Grows t t' := by
  obtain ⟨hnew, hrow⟩ := add_row h
  refine ⟨fun id' v hv => ⟨v, ?_, rfl, rfl, fun hs => hs⟩⟩
  rw [hrow, if_neg, hv]
  rintro rfl
  simp [hnew] at hv

/-- A claimed invitation keeps its role. -/
theorem grows_claimInvitedById {externalUserId : String} {b : Bool}
    (h : t.claimInvitedById id externalUserId = .ok (t', b)) :
    Grows t t' ∧ ∀ tenantId, owners t' tenantId = owners t tenantId := by
  unfold Users.claimInvitedById at h
  split at h
  · obtain ⟨rfl, -⟩ := Prod.mk.inj (Except.ok.inj h)
    exact ⟨Grows.refl t, fun _ => rfl⟩
  · rename_i u hu
    split at h
    · simp only [bind_eq_ok, pure_eq_ok, Prod.mk.injEq] at h
      obtain ⟨t'', hsave, rfl, -⟩ := h
      have hrow := save_row hu hsave
      refine ⟨⟨fun id' v hv => ?_⟩, fun tenantId => ?_⟩
      · by_cases e : id' = id
        · subst e
          obtain rfl : u = v := Option.mem_unique hu hv
          exact ⟨_, (hrow id').trans (if_pos rfl), rfl, rfl, fun _ => rfl⟩
        · exact ⟨v, by rw [hrow, if_neg e, hv], rfl, rfl, fun hs => hs⟩
      · ext id'
        by_cases e : id' = id
        · subst e
          simp [owners, hrow, hu]
        · simp [owners, hrow, e]
    · obtain ⟨rfl, -⟩ := Prod.mk.inj (Except.ok.inj h)
      exact ⟨Grows.refl t, fun _ => rfl⟩

/-- Claiming invitations changes no role: one step of the loop after the other. -/
theorem grows_claimInvites (externalUserId : String) (invites : List (Uuid × TenantUser)) :
    ∀ (taken : List Uuid) (t : Users) (rows : List (Uuid × TenantUser)),
      Grows t (claimInvites externalUserId invites taken t rows).1 ∧
        ∀ tenantId, owners (claimInvites externalUserId invites taken t rows).1 tenantId =
          owners t tenantId := by
  induction invites with
  | nil => exact fun _ t _ => ⟨Grows.refl t, fun _ => rfl⟩
  | cons x invites ih =>
    intro taken t rows
    rw [claimInvites]
    split
    · exact ih taken t rows
    · split
      · exact ⟨Grows.refl t, fun _ => rfl⟩
      · rename_i t' claimed hclaim
        obtain ⟨hgrows, howners⟩ := grows_claimInvitedById hclaim
        obtain ⟨hgrows', howners'⟩ := ih (x.2.tenantId :: taken) t' _
        exact ⟨hgrows.trans hgrows', fun tenantId => (howners' tenantId).trans (howners tenantId)⟩

/-- A row that is created with another role than owner leaves the owners alone. -/
theorem owners_add (h : t.add id u = .ok t') (hu : u.tenantId = tenantId → u.role ≠ .owner) :
    owners t' tenantId = owners t tenantId := by
  obtain ⟨hnew, hrow⟩ := add_row h
  ext id'
  by_cases e : id' = id
  · subst e
    simpa [owners, hrow, hnew] using hu
  · simp [owners, hrow, e]

theorem create_add {createdAt : ℕ} {dto : CreateTenantUserDto}
    (h : create t id createdAt dto = .ok t') :
    ∃ u, t.add id u = .ok t' ∧ u.tenantId = dto.tenantId ∧ u.role = dto.role := by
  simp only [create, bind_eq_ok, ensure_eq_ok] at h
  obtain ⟨-, -, h⟩ := h
  exact ⟨_, h, rfl, rfl⟩

theorem grows_claimAllInvitedByEmail (q : UserQueries) (t : Users) (email externalUserId : String) :
    Grows t (claimAllInvitedByEmail q t email externalUserId).1 ∧
      ∀ tenantId, owners (claimAllInvitedByEmail q t email externalUserId).1 tenantId =
        owners t tenantId :=
  grows_claimInvites externalUserId _ _ t []

/-- A sign-in's claims keep every row and owner. -/
theorem grows_claims (q : UserQueries) (t : Users) (r : SignIn) :
    Grows t (r.claims q t).1 ∧
      ∀ tenantId, owners (r.claims q t).1 tenantId = owners t tenantId := by
  unfold SignIn.claims
  split
  · exact ⟨Grows.refl t, fun _ => rfl⟩
  · split
    · exact ⟨Grows.refl t, fun _ => rfl⟩
    · exact grows_claimAllInvitedByEmail q t _ _

/-- A sign-in makes nobody an owner. -/
theorem grows_signIn (q : UserQueries) (t : Users) (r : SignIn) :
    Grows t (signIn q t r).1 ∧
      ∀ tenantId, owners (signIn q t r).1 tenantId = owners t tenantId := by
  obtain ⟨hgrows, howners⟩ := grows_claims q t r
  unfold signIn
  split
  · rename_i t' e hc
    rw [hc] at hgrows howners
    exact ⟨hgrows, howners⟩
  · rename_i t' claimed hc
    rw [hc] at hgrows howners
    split
    · exact ⟨hgrows, howners⟩
    · split
      · split
        · exact ⟨hgrows, howners⟩
        · exact ⟨hgrows, howners⟩
      · split
        · rename_i t'' hcreate
          obtain ⟨u, hadd, -, hrole⟩ := create_add hcreate
          refine ⟨hgrows.trans (grows_add hadd), fun tenantId => ?_⟩
          rw [owners_add hadd (fun _ => by simp [hrole, SignIn.dto]), howners]
        · exact ⟨hgrows, howners⟩

/-! ### Who may act on an owner -/

/-- The row that the guard hands on is the caller's current row. -/
theorem canActivate_ok {caller : Caller} (h : canActivate t tenantId caller = .ok c) :
    (c = none ∧ caller.undefined) ∨ ∃ auth id u, caller = .bearer auth ∧ auth.subject = .user id ∧
      c = some (id, u) ∧ t.row id = some u ∧ u.tenantId = tenantId ∧ u.status = .active := by
  unfold canActivate at h
  split at h
  · exact Or.inl ⟨(Except.ok.inj h).symm, trivial⟩
  · rename_i auth
    split at h
    · rename_i hadmin
      exact Or.inl ⟨(Except.ok.inj h).symm, hadmin⟩
    · split at h
      · simp at h
      · rename_i id hid
        simp only [bind_eq_ok, need_eq_ok, ensure_eq_ok, pure_eq_ok,
          findByTenantAndId_eq_some] at h
        obtain ⟨u, ⟨hu, ht⟩, -, ⟨hs, -⟩, hc⟩ := h
        exact Or.inr ⟨auth, id, u, rfl, hid, hc.symm, hu, ht, hs⟩

/-- The caller that the service goes by is the row as it is now. -/
theorem findCurrentCaller_ok {target : TenantUser} {caller : Option TenantUser}
    (htarget : t.row id = some target) (hc : ∀ x ∈ c, t.row x.1 = some x.2)
    (h : findCurrentCaller t tenantId id target c = .ok caller) : caller = c.map Prod.snd := by
  cases c with
  | none => exact (Except.ok.inj h).symm
  | some x =>
    have hx := hc x rfl
    simp only [findCurrentCaller, bind_eq_ok, need_eq_ok, ensure_eq_ok, pure_eq_ok] at h
    obtain ⟨u, hu, -, -, rfl⟩ := h
    split at hu
    · rename_i e
      rw [e, htarget, hu] at hx
      simpa using hx
    · rw [findByTenantAndId_eq_some, hx] at hu
      simpa using hu.1.symm

/-- Only an owner, or a caller without a row, gets past the check on owners. -/
theorem mayManageOwner {caller : Caller} {u : Unit} (hc : canActivate t tenantId caller = .ok c)
    (h : assertMayManageOwner (c.map Prod.snd) true = .ok u) :
    caller.undefined ∨ caller.isOwner t tenantId := by
  rcases canActivate_ok hc with ⟨-, hundef⟩ | ⟨auth, id, v, rfl, hid, rfl, hv, ht, hs⟩
  · exact Or.inl hundef
  · simp only [assertMayManageOwner, ensure_eq_ok, Option.map_some, Option.any_some,
      true_and, decide_eq_true_eq, not_not] at h
    exact Or.inr ⟨id, v, hid, hv, ht, h, hs⟩

/-- The row that the guard hands on is in the table. -/
theorem row_of_canActivate {caller : Caller} (hc : canActivate t tenantId caller = .ok c) :
    ∀ x ∈ c, t.row x.1 = some x.2 := by
  rcases canActivate_ok hc with ⟨rfl, -⟩ | ⟨-, id, v, -, -, rfl, hv, -, -⟩
  · simp
  · simpa using hv

/-! ### Changing and removing a user -/

/-- What a successful `update` has made sure of and what it does. -/
theorem update_ok {dto : UpdateTenantUserDto} {caller : Caller}
    (hc : canActivate t tenantId caller = .ok c) (h : update t tenantId id dto c = .ok t') :
    ∃ u, t.row id = some u ∧ u.tenantId = tenantId ∧
      (dto.role = some .owner ∨ u.role = .owner → caller.undefined ∨ caller.isOwner t tenantId) ∧
      (u.status = .active ∧ u.role = .owner ∧
          ((dto.apply u).role ≠ .owner ∨ (dto.apply u).status ≠ .active) →
        1 < t.countActiveOwnersByTenant tenantId) ∧
      ∀ id', t'.row id' = if id' = id then some (dto.apply u) else t.row id' := by
  simp only [update, bind_eq_ok, need_eq_ok, ensure_eq_ok, findByTenantAndId_eq_some] at h
  obtain ⟨u, ⟨hu, ht⟩, current, hcurrent, _, hmay, -, -, -, hlast, -, -, hsave⟩ := h
  obtain rfl := findCurrentCaller_ok hu (row_of_canActivate hc) hcurrent
  refine ⟨u, hu, ht, fun htouch => ?_, fun hactive => hlast ⟨hactive.1, hactive.2.1, ?_⟩,
    save_row hu hsave⟩
  · have htouches : (decide (dto.role = some .owner) || decide (u.role = .owner)) = true := by
      simpa using htouch
    rw [htouches] at hmay
    exact mayManageOwner hc hmay
  · rcases hactive.2.2 with hloses | hloses
    · refine Or.inl ?_
      cases hd : dto.role <;> simp_all [UpdateTenantUserDto.apply]
    · refine Or.inr ?_
      cases hd : dto.status <;> simp_all [UpdateTenantUserDto.apply]

/-- What a successful `delete` has made sure of and what it does. -/
theorem delete_ok {caller : Caller} (hc : canActivate t tenantId caller = .ok c)
    (h : delete t tenantId id c = .ok t') :
    ∃ u, t.row id = some u ∧ u.tenantId = tenantId ∧
      (u.role = .owner → caller.undefined ∨ caller.isOwner t tenantId) ∧
      (u.role = .owner ∧ u.status = .active → 1 < t.countActiveOwnersByTenant tenantId) ∧
      ∀ id', t'.row id' = if id' = id then none else t.row id' := by
  simp only [TenantUserService.delete, bind_eq_ok, need_eq_ok, ensure_eq_ok, pure_eq_ok,
    findByTenantAndId_eq_some] at h
  obtain ⟨u, ⟨hu, ht⟩, current, hcurrent, _, hmay, -, -, -, hlast, -, -, rfl⟩ := h
  obtain rfl := findCurrentCaller_ok hu (row_of_canActivate hc) hcurrent
  refine ⟨u, hu, ht, fun hr => ?_, hlast,
    fun id' => ?_⟩
  · rw [decide_eq_true hr] at hmay
    exact mayManageOwner hc hmay
  · rw [Table.row_delete]
    by_cases e : id' = id
    · simp [e]
    · cases hrow : t.row id' <;> simp [e, Option.filter]

/-- What a successful `invite` has made sure of and what it does. -/
theorem invite_ok {createdAt : ℕ} {dto : InviteTenantUserDto} {caller : Caller}
    (hc : canActivate t tenantId caller = .ok c)
    (h : invite t id createdAt tenantId dto c = .ok t') :
    ∃ u, t.add id u = .ok t' ∧ u.tenantId = tenantId ∧
      (u.role = .owner → caller.undefined ∨ caller.isOwner t tenantId) := by
  simp only [invite, bind_eq_ok, ensure_eq_ok] at h
  obtain ⟨_, hmay, -, -, hadd⟩ := h
  refine ⟨_, hadd, rfl, fun hr => ?_⟩
  rw [decide_eq_true (show dto.role = .owner from hr)] at hmay
  exact mayManageOwner hc hmay

/-! ## One call -/

/-- A call either leaves the table alone or succeeds. -/
theorem committed_cases {x : Except Failure Users} {P : Users → Prop} (h : P t)
    (hok : ∀ t', x = .ok t' → P t') : P (committed t x) := by
  cases x with
  | ok t' => exact hok t' rfl
  | error e => exact h

theorem Grows.hasActiveOwner (h : Grows t t') (ho : HasActiveOwner t tenantId) :
    HasActiveOwner t' tenantId := by
  obtain ⟨id, u, hu, ht, hr, hs⟩ := ho
  obtain ⟨u', hu', ht', hr', hs'⟩ := h.kept id u hu
  exact ⟨id, u', hu', ht'.trans ht, hr'.trans hr, hs' hs⟩

/-- Changing one row leaves the tenant an active owner, if the row stays one, or was none, or
another active owner is counted. -/
theorem hasActiveOwner_of_change {w : Option TenantUser} (hu : t.row id = some u)
    (hrow : ∀ id', t'.row id' = if id' = id then w else t.row id')
    (hlast : u.role = .owner ∧ u.status = .active ∧ u.tenantId = tenantId →
      (∃ v, w = some v ∧ v.tenantId = tenantId ∧ v.role = .owner ∧ v.status = .active) ∨
        1 < t.countActiveOwnersByTenant tenantId) (ho : HasActiveOwner t tenantId) :
    HasActiveOwner t' tenantId := by
  obtain ⟨id', v, hv, ht, hr, hs⟩ := ho
  by_cases e : id' = id
  · subst e
    obtain rfl : u = v := Option.mem_unique hu hv
    rcases hlast ⟨hr, hs, ht⟩ with ⟨v, rfl, hv⟩ | hcount
    · exact ⟨id', v, by rw [hrow, if_pos rfl], hv⟩
    · obtain ⟨k, v, hne, hk, hp⟩ := Table.one_lt_count hcount id'
      simp only [Bool.and_eq_true, decide_eq_true_eq] at hp
      exact ⟨k, v, by rw [hrow, if_neg hne, hk], hp.1.1, hp.1.2, hp.2⟩
  · exact ⟨id', v, by rw [hrow, if_neg e, hv], ht, hr, hs⟩

/-- No call takes the last active owner away. -/
theorem hasActiveOwner_handle (q : UserQueries) (t : Users) (r : Request)
    (ho : HasActiveOwner t tenantId) : HasActiveOwner (handle q t r) tenantId := by
  cases r with
  | invite caller tid dto id createdAt =>
    refine committed_cases (P := fun t' => HasActiveOwner t' tenantId) ho fun t' h => ?_
    obtain ⟨c, hc, h⟩ := bind_eq_ok.mp h
    obtain ⟨u, hadd, -, -⟩ := invite_ok hc h
    exact (grows_add hadd).hasActiveOwner ho
  | create dto id createdAt =>
    refine committed_cases (P := fun t' => HasActiveOwner t' tenantId) ho fun t' h => ?_
    obtain ⟨u, hadd, -, -⟩ := create_add h
    exact (grows_add hadd).hasActiveOwner ho
  | claim email externalUserId =>
    exact (grows_claimAllInvitedByEmail q t email externalUserId).1.hasActiveOwner ho
  | signIn r => exact (grows_signIn q t r).1.hasActiveOwner ho
  | update caller tid id dto =>
    refine committed_cases (P := fun t' => HasActiveOwner t' tenantId) ho fun t' h => ?_
    obtain ⟨c, hc, h⟩ := bind_eq_ok.mp h
    obtain ⟨u, hu, ht, -, hlast, hrow⟩ := update_ok hc h
    refine hasActiveOwner_of_change hu hrow (fun ⟨hr, hs, ht'⟩ => ?_) ho
    by_cases hkeeps : (dto.apply u).role = .owner ∧ (dto.apply u).status = .active
    · exact Or.inl ⟨_, rfl, ht', hkeeps.1, hkeeps.2⟩
    · obtain rfl : tid = tenantId := ht.symm.trans ht'
      exact Or.inr (hlast ⟨hs, hr, by tauto⟩)
  | delete caller tid id =>
    refine committed_cases (P := fun t' => HasActiveOwner t' tenantId) ho fun t' h => ?_
    obtain ⟨c, hc, h⟩ := bind_eq_ok.mp h
    obtain ⟨u, hu, ht, -, hlast, hrow⟩ := delete_ok hc h
    refine hasActiveOwner_of_change hu hrow (fun ⟨hr, hs, ht'⟩ => ?_) ho
    obtain rfl : tid = tenantId := ht.symm.trans ht'
    exact Or.inr (hlast ⟨hr, hs⟩)

/-- Whether a call belongs to a sign-in. -/
def TenantUserService.Request.isSignIn : Request → Bool
  | .claim .. | .signIn .. => true
  | _ => false

/-- Changing a row that is no owner of the tenant before or after leaves the owners alone. -/
theorem owners_of_change {w : Option TenantUser} (hu : t.row id = some u)
    (hrow : ∀ id', t'.row id' = if id' = id then w else t.row id')
    (hold : u.tenantId = tenantId → u.role ≠ .owner)
    (hnew : ∀ v, w = some v → v.tenantId = tenantId → v.role ≠ .owner) :
    owners t' tenantId = owners t tenantId := by
  ext id'
  by_cases e : id' = id
  · subst e
    simp only [owners, Set.mem_ofPred_eq, hrow, if_true, hu]
    constructor
    · rintro ⟨v, hv, ht, hr⟩
      exact absurd hr (hnew v hv ht)
    · rintro ⟨v, hv, ht, hr⟩
      obtain rfl := Option.some.inj hv
      exact absurd hr (hold ht)
  · simp [owners, hrow, e]

/-- Only an owner or a caller without a row changes the owners of a tenant, and a sign-in
never does. -/
theorem owners_handle (q : UserQueries) (t : Users) (r : Request)
    (hchanged : owners (handle q t r) tenantId ≠ owners t tenantId) :
    r.isSignIn = false ∧ (r.caller.undefined ∨ r.caller.isOwner t tenantId) := by
  cases r with
  | invite caller tid dto id createdAt =>
    refine ⟨rfl, ?_⟩
    by_contra hmay
    refine hchanged (committed_cases (P := fun t' => owners t' tenantId = _) rfl fun t' h => ?_)
    obtain ⟨c, hc, h⟩ := bind_eq_ok.mp h
    obtain ⟨u, hadd, ht, howner⟩ := invite_ok hc h
    exact owners_add hadd fun ht' hr => hmay (ht.symm.trans ht' ▸ howner hr)
  | create dto id createdAt => exact ⟨rfl, Or.inl trivial⟩
  | claim email externalUserId =>
    exact absurd ((grows_claimAllInvitedByEmail q t email externalUserId).2 tenantId) hchanged
  | signIn r => exact absurd ((grows_signIn q t r).2 tenantId) hchanged
  | update caller tid id dto =>
    refine ⟨rfl, ?_⟩
    by_contra hmay
    refine hchanged (committed_cases (P := fun t' => owners t' tenantId = _) rfl fun t' h => ?_)
    obtain ⟨c, hc, h⟩ := bind_eq_ok.mp h
    obtain ⟨u, hu, ht, howner, -, hrow⟩ := update_ok hc h
    refine owners_of_change hu hrow
      (fun ht' hr => hmay (ht.symm.trans ht' ▸ howner (Or.inr hr))) ?_
    rintro v hv ht' hr
    obtain rfl := Option.some.inj hv
    refine hmay (ht.symm.trans ht' ▸ howner ?_)
    cases hd : dto.role <;> simp_all [UpdateTenantUserDto.apply]
  | delete caller tid id =>
    refine ⟨rfl, ?_⟩
    by_contra hmay
    refine hchanged (committed_cases (P := fun t' => owners t' tenantId = _) rfl fun t' h => ?_)
    obtain ⟨c, hc, h⟩ := bind_eq_ok.mp h
    obtain ⟨u, hu, ht, howner, -, hrow⟩ := delete_ok hc h
    exact owners_of_change hu hrow
      (fun ht' hr => hmay (ht.symm.trans ht' ▸ howner hr)) (by simp)

/-! ## Every sequence of calls -/

/-- A tenant that has an active owner keeps one. -/
theorem hasActiveOwner_run (q : UserQueries) (rs : List Request) :
    ∀ {t : Users}, HasActiveOwner t tenantId → HasActiveOwner (run q t rs) tenantId := by
  induction rs with
  | nil => exact fun ho => ho
  | cons r rs ih => exact fun ho => ih (hasActiveOwner_handle q _ r ho)

/-- Once the tenant has an active owner it has one after every further call, and a call that changes
its owners is made by one who is an owner then, or without a caller's row, and is no part of a
sign-in. -/
theorem owners_guarded (q : UserQueries) (t : Users) (tenantId : Uuid) (before : List Request) :
    (HasActiveOwner (run q t before) tenantId →
      ∀ later, HasActiveOwner (run q t (before ++ later)) tenantId) ∧
    ∀ r, owners (run q t (before ++ [r])) tenantId ≠ owners (run q t before) tenantId →
      r.isSignIn = false ∧
        (r.caller.undefined ∨ r.caller.isOwner (run q t before) tenantId) := by
  refine ⟨fun ho later => ?_, fun r hchanged => ?_⟩
  · rw [run, List.foldl_append]
    exact hasActiveOwner_run q later ho
  · refine owners_handle q _ r ?_
    rwa [run, List.foldl_append] at hchanged

end Calls

def sampleUser (email : String) (role : TenantUserRole) : TenantUser :=
  ⟨7, some email, email, none, role, .active, false, 0⟩

def twoOwners : Users :=
  ⟨[(1, sampleUser "a@example.com" .owner), (2, sampleUser "b@example.com" .owner)], by decide⟩

def demotion : Request :=
  .update (.bearer ⟨.user 1, some 7, ["users:manage"], ["owner"]⟩) 7 2
    ⟨none, none, some .admin, none⟩

def plainQueries : UserQueries := ⟨fun _ => true, id, id⟩

/-- The two owners of the sample: the demotion is made by an owner, changes the owners, and
leaves an active one. -/
theorem owners_guarded_demotion :
    HasActiveOwner (run plainQueries twoOwners ([] ++ [demotion])) 7 ∧
      owners (run plainQueries twoOwners ([] ++ [demotion])) 7 ≠
        owners (run plainQueries twoOwners []) 7 ∧
      (demotion.isSignIn = false ∧
        (demotion.caller.undefined ∨
          demotion.caller.isOwner (run plainQueries twoOwners []) 7)) := by
  have hchanged : owners (run plainQueries twoOwners ([] ++ [demotion])) 7 ≠
      owners (run plainQueries twoOwners []) 7 := by
    intro h
    have h2 : (2 : Uuid) ∈ owners (run plainQueries twoOwners []) 7 :=
      ⟨sampleUser "b@example.com" .owner, by rfl, rfl, rfl⟩
    rw [← h] at h2
    obtain ⟨u, hu, -, hr⟩ := h2
    have : u.role = .admin := by
      have : u = { sampleUser "b@example.com" .owner with role := .admin } :=
        Option.mem_unique hu (by rfl)
      rw [this]
    simp [this] at hr
  exact ⟨(owners_guarded plainQueries twoOwners 7 []).1
      ⟨1, sampleUser "a@example.com" .owner, by rfl, rfl, rfl, rfl⟩ [demotion],
    hchanged, (owners_guarded plainQueries twoOwners 7 []).2 demotion hchanged⟩

end DigitalTrust
