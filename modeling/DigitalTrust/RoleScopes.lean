/-
# The scopes of a tenant's roles

`role-scope.service.ts`, `role-scope.repository.ts` and `deleteAllForTenantRole` of the OIDC
session repository, when calls overlap with each other and with logins.

`replaceRoleScopes` and `resetRoleScopes` run in a transaction under an advisory lock of the
tenant.  What the transaction writes is seen by nobody before it commits, so a program keeps it
for itself until then.  If the change takes a scope away, the sessions of the role's users are
deleted in the transaction, and again after the commit.
-/
import DigitalTrust.Authorization
import DigitalTrust.Journal

namespace DigitalTrust.RoleScopes

open Interleaving Relational

/-! ## Mappings -/

def immutableRole : String := "owner"

/-- The table `role_scope`: the scopes of a role, in their order. -/
abbrev Defaults := String → List String

/-- The table `tenant_role_scope`: the scopes of a tenant's role, if it has a row. -/
abbrev Overrides := Uuid → String → Option (List String)

inductive RoleScopeSource where
  | default
  | override
  deriving DecidableEq

structure RoleScopeMappingEntry where
  name : String
  scopes : List String
  source : RoleScopeSource

def findScopesForRole (defaults : Defaults) (o : Overrides) (role : String) (tenantId : Uuid) :
    List String :=
  (o tenantId role).getD (defaults role)

/-- `findDefaultRoleScopes`: a role without a scope has no group. -/
def findDefaultRoleScopes (defaults : Defaults) (role : String) : Option (List String) :=
  if defaults role = [] then none else some (defaults role)

def getTenantRoleMapping (defaults : Defaults) (o : Overrides) (tenantId : Uuid) :
    List RoleScopeMappingEntry :=
  roleHierarchy.map fun role => match o tenantId role with
    | some override => ⟨role, override, .override⟩
    | none => ⟨role, (findDefaultRoleScopes defaults role).getD [], .default⟩

def scopesIn (mapping : List RoleScopeMappingEntry) (role : String) : List String :=
  ((mapping.find? fun entry => entry.name = role).map RoleScopeMappingEntry.scopes).getD []

theorem findDefaultRoleScopes_getD (defaults : Defaults) (role : String) :
    (findDefaultRoleScopes defaults role).getD [] = defaults role := by
  unfold findDefaultRoleScopes
  split_ifs with h
  · exact h.symm
  · rfl

variable {defaults : Defaults} {o : Overrides} {tenantId : Uuid} {role : String} {u : Unit}

/-- An entry of a tenant's mapping has the scopes that the login looks up. -/
theorem scopes_of_mem {entry : RoleScopeMappingEntry}
    (h : entry ∈ getTenantRoleMapping defaults o tenantId) :
    entry.scopes = findScopesForRole defaults o entry.name tenantId := by
  obtain ⟨role, -, rfl⟩ := List.mem_map.mp h
  unfold findScopesForRole
  cases hrow : o tenantId role with
  | some scopes => simp [hrow]
  | none => simp [hrow, findDefaultRoleScopes_getD]

/-- The mapping has an entry for every role, and its scopes are what the login looks up. -/
theorem scopesIn_getTenantRoleMapping (hrole : role ∈ roleHierarchy) :
    scopesIn (getTenantRoleMapping defaults o tenantId) role =
      findScopesForRole defaults o role tenantId := by
  have hname : ∀ r, RoleScopeMappingEntry.name (match o tenantId r with
      | some override => ⟨r, override, .override⟩
      | none => ⟨r, (findDefaultRoleScopes defaults r).getD [], .default⟩) = r := by
    intro r
    cases o tenantId r <;> rfl
  cases hfind : (getTenantRoleMapping defaults o tenantId).find? fun entry => entry.name = role with
  | none =>
    have hnone := List.find?_eq_none.mp hfind _ (List.mem_map.mpr ⟨role, hrole, rfl⟩)
    simp [hname role] at hnone
  | some entry =>
    have hentry : entry.name = role := by simpa using List.find?_some hfind
    rw [scopesIn, hfind, ← hentry]
    exact scopes_of_mem (List.mem_of_find?_eq_some hfind)

/-! ## Checks -/

/-- A `BadRequestException` with its code. -/
def refused (code message : String) : Failure := .badRequest (code ++ ": " ++ message)

def assertRoleMutable (role : String) : Except Failure Unit :=
  ensure (role ≠ immutableRole)
    (refused "role_immutable" s!"The {immutableRole} role cannot be modified")

def isKnownScope (scope : String) : Bool :=
  scope = tenantSuperuserScope || allTenantScopes.contains scope

def joined (texts : List String) : String := ", ".intercalate texts

def assertScopesAssignable (role : String) (scopes : List String) : Except Failure Unit := do
  assertRoleMutable role
  let unknown := scopes.filter fun scope => !isKnownScope scope
  ensure (unknown = []) (refused "unknown_scope" s!"Unknown scope(s): {joined unknown}")
  ensure (tenantSuperuserScope ∉ scopes) (refused "scope_not_assignable"
    s!"{tenantSuperuserScope} cannot be assigned to a role other than {immutableRole}")

/-- `RoleScopeWriteRequest`, without what only the audit log reads. -/
structure RoleScopeWriteRequest where
  tenantId : Uuid
  role : String
  actorScopes : List String
  actorRoles : List String

def assertNoEscalation (scopes : List String) (actor : RoleScopeWriteRequest) :
    Except Failure Unit :=
  let escalated := scopes.filter fun scope =>
    !(expandEffectiveScopes actor.actorScopes).contains scope
  ensure (isPlatformAdmin actor.actorRoles = true ∨ escalated = [])
    (refused "scope_escalation" s!"Cannot grant scope(s) you do not hold: {joined escalated}")

/-- The scopes of the second list that the first one lacks. -/
def excess (parentScopes childScopes : List String) : List String :=
  (expandEffectiveScopes childScopes).filter fun scope =>
    !(expandEffectiveScopes parentScopes).contains scope

def removedScopes (previous next : List String) : List String := excess next previous

def rolePairs : List (String × String) := roleHierarchy.zip roleHierarchy.tail

def assertHierarchy (mapping : List RoleScopeMappingEntry) : Except Failure Unit :=
  forM rolePairs fun pair =>
    let excess := excess (scopesIn mapping pair.1) (scopesIn mapping pair.2)
    ensure (excess = []) (refused "hierarchy_violation"
      s!"Role {pair.2} would hold scope(s) that {pair.1} lacks: {joined (excess.mergeSort)}")

/-- Each role's scopes are among those of the role above. -/
def Hierarchy (defaults : Defaults) (o : Overrides) (tenantId : Uuid) : Prop :=
  ∀ pair ∈ rolePairs,
    ∀ scope ∈ expandEffectiveScopes (findScopesForRole defaults o pair.2 tenantId),
      scope ∈ expandEffectiveScopes (findScopesForRole defaults o pair.1 tenantId)

theorem excess_eq_nil {parentScopes childScopes : List String} :
    excess parentScopes childScopes = [] ↔
      ∀ scope ∈ expandEffectiveScopes childScopes, scope ∈ expandEffectiveScopes parentScopes := by
  simp [excess, List.filter_eq_nil_iff]

theorem forM_eq_ok {α ε : Type} {f : α → Except ε Unit} {l : List α} (h : forM l f = .ok u) :
    ∀ a ∈ l, f a = .ok () := by
  induction l with
  | nil => exact fun a ha => absurd ha List.not_mem_nil
  | cons b l ih =>
    rw [List.forM_cons] at h
    obtain ⟨_, hb, hl⟩ := bind_eq_ok.mp h
    intro a ha
    obtain rfl | ha := List.mem_cons.mp ha
    · exact hb
    · exact ih hl a ha

/-- A mapping that passes the check has the hierarchy. -/
theorem hierarchy_of_assert
    (h : assertHierarchy (getTenantRoleMapping defaults o tenantId) = .ok u) :
    Hierarchy defaults o tenantId := by
  intro pair hpair
  have hroles := List.of_mem_zip hpair
  have hok := forM_eq_ok h pair hpair
  rw [ensure_eq_ok, excess_eq_nil, scopesIn_getTenantRoleMapping hroles.1,
    scopesIn_getTenantRoleMapping (List.mem_of_mem_tail hroles.2)] at hok
  exact hok

/-- The hierarchy of a tenant depends on the tenant's own rows. -/
theorem Hierarchy.congr {o' : Overrides} (h : Hierarchy defaults o tenantId)
    (heq : o' tenantId = o tenantId) : Hierarchy defaults o' tenantId := by
  unfold Hierarchy findScopesForRole at *
  rwa [heq]

/-! ## Records of the OIDC provider -/

def accountBoundModels : List String :=
  ["Session", "Grant", "AccessToken", "RefreshToken", "AuthorizationCode", "DeviceCode",
    "BackchannelAuthenticationRequest"]

/-- A row of `oidc_model`; identifiers are drawn at random and count as new. -/
structure OidcModel where
  modelName : String
  accountId : Option Uuid
  grantId : Option ℕ

/-- The tenant and the role of each account, from `tenant_user`. -/
abbrev Accounts := Uuid → Option (Uuid × String)

/-- A session, grant or token of one of the accounts with a role in a tenant. -/
def OidcModel.bound (accounts : Accounts) (tenantId : Uuid) (role : String) (r : OidcModel) :
    Bool :=
  accountBoundModels.contains r.modelName &&
    r.accountId.any fun account => accounts account = some (tenantId, role)

/-- The rows that `deleteAllForTenantRole` chooses. -/
def targeted (accounts : Accounts) (tenantId : Uuid) (role : String)
    (records : Table ℕ OidcModel) : List ℕ :=
  records.keys fun r => r.bound accounts tenantId role || r.grantId.any fun grantId =>
    (records.row grantId).any fun grant => grant.modelName = "Grant" &&
      grant.accountId.any fun account => accounts account = some (tenantId, role)

/-- The sessions, grants and tokens of the accounts with a role. -/
def boundRecords (accounts : Accounts) (tenantId : Uuid) (role : String)
    (records : Table ℕ OidcModel) : List ℕ :=
  records.keys fun r => r.bound accounts tenantId role

/-! ## Programs -/

/-- The commit of a call: what the login looked up for the role right before and right after it,
and the records of the role's users that existed then. -/
structure Commit where
  tenantId : Uuid
  role : String
  before : List String
  after : List String
  existing : List ℕ
  deriving DecidableEq

def Commit.Narrows (c : Commit) : Prop :=
  ∃ scope ∈ expandEffectiveScopes c.before, scope ∉ expandEffectiveScopes c.after

/-- The tables, the advisory locks, the number of records saved so far and the commits of the
calls that have returned. -/
structure State where
  overrides : Overrides
  records : Table ℕ OidcModel
  locks : Uuid → Option ℕ
  drawn : ℕ
  returned : List Commit

/-- `RoleScopeWriteResult`, without the number of records. -/
structure RoleScopeWriteResult where
  role : String
  scopes : List String
  source : RoleScopeSource

abbrev Program := Proc State Unit (Except Failure RoleScopeWriteResult)

/-- The locks when transaction `i` has ended. -/
def release (i : ℕ) (locks : Uuid → Option ℕ) : Uuid → Option ℕ := fun tenantId =>
  if locks tenantId = some i then none else locks tenantId

def rollback (i : ℕ) (e : Failure) : Program :=
  .act () false (fun s => some { s with locks := release i s.locks }) fun _ => .ret (.error e)

/-- `lockTenantForRoleScopeWrite`: it waits while another transaction has the lock. -/
def lockTenant (i : ℕ) (tenantId : Uuid) (k : Program) : Program :=
  .act () true
    (fun s =>
      if s.locks tenantId = none ∨ s.locks tenantId = some i then
        some { s with locks := Function.update s.locks tenantId (some i) }
      else none)
    fun r => match r with
      | some _ => k
      | none => rollback i queryFailed

def query (i : ℕ) (k : State → Program) : Program := .attempt () id (rollback i queryFailed) k

def check {β : Type} (i : ℕ) (x : Except Failure β) (k : β → Program) : Program :=
  match x with
  | .ok b => k b
  | .error e => rollback i e

/-- What a call writes: the scopes of an override, or no override. -/
inductive Write where
  | replace (scopes : List String)
  | reset

def Write.row : Write → Option (List String)
  | .replace scopes => some scopes
  | .reset => none

/-- The overrides with the transaction's own write. -/
def Write.apply (w : Write) (tenantId : Uuid) (role : String) (o : Overrides) : Overrides :=
  fun t r => if t = tenantId ∧ r = role then w.row else o t r

def Write.scopes (w : Write) (defaults : Defaults) (role : String) : List String :=
  match w with
  | .replace scopes => scopes
  | .reset => (findDefaultRoleScopes defaults role).getD []

def Write.source : Write → RoleScopeSource
  | .replace _ => .override
  | .reset => .default

section Service

variable (defaults : Defaults) (accounts : Accounts)

def respond (result : RoleScopeWriteResult) (done : Commit) : Program :=
  .act () false (fun s => some { s with returned := done :: s.returned }) fun _ => .ret (.ok result)

/-- The sweep after the commit, and the end of the call. -/
def sweep (result : RoleScopeWriteResult) (done : Commit) : Program :=
  .attempt () id (.ret (.error queryFailed)) fun s =>
    let chosen := targeted accounts done.tenantId done.role s.records
    .attempt () (fun s => { s with records := s.records.delete fun id _ => decide (id ∈ chosen) })
      (.ret (.error queryFailed))
      fun s =>
        -- an audit event tells of the records that were deleted
        if chosen.any fun id => (s.records.row id).isSome then
          .attempt () id (.ret (.error queryFailed)) fun _ => respond result done
        else respond result done

/-- The commit of a call that meets the state `s`. -/
def committed (request : RoleScopeWriteRequest) (w : Write) (s : State) : Commit where
  tenantId := request.tenantId
  role := request.role
  before := findScopesForRole defaults s.overrides request.role request.tenantId
  after := findScopesForRole defaults (w.apply request.tenantId request.role s.overrides)
    request.role request.tenantId
  existing := boundRecords accounts request.tenantId request.role s.records

/-- The commit of the transaction, which deletes the chosen records as well. -/
def commit (i : ℕ) (request : RoleScopeWriteRequest) (w : Write) (narrowed : Bool)
    (doomed : List ℕ) : Program :=
  .attempt ()
    (fun s => { s with
      overrides := w.apply request.tenantId request.role s.overrides
      records := s.records.delete fun id _ => decide (id ∈ doomed)
      locks := release i s.locks })
    (rollback i queryFailed)
    fun s =>
      let result := ⟨request.role, w.scopes defaults request.role, w.source⟩
      let done := committed defaults accounts request w s
      if narrowed then sweep accounts result done else respond result done

def auditAndCommit (i : ℕ) (request : RoleScopeWriteRequest) (w : Write) (narrowed changed : Bool)
    (doomed : List ℕ) : Program :=
  if changed then query i fun _ => commit defaults accounts i request w narrowed doomed
  else commit defaults accounts i request w narrowed doomed

/-- `writeMapping`.  The defaults do not change, so only the overrides are looked up by a
statement. -/
def writeMapping (i : ℕ) (request : RoleScopeWriteRequest) (w : Write) : Program :=
  lockTenant i request.tenantId <|
  query i fun s =>
  let previousEntry := (getTenantRoleMapping defaults s.overrides request.tenantId).find?
    fun entry => entry.name = request.role
  let previous := (previousEntry.map RoleScopeMappingEntry.scopes).getD []
  let scopes := w.scopes defaults request.role
  -- the write, which casts the role to its enumeration
  query i fun _ =>
  check i (ensure (request.role ∈ roleHierarchy)
    (.other s!"invalid input value for enum tenant_user_role: \"{request.role}\"")) fun _ =>
  query i fun s =>
  check i (do
    assertNoEscalation scopes request
    assertHierarchy (getTenantRoleMapping defaults
      (w.apply request.tenantId request.role s.overrides) request.tenantId)) fun _ =>
  let narrowed : Bool := removedScopes previous scopes ≠ []
  let changed : Bool :=
    (previousEntry.map RoleScopeMappingEntry.source).getD .default ≠ w.source ||
      " ".intercalate previous ≠ " ".intercalate scopes
  if narrowed then query i fun s =>
    auditAndCommit defaults accounts i request w narrowed changed
      (targeted accounts request.tenantId request.role s.records)
  else auditAndCommit defaults accounts i request w narrowed changed []

def replaceRoleScopes (i : ℕ) (request : RoleScopeWriteRequest) (scopes : List String) : Program :=
  let scopes := scopes.dedup.mergeSort
  .demand (assertScopesAssignable request.role scopes) fun _ =>
    writeMapping defaults accounts i request (.replace scopes)

def resetRoleScopes (i : ℕ) (request : RoleScopeWriteRequest) : Program :=
  .demand (assertRoleMutable request.role) fun _ => writeMapping defaults accounts i request .reset

end Service

/-- The provider saves a record, under an identifier that is new. -/
def saveRecord (r : OidcModel) : Proc State Unit (Except Failure Unit) :=
  .attempt ()
    (fun s => match s.records.insert s.drawn r with
      | some records => { s with records, drawn := s.drawn + 1 }
      | none => s)
    (.ret (.error queryFailed)) fun _ => .ret (.ok ())

inductive Request where
  | replaceRoleScopes (request : RoleScopeWriteRequest) (scopes : List String)
  | resetRoleScopes (request : RoleScopeWriteRequest)
  | saveRecord (r : OidcModel)

/-- What a request runs as process `i`. -/
def Request.program (defaults : Defaults) (accounts : Accounts) (i : ℕ) :
    Request → Proc State Unit Unit
  | .replaceRoleScopes request scopes =>
    (RoleScopes.replaceRoleScopes defaults accounts i request scopes).discard
  | .resetRoleScopes request => (RoleScopes.resetRoleScopes defaults accounts i request).discard
  | .saveRecord r => (RoleScopes.saveRecord r).discard

/-- The service; a crash ends the transaction of the process. -/
def service (defaults : Defaults) (accounts : Accounts) : System State Unit Request where
  prog r i := r.program defaults accounts i
  crash := some fun i s => { s with locks := release i s.locks }

/-! ## What the calls keep -/

theorem Write.apply_other (w : Write) (o : Overrides) {t : Uuid} (h : t ≠ tenantId) :
    w.apply tenantId role o t = o t := by
  funext r
  simp [Write.apply, h]

theorem Write.apply_congr (w : Write) {o' : Overrides} (h : o' tenantId = o tenantId) :
    w.apply tenantId role o' tenantId = w.apply tenantId role o tenantId := by
  funext r
  simp [Write.apply, h]

/-- The scopes that a write leaves are what the login looks up. -/
theorem findScopesForRole_apply (w : Write) :
    findScopesForRole defaults (w.apply tenantId role o) role tenantId =
      w.scopes defaults role := by
  rw [findScopesForRole, Write.apply, if_pos ⟨rfl, rfl⟩]
  cases w with
  | replace scopes => rfl
  | reset => exact (findDefaultRoleScopes_getD defaults role).symm

/-- A state that goes on from the overrides `o₀`. -/
structure Fits (defaults : Defaults) (o₀ : Overrides) (s : State) : Prop where
  hierarchy : ∀ t, Hierarchy defaults s.overrides t
  owner : ∀ t, s.overrides t immutableRole = o₀ t immutableRole
  lesser : ∀ t role scopes, role ≠ immutableRole → s.overrides t role = some scopes →
    tenantSuperuserScope ∉ scopes
  known : ∀ id r, s.records.row id = some r → id < s.drawn
  returned : ∀ n ∈ s.returned, n.Narrows → ∀ id ∈ n.existing,
    id < s.drawn ∧ s.records.row id = none

/-- What the others do to process `i`: they leave the mapping of a tenant alone that it has
locked, and a record that was saved stays as it is until it is deleted for good. -/
structure Tolerated (o : Option ℕ) (s s' : State) : Prop where
  locked : ∀ i, o = some i → ∀ t, s.locks t = some i →
    s'.locks t = some i ∧ s'.overrides t = s.overrides t
  drawn : s.drawn ≤ s'.drawn
  records : ∀ id < s.drawn, s'.records.row id = none ∨ s'.records.row id = s.records.row id

def contract (defaults : Defaults) (o₀ : Overrides) : Contract State where
  inv := Fits defaults o₀
  rely := Tolerated
  start _ _ := True

variable {s : State}

section Contract

variable {defaults : Defaults} {accounts : Accounts} {o₀ : Overrides} {i : ℕ} {P : State → Prop}

/-- Process `i` may run the program from any state of `P`. -/
abbrev Runs {α : Type} (defaults : Defaults) (o₀ : Overrides) (i : ℕ) (p : Proc State Unit α)
    (P : State → Prop) : Prop :=
  (contract defaults o₀).Ok Always i (fun _ _ => True) p P

theorem Fits.locks (h : Fits defaults o₀ s) (locks : Uuid → Option ℕ) :
    Fits defaults o₀ { s with locks } :=
  ⟨h.hierarchy, h.owner, h.lesser, h.known, h.returned⟩

theorem row_delete_or (records : Table ℕ OidcModel) (p : ℕ → OidcModel → Bool) (id : ℕ) :
    (records.delete p).row id = none ∨ (records.delete p).row id = records.row id := by
  rw [Table.row_delete]
  cases records.row id with
  | none => exact .inl rfl
  | some r => cases p id r <;> simp

/-- Deleting records keeps the facts about them. -/
theorem Fits.delete (h : Fits defaults o₀ s) (p : ℕ → OidcModel → Bool) :
    Fits defaults o₀ { s with records := s.records.delete p } where
  hierarchy := h.hierarchy
  owner := h.owner
  lesser := h.lesser
  known id r hr := by
    obtain hnone | hsame := row_delete_or s.records p id
    · exact absurd (hnone.symm.trans hr) (by simp)
    · exact h.known id r (hsame.symm.trans hr)
  returned n hn hnarrows id hid := by
    obtain ⟨hlt, hrow⟩ := h.returned n hn hnarrows id hid
    exact ⟨hlt, (row_delete_or s.records p id).elim (fun h => h) fun h => h.trans hrow⟩

theorem Tolerated.refl (o : Option ℕ) (s : State) : Tolerated o s s :=
  ⟨fun _ _ _ h => ⟨h, rfl⟩, le_rfl, fun _ _ => .inr rfl⟩

theorem release_other {locks : Uuid → Option ℕ} {t : Uuid} {j : ℕ} (h : locks t = some j)
    (hji : j ≠ i) : release i locks t = some j := by
  rw [release, if_neg (by rw [h]; simpa using hji), h]

/-- The others do not mind when a transaction ends. -/
theorem tolerated_release (s : State) {o : Option ℕ} (ho : o ≠ some i) :
    Tolerated o s { s with locks := release i s.locks } where
  locked := by
    rintro j rfl t ht
    exact ⟨release_other ht (by simpa using ho), rfl⟩
  drawn := le_rfl
  records _ _ := .inr rfl

theorem tolerated_delete (o : Option ℕ) (s : State) (p : ℕ → OidcModel → Bool) :
    Tolerated o s { s with records := s.records.delete p } :=
  ⟨fun _ _ _ h => ⟨h, rfl⟩, le_rfl, fun id _ => row_delete_or s.records p id⟩

theorem rollback_runs (e : Failure) : Runs defaults o₀ i (rollback i e) P := by
  refine ⟨fun s s' hs _ _ hf => ?_, nofun⟩
  obtain rfl := Option.some.inj hf
  exact ⟨hs.locks _, fun _ => tolerated_release s, Contract.done⟩

theorem query_runs {k : State → Program} (hP : (contract defaults o₀).Stable i P)
    (h : ∀ s, Runs defaults o₀ i (k s) P) : Runs defaults o₀ i (query i k) P :=
  .attempt (rollback_runs _) fun s hs hPs _ => ⟨hs, fun j _ => .refl j s, P, hPs, hP, h s⟩

theorem check_runs {β : Type} {x : Except Failure β} {k : β → Program}
    (h : ∀ b, x = .ok b → Runs defaults o₀ i (k b) P) : Runs defaults o₀ i (check i x k) P := by
  cases x with
  | ok b => exact h b rfl
  | error e => exact rollback_runs e

/-- The transaction has the tenant's lock, and the tenant's rows are those of `o`. -/
def Locked (i : ℕ) (tenantId : Uuid) (o : Overrides) (s : State) : Prop :=
  s.locks tenantId = some i ∧ s.overrides tenantId = o tenantId

theorem stable_locked (tenantId : Uuid) (o : Overrides) :
    (contract defaults o₀).Stable i (Locked i tenantId o) := by
  intro s s' _ _ h hrely
  obtain ⟨hlock, hsame⟩ := hrely.locked i rfl tenantId h.1
  exact ⟨hlock, hsame.trans h.2⟩

/-- What follows a lock runs with the tenant locked. -/
theorem lockTenant_runs {k : Program} (h : ∀ o, Runs defaults o₀ i k (Locked i tenantId o)) :
    Runs defaults o₀ i (lockTenant i tenantId k) P := by
  refine ⟨fun s s' hs _ _ hf => ?_, fun _ => rollback_runs _⟩
  simp only [Option.ite_none_right_eq_some] at hf
  obtain ⟨hfree, hf⟩ := hf
  obtain rfl := Option.some.inj hf
  refine ⟨hs.locks _, fun o ho => ⟨?_, le_rfl, fun _ _ => .inr rfl⟩,
    Locked i tenantId s.overrides, ⟨?_, rfl⟩, stable_locked tenantId _, h _⟩
  · rintro j rfl t ht
    have hne : t ≠ tenantId := by
      rintro rfl
      rw [ht] at hfree
      exact ho (by simpa using hfree)
    exact ⟨(Function.update_of_ne hne _ _).trans ht, rfl⟩
  · exact Function.update_self ..

/-! ### The sweep -/

/-- The records that there were at the commit, as far as they are left, belong to the role. -/
def Remaining (accounts : Accounts) (tenantId : Uuid) (role : String) (existing : List ℕ)
    (s : State) : Prop :=
  ∀ id ∈ existing, id < s.drawn ∧
    ∀ r, s.records.row id = some r → r.bound accounts tenantId role = true

/-- Of the records that there were, those not chosen are gone. -/
def Doomed (chosen existing : List ℕ) (s : State) : Prop :=
  ∀ id ∈ existing, id < s.drawn ∧ (id ∈ chosen ∨ s.records.row id = none)

/-- Other requests keep what remains to sweep. -/
theorem stable_remaining (tenantId : Uuid) (role : String) (existing : List ℕ) :
    (contract defaults o₀).Stable i (Remaining accounts tenantId role existing) := by
  intro s s' _ _ h hrely id hid
  obtain ⟨hlt, hbound⟩ := h id hid
  refine ⟨hlt.trans_le hrely.drawn, fun r hr => ?_⟩
  obtain hnone | hsame := hrely.records id hlt
  · exact absurd (hnone.symm.trans hr) (by simp)
  · exact hbound r (hsame.symm.trans hr)

theorem stable_doomed (chosen existing : List ℕ) :
    (contract defaults o₀).Stable i (Doomed chosen existing) := by
  intro s s' _ _ h hrely id hid
  obtain ⟨hlt, hgone⟩ := h id hid
  refine ⟨hlt.trans_le hrely.drawn, hgone.imp_right fun hrow => ?_⟩
  exact (hrely.records id hlt).elim (fun h => h) fun h => h.trans hrow

/-- What is left of the role's records is chosen. -/
theorem Remaining.doomed {existing : List ℕ} (h : Remaining accounts tenantId role existing s) :
    Doomed (targeted accounts tenantId role s.records) existing s := by
  intro id hid
  obtain ⟨hlt, hbound⟩ := h id hid
  refine ⟨hlt, ?_⟩
  cases hrow : s.records.row id with
  | none => exact .inr rfl
  | some r => exact .inl (Table.mem_keys.mpr ⟨r, hrow, by simp [hbound r hrow]⟩)

/-- The response comes when the sweep is done. -/
theorem respond_runs (result : RoleScopeWriteResult) (done : Commit) :
    Runs defaults o₀ i (respond result done)
      (fun s => done.Narrows → Doomed [] done.existing s) := by
  refine ⟨fun s s' hs hP _ hf => ?_, nofun⟩
  obtain rfl := Option.some.inj hf
  refine ⟨⟨hs.hierarchy, hs.owner, hs.lesser, hs.known, fun n hn hnarrows id hid => ?_⟩,
    fun j _ => ⟨fun _ _ _ h => ⟨h, rfl⟩, le_rfl, fun _ _ => .inr rfl⟩, Contract.done⟩
  obtain rfl | hn := List.mem_cons.mp hn
  · simpa using hP hnarrows id hid
  · exact hs.returned n hn hnarrows id hid

/-- The sweep runs on what remains. -/
theorem sweep_runs (result : RoleScopeWriteResult) (done : Commit) :
    Runs defaults o₀ i (sweep accounts result done)
      (Remaining accounts done.tenantId done.role done.existing) := by
  refine .attempt (fun _ _ _ => trivial) fun s hs hP _ =>
    ⟨hs, fun j _ => .refl j s, _, hP.doomed, stable_doomed _ done.existing, ?_⟩
  -- once the chosen records are deleted, nothing is left that there was
  have hrespond : Runs defaults o₀ i (respond result done) (Doomed [] done.existing) :=
    (respond_runs result done).pre fun _ _ h _ => h
  refine .attempt (fun _ _ _ => trivial) fun s hs hP _ =>
    ⟨hs.delete _, fun j _ => tolerated_delete j s _, Doomed [] done.existing, fun id hid => ?_,
      stable_doomed [] done.existing, ?_⟩
  · obtain ⟨hlt, hchosen | hnone⟩ := hP id hid
    · exact ⟨hlt, .inr (by simp [hchosen])⟩
    · exact ⟨hlt, .inr (by simp [hnone])⟩
  · split_ifs
    · exact .attempt (fun _ _ _ => trivial) fun s hs hP _ =>
        ⟨hs, fun j _ => .refl j s, _, hP, stable_doomed [] done.existing, hrespond⟩
    · exact hrespond

/-! ### The transaction -/

/-- A write that the service lets through: not the owner's, and without the superuser scope. -/
structure Write.Lesser (w : Write) (role : String) : Prop where
  role : role ≠ immutableRole
  scopes : ∀ scopes, w.row = some scopes → tenantSuperuserScope ∉ scopes

variable {w : Write}

/-- The write keeps the mapping of every tenant well-formed. -/
theorem Fits.write (h : Fits defaults o₀ s) {request : RoleScopeWriteRequest}
    (hw : w.Lesser request.role)
    (hhierarchy : Hierarchy defaults (w.apply request.tenantId request.role s.overrides)
      request.tenantId) :
    Fits defaults o₀
      { s with overrides := w.apply request.tenantId request.role s.overrides } where
  hierarchy t := by
    by_cases ht : t = request.tenantId
    · exact ht ▸ hhierarchy
    · exact (h.hierarchy t).congr (w.apply_other _ ht)
  owner t := (if_neg fun heq => hw.role heq.2.symm).trans (h.owner t)
  lesser t role scopes hrole hrow := by
    simp only [Write.apply] at hrow
    split_ifs at hrow
    · exact hw.scopes scopes hrow
    · exact h.lesser t role scopes hrole hrow
  known := h.known
  returned := h.returned

/-- What the transaction has checked on the rows `o`, which it has locked: the hierarchy with its
write, and whether that takes a scope away. -/
structure Checked (defaults : Defaults) (request : RoleScopeWriteRequest) (w : Write)
    (narrowed : Bool) (o : Overrides) : Prop where
  hierarchy : Hierarchy defaults (w.apply request.tenantId request.role o) request.tenantId
  narrowed : narrowed = false → removedScopes
    (findScopesForRole defaults o request.role request.tenantId)
    (w.scopes defaults request.role) = []

variable {request : RoleScopeWriteRequest} {narrowed : Bool}

/-- A call that deletes no sessions takes no effective scope away. -/
theorem Checked.not_narrows (h : Checked defaults request w false o)
    (hsame : s.overrides request.tenantId = o request.tenantId) :
    ¬(committed defaults accounts request w s).Narrows := by
  rintro ⟨scope, hbefore, hafter⟩
  rw [committed, findScopesForRole_apply] at hafter
  rw [committed, findScopesForRole, hsame] at hbefore
  exact hafter (excess_eq_nil.mp (h.narrowed rfl) scope hbefore)

/-- The commit runs with the tenant locked. -/
theorem commit_runs (hw : w.Lesser request.role) (h : Checked defaults request w narrowed o)
    (doomed : List ℕ) :
    Runs defaults o₀ i (commit defaults accounts i request w narrowed doomed)
      (Locked i request.tenantId o) := by
  refine .attempt (rollback_runs _) fun s hs hP _ =>
    ⟨((hs.write hw (h.hierarchy.congr (w.apply_congr hP.2))).delete
        fun id _ => decide (id ∈ doomed)).locks (release i s.locks),
      fun o ho => ⟨?_, le_rfl, fun id _ => row_delete_or s.records _ id⟩,
      Remaining accounts request.tenantId request.role
        (boundRecords accounts request.tenantId request.role s.records),
      fun id hid => ?_, stable_remaining _ _ _, ?_⟩
  · rintro j rfl t ht
    have hji : j ≠ i := by simpa using ho
    refine ⟨release_other ht hji, w.apply_other _ ?_⟩
    rintro rfl
    exact hji (Option.mem_unique ht hP.1)
  · obtain ⟨r, hrow, hbound⟩ := Table.mem_keys.mp hid
    refine ⟨hs.known id r hrow, fun r' hr' => ?_⟩
    obtain hnone | hsame := row_delete_or s.records (fun id _ => decide (id ∈ doomed)) id
    · exact absurd (hnone.symm.trans hr') (by simp)
    · exact Option.mem_unique hrow (hsame.symm.trans hr') ▸ hbound
  · cases narrowed with
    | true => exact sweep_runs _ _
    | false =>
      exact (respond_runs _ _).pre fun _ _ _ hnarrows => absurd hnarrows (h.not_narrows hP.2)

/-- So does the audit before it. -/
theorem auditAndCommit_runs (hw : w.Lesser request.role)
    (h : Checked defaults request w narrowed o) (changed : Bool) (doomed : List ℕ) :
    Runs defaults o₀ i (auditAndCommit defaults accounts i request w narrowed changed doomed)
      (Locked i request.tenantId o) := by
  unfold auditAndCommit
  split_ifs
  · exact query_runs (stable_locked _ o) fun _ => commit_runs hw h _
  · exact commit_runs hw h _

/-- A query of the transaction meets the rows that it has locked. -/
theorem query_locked {k : State → Program}
    (h : ∀ s : State, s.overrides tenantId = o tenantId →
      Runs defaults o₀ i (k s) (Locked i tenantId o)) :
    Runs defaults o₀ i (query i k) (Locked i tenantId o) :=
  .attempt (rollback_runs _) fun s hs hP _ =>
    ⟨hs, fun j _ => .refl j s, _, hP, stable_locked tenantId o, h s hP.2⟩

/-- A write follows the contract. -/
theorem writeMapping_runs (hw : w.Lesser request.role) :
    Runs defaults o₀ i (writeMapping defaults accounts i request w) P := by
  refine lockTenant_runs fun o => query_locked fun s hs => query_locked fun _ _ =>
    check_runs fun _ hrole => query_locked fun s' hs' => check_runs fun _ hok => ?_
  obtain ⟨_, -, hassert⟩ := bind_eq_ok.mp hok
  -- what was read before the write and after it are the rows that are still there at the commit
  have hprevious : scopesIn (getTenantRoleMapping defaults s.overrides request.tenantId)
      request.role = findScopesForRole defaults o request.role request.tenantId := by
    rw [scopesIn_getTenantRoleMapping (ensure_eq_ok.mp hrole), findScopesForRole, hs]
    rfl
  have hchecked : Checked defaults request w (decide (removedScopes
      (scopesIn (getTenantRoleMapping defaults s.overrides request.tenantId) request.role)
      (w.scopes defaults request.role) ≠ [])) o := by
    refine ⟨(hierarchy_of_assert hassert).congr (w.apply_congr hs'.symm), fun h => ?_⟩
    rw [← hprevious]
    simpa using h
  simp only
  split_ifs
  · exact query_runs (stable_locked _ o) fun _ => auditAndCommit_runs hw hchecked _ _
  · exact auditAndCommit_runs hw hchecked _ _

/-! ### The calls -/

theorem assertScopesAssignable_eq_ok {scopes : List String}
    (h : assertScopesAssignable role scopes = .ok u) :
    role ≠ immutableRole ∧ tenantSuperuserScope ∉ scopes := by
  simp only [assertScopesAssignable, assertRoleMutable, bind_eq_ok, ensure_eq_ok] at h
  obtain ⟨_, hrole, _, -, hscopes⟩ := h
  exact ⟨hrole, hscopes⟩

/-- So does saving a record. -/
theorem saveRecord_runs (r : OidcModel) : Runs defaults o₀ i (saveRecord r) P := by
  refine .attempt (fun _ _ _ => trivial) fun s hs _ _ => ?_
  cases hinsert : s.records.insert s.drawn r with
  | none => exact ⟨hs, fun j _ => .refl j s, Contract.done⟩
  | some records =>
    have hrow : ∀ id, id < s.drawn → records.row id = s.records.row id := fun id hlt => by
      rw [Table.row_insert hinsert, if_neg hlt.ne]
    refine ⟨⟨hs.hierarchy, hs.owner, hs.lesser, fun id r' hr' => ?_,
        fun n hn hnarrows id hid => ?_⟩,
      fun j _ => ⟨fun _ _ _ h => ⟨h, rfl⟩, Nat.le_succ _, fun id hlt => .inr (hrow id hlt)⟩,
      Contract.done⟩
    · rw [Table.row_insert hinsert] at hr'
      split_ifs at hr' with heq
      · exact heq ▸ Nat.lt_succ_self _
      · exact (hs.known id r' hr').trans (Nat.lt_succ_self _)
    · obtain ⟨hlt, hnone⟩ := hs.returned n hn hnarrows id hid
      exact ⟨hlt.trans (Nat.lt_succ_self _), (hrow id hlt).trans hnone⟩

theorem replaceRoleScopes_runs (request : RoleScopeWriteRequest) (scopes : List String) :
    Runs defaults o₀ i (replaceRoleScopes defaults accounts i request scopes) P := by
  refine .demand (fun _ _ _ _ => trivial) fun _ hok => ?_
  obtain ⟨hrole, hscopes⟩ := assertScopesAssignable_eq_ok hok
  exact writeMapping_runs ⟨hrole, fun _ h => Option.some.inj h ▸ hscopes⟩

theorem resetRoleScopes_runs (request : RoleScopeWriteRequest) :
    Runs defaults o₀ i (resetRoleScopes defaults accounts i request) P :=
  .demand (fun _ _ _ _ => trivial) fun _ hok => writeMapping_runs ⟨ensure_eq_ok.mp hok, nofun⟩

theorem program_runs (r : Request) :
    Runs defaults o₀ i (r.program defaults accounts i) fun _ => True := by
  cases r with
  | replaceRoleScopes request scopes => exact (replaceRoleScopes_runs request scopes).discard
  | resetRoleScopes request => exact (resetRoleScopes_runs request).discard
  | saveRecord r => exact (saveRecord_runs r).discard

/-- Every request follows the contract. -/
theorem service_follows : Contract.Follows (service defaults accounts) (contract defaults o₀)
    Always where
  start _ := .const True
  prog r _ := program_runs r
  crash _ hg _ s hs := by
    obtain rfl := Option.some.inj hg
    exact ⟨hs.locks _, fun _ => tolerated_release s⟩

end Contract

/-- No role below the owner has the superuser scope by default. -/
def LesserDefaults (defaults : Defaults) : Prop :=
  ∀ role ∈ roleHierarchy, role ≠ immutableRole → tenantSuperuserScope ∉ defaults role

instance (defaults : Defaults) : Decidable (LesserDefaults defaults) :=
  inferInstanceAs (Decidable (∀ _ ∈ _, _))

/-- No lesser role has the superuser scope. -/
theorem Fits.superuser {o₀ : Overrides} (h : Fits defaults o₀ s)
    (hdefaults : LesserDefaults defaults) (hrole : role ∈ roleHierarchy)
    (hne : role ≠ immutableRole) (tenantId : Uuid) :
    tenantSuperuserScope ∉ findScopesForRole defaults s.overrides role tenantId := by
  unfold findScopesForRole
  cases hrow : s.overrides tenantId role with
  | none => exact hdefaults role hrole hne
  | some scopes => exact h.lesser tenantId role scopes hne hrow

/-- **The scopes of the roles stay in order.**  In every run from a mapping in order: the login and
the mapping agree, each role has only scopes of the role above, the owner's scopes stay, no other
role has the superuser scope, and once a call has returned that took an effective scope from a role,
no session, grant or token is left of those that its users had at the commit. -/
theorem role_scopes_kept (defaults : Defaults) (accounts : Accounts) (o₀ : Overrides)
    (records : Table ℕ OidcModel) (drawn : ℕ) (hdefaults : LesserDefaults defaults)
    (hhierarchy : ∀ t, Hierarchy defaults o₀ t)
    (hlesser : ∀ t role scopes, role ≠ immutableRole → o₀ t role = some scopes →
      tenantSuperuserScope ∉ scopes)
    (hrecords : ∀ id r, records.row id = some r → id < drawn) (c : Config State Unit)
    (hc : Reach (service defaults accounts) Always ⟨o₀, records, fun _ => none, drawn, []⟩ c) :
    (∀ t, ∀ role ∈ roleHierarchy,
      scopesIn (getTenantRoleMapping defaults c.state.overrides t) role =
        findScopesForRole defaults c.state.overrides role t) ∧
    (∀ t, Hierarchy defaults c.state.overrides t) ∧
    (∀ t, findScopesForRole defaults c.state.overrides immutableRole t =
      findScopesForRole defaults o₀ immutableRole t) ∧
    (∀ t, ∀ role ∈ roleHierarchy, role ≠ immutableRole →
      tenantSuperuserScope ∉ findScopesForRole defaults c.state.overrides role t) ∧
    ∀ n ∈ c.state.returned, (∃ scope ∈ expandEffectiveScopes n.before,
      scope ∉ expandEffectiveScopes n.after) →
        ∀ id ∈ n.existing, c.state.records.row id = none := by
  have hstart : Fits defaults o₀ ⟨o₀, records, fun _ => none, drawn, []⟩ :=
    ⟨hhierarchy, fun _ => rfl, hlesser, hrecords, fun _ hn => absurd hn List.not_mem_nil⟩
  have hfits : Fits defaults o₀ c.state :=
    (Contract.sound service_follows hstart (fun _ => trivial) hc).inv
  refine ⟨fun t role hrole => scopesIn_getTenantRoleMapping hrole, hfits.hierarchy, fun t => ?_,
    fun t role hrole hne => hfits.superuser hdefaults hrole hne t,
    fun n hn hnarrows id hid => (hfits.returned n hn hnarrows id hid).2⟩
  rw [findScopesForRole, hfits.owner t]
  rfl

/-! ## Runs -/

/-- The rows of `role_scope` that the migration inserts. -/
def seededDefaults : Defaults := fun role =>
  if role = "owner" then ["tenants:admin"]
  else if role = "admin" then
    ["audit:read", "clients:manage", "connections:manage", "credentials:hold",
      "credentials:offer", "credentials:revoke", "credentials:verify", "logs:read",
      "profiles:manage", "users:manage"]
  else if role = "member" then ["credentials:offer", "credentials:verify"]
  else []

def sampleAccounts : Accounts := fun account => if account = 1 then some (7, "member") else none

def emptyMembers : Request :=
  .replaceRoleScopes ⟨7, "member", ["tenants:admin"], []⟩ []

/-- The member has a session, and gets a grant while the transaction is under way. -/
def narrowAndSweep : List (Move Request) :=
  [.spawn (.saveRecord ⟨"Session", some 1, none⟩), .run 0, .spawn emptyMembers,
    .run 1, .run 1, .run 1, .run 1, .run 1, .run 1,
    .spawn (.saveRecord ⟨"Grant", some 1, none⟩), .run 2,
    .run 1, .run 1, .run 1, .run 1, .run 1]

def emptiedMembers : Commit :=
  ⟨7, "member", ["credentials:offer", "credentials:verify"], [], [0, 1]⟩

/-- The call returns when the session and the grant are gone. -/
theorem role_scopes_kept_narrowed :
    ∃ c, (service seededDefaults sampleAccounts).exec
        ⟨⟨fun _ _ => none, ⟨[], by decide⟩, fun _ => none, 0, []⟩, []⟩ narrowAndSweep = some c ∧
      c.state.overrides 7 "member" = some [] ∧
      c.state.returned = [emptiedMembers] ∧
      (∀ t, Hierarchy seededDefaults c.state.overrides t) ∧
      ∀ id ∈ [0, 1], c.state.records.row id = none := by
  have hresult : ((service seededDefaults sampleAccounts).exec
      ⟨⟨fun _ _ => none, ⟨[], by decide⟩, fun _ => none, 0, []⟩, []⟩ narrowAndSweep).map
        (fun c => (c.state.overrides 7 "member", c.state.returned)) =
        some (some [], [emptiedMembers]) := by
    decide +kernel
  obtain ⟨c, hexec, hc⟩ := Option.map_eq_some_iff.mp hresult
  have hseeded : ∀ pair ∈ rolePairs, ∀ scope ∈ expandEffectiveScopes (seededDefaults pair.2),
      scope ∈ expandEffectiveScopes (seededDefaults pair.1) := by decide +kernel
  have htheorem := role_scopes_kept seededDefaults sampleAccounts (fun _ _ => none)
    ⟨[], by decide⟩ 0 (by decide) (fun _ => hseeded) (fun _ _ _ _ h => by simp at h)
    (fun _ _ h => by simp [Table.row] at h) c (reach_exec hexec)
  obtain ⟨hmember, hreturned⟩ := Prod.mk.inj hc
  exact ⟨c, hexec, hmember, hreturned, htheorem.2.1,
    htheorem.2.2.2.2 emptiedMembers (by rw [hreturned]; exact List.mem_singleton.mpr rfl)
      ⟨"credentials:offer", by decide +kernel, by decide +kernel⟩⟩

/-- Defaults in which the admins have the superuser scope as well. -/
def generousDefaults : Defaults := fun role =>
  if role = "owner" ∨ role = "admin" then ["tenants:admin"] else seededDefaults role

/-- Defaults that have the hierarchy may give the superuser scope to a lesser role, and it has it
after a change of the mapping too. -/
theorem superuser_by_default :
    ∃ c, (∀ t, Hierarchy generousDefaults (fun _ _ => none) t) ∧
      Reach (service generousDefaults sampleAccounts) Always
        ⟨fun _ _ => none, ⟨[], by decide⟩, fun _ => none, 0, []⟩ c ∧
      c.state.overrides 7 "member" = some [] ∧
      tenantSuperuserScope ∈ findScopesForRole generousDefaults c.state.overrides "admin" 7 := by
  have hresult : ((service generousDefaults sampleAccounts).exec
      ⟨⟨fun _ _ => none, ⟨[], by decide⟩, fun _ => none, 0, []⟩, []⟩ narrowAndSweep).map
        (fun c => (c.state.overrides 7 "member",
          findScopesForRole generousDefaults c.state.overrides "admin" 7)) =
        some (some [], ["tenants:admin"]) := by
    decide +kernel
  obtain ⟨c, hexec, hc⟩ := Option.map_eq_some_iff.mp hresult
  have hgenerous : ∀ pair ∈ rolePairs,
      ∀ scope ∈ expandEffectiveScopes (generousDefaults pair.2),
        scope ∈ expandEffectiveScopes (generousDefaults pair.1) := by decide +kernel
  refine ⟨c, fun _ => hgenerous, reach_exec hexec,
    congrArg Prod.fst hc, ?_⟩
  rw [show findScopesForRole generousDefaults c.state.overrides "admin" 7 = ["tenants:admin"]
    from congrArg Prod.snd hc]
  decide

end DigitalTrust.RoleScopes
