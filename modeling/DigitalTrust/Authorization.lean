/-
# Scopes, roles and the caller of a request

The parts of the `auth` library that the modelled services consult: the published
scopes, the roles that a token may carry, and what a caller may hand on.  Scopes and
roles are the strings of a token; whoever signs tokens decides which ones occur.
-/
import DigitalTrust.Schema

namespace DigitalTrust

/-! ## Constants -/

def tenantSuperuserScope : String := "tenants:admin"

def platformAdminRole : String := "platform-admin"

def level2Scopes : List String :=
  ["credentials:offer", "credentials:verify", "credentials:hold", "credentials:revoke",
    "connections:manage", "profiles:manage", "users:manage", "clients:manage"]

def level3Scopes : List String := ["logs:read", "audit:read"]

def allTenantScopes : List String := level2Scopes ++ level3Scopes

def assignableOAuthClientScopes : List String := tenantSuperuserScope :: allTenantScopes

def roleHierarchy : List String := ["owner", "admin", "member", "readonly"]

def oauthClientPlatformRoles : List String := [platformAdminRole]

def oauthClientAllowedRoles : List String := roleHierarchy ++ oauthClientPlatformRoles

/-! ## Callers -/

/-- The subject of a token: a tenant user or a machine client (`tokenType` and `sub`). -/
inductive Subject where
  | user (id : Uuid)
  | machine (clientId : String)

/-- `AuthContext`: what a verified token says about the caller. -/
structure AuthContext where
  subject : Subject
  tenantId : Option Uuid
  scopes : List String
  roles : List String

def isPlatformAdmin (roles : List String) : Bool := roles.contains platformAdminRole

def expandEffectiveScopes (tokenScopes : List String) : List String :=
  if tokenScopes.contains tenantSuperuserScope then tokenScopes ++ allTenantScopes
  else tokenScopes

def hasRequiredScopes (tokenScopes requiredScopes : List String) : Bool :=
  requiredScopes.all fun scope => (expandEffectiveScopes tokenScopes).contains scope

/-- `ScopeGuard` and `TenantGuard` in front of a route of a tenant. -/
def passesGuards (auth : AuthContext) (requiredScopes : List String) (tenantId : Uuid) : Bool :=
  isPlatformAdmin auth.roles ||
    hasRequiredScopes auth.scopes requiredScopes && auth.tenantId = some tenantId

/-- The scopes that `partitionRequestedScopes` denies. -/
def deniedScopes (requestedScopes allowedScopes actorScopes : List String) (platformAdmin : Bool) :
    List String :=
  requestedScopes.filter fun scope =>
    !(allowedScopes.contains scope && (platformAdmin || actorScopes.contains scope))

end DigitalTrust
