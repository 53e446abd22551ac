/-
# The listings of the service

The members of the family of `Listings`: filters, directions and cursor texts as the
repositories have them, and when a caller who follows the cursors visits every row once.
-/
import DigitalTrust.Listings

namespace DigitalTrust

open Json Timestamps

/-! ## Cursors made from a `Date` -/

theorem toDate_le (t : Instant) : toDate t ≤ t := by
  unfold toDate
  change (_ : ℤ) ≤ _
  omega

section Date

variable {R F : Type} {l : Listing R F} {table : Rows l} {filter : F} {n : ℕ}

/-- The key of a row without the microseconds of its creation time. -/
def Listing.dateKey (l : Listing R F) (r : R) : SortKey :=
  toLex (toDate (l.createdAt r), (l.id r).value)

/-- A year that both a cursor check and the text of a `Date` know. -/
def IsPlainYear (t : Instant) : Prop := 100 ≤ year t ∧ year t ≤ 9999

instance (t : Instant) : Decidable (IsPlainYear t) := by
  unfold IsPlainYear
  infer_instance

theorem dateKey_le (r : R) : l.dateKey r ≤ l.key r := by
  refine Prod.Lex.toLex_le_toLex.mpr ?_
  rcases (toDate_le (l.createdAt r)).lt_or_eq with h | h
  · exact Or.inl h
  · exact Or.inr ⟨h, le_rfl⟩

/-- Only a whole millisecond keeps its key. -/
theorem key_le_dateKey_iff (r : R) :
    l.key r ≤ l.dateKey r ↔ toDate (l.createdAt r) = l.createdAt r := by
  constructor
  · intro h
    rcases Prod.Lex.toLex_le_toLex.mp h with h | h
    · exact absurd h (not_lt.mpr (toDate_le _))
    · exact h.1.symm
  · intro h
    rw [Listing.dateKey, h]
    exact le_rfl

/-- The place of a row whose cursor is made from a `Date`. -/
theorem place_date (hl : l.cursorTime = toISOString) (r : R) :
    l.place r = if IsPlainYear (l.createdAt r) then some (l.dateKey r) else none := by
  have hvalid := valid_toISOString_iff (t := l.createdAt r) (l.id r)
  rw [Listing.place, decodeCursor_encodeCursor, Listing.cursorOf, hl]
  by_cases hy : IsPlainYear (l.createdAt r)
  · rw [if_pos (hvalid.mpr hy), if_pos hy]
    exact key_toISOString (l.id r) hy
  · rw [if_neg (fun h => hy (hvalid.mp h)), if_neg hy]

/-- After `n` rows, the time without microseconds still separates them from the rest. -/
def Listing.DateSeparates (l : Listing R F) (table : Rows l) (filter : F) (n : ℕ) : Prop :=
  ∀ a, (l.all table filter)[n - 1]? = some a →
    IsPlainYear (l.createdAt a) ∧
      match l.direction with
      | .ascending => toDate (l.createdAt a) = l.createdAt a
      | .descending => ∀ b ∈ (l.all table filter).drop n, l.key b < l.dateKey a

/-- What comes after a row of the listing. -/
theorem lt_of_mem_drop {a b : R} (hn : 1 ≤ n) (ha : (l.all table filter)[n - 1]? = some a)
    (hb : b ∈ (l.all table filter).drop n) : l.direction.lt (l.key a) (l.key b) := by
  obtain ⟨hlt, rfl⟩ := List.getElem?_eq_some_iff.mp ha
  obtain ⟨i, hi, rfl⟩ := List.mem_drop_iff_getElem.mp hb
  exact List.pairwise_iff_getElem.mp (pairwise_all table filter) (n - 1) (n + i) hlt (by omega)
    (by omega)

/-- **What dropping the microseconds does.** -/
theorem keepsPlace_date_iff (hl : l.cursorTime = toISOString) (hn : 1 ≤ n) :
    l.KeepsPlace table filter n ↔ l.DateSeparates table filter n := by
  refine forall_congr' fun a => forall_congr' fun ha => ?_
  rw [place_date hl]
  by_cases hy : IsPlainYear (l.createdAt a)
  · have hlt := fun b => lt_of_mem_drop (b := b) hn ha
    rw [if_pos hy]
    simp only [Option.some.injEq, exists_eq_left', hy, true_and]
    cases hd : l.direction with
    | ascending =>
      rw [hd] at hlt
      constructor
      · intro h
        exact (key_le_dateKey_iff a).mp h.1
      · intro h
        exact ⟨(key_le_dateKey_iff a).mpr h, fun b hb => (dateKey_le a).trans_lt (hlt b hb)⟩
    | descending =>
      constructor
      · intro h
        exact h.2
      · intro h
        exact ⟨dateKey_le a, h⟩
  · simp [hy]

/-- When following cursors made from a `Date` visits every row. -/
theorem visits_iff_dateSeparates (hl : l.cursorTime = toISOString) {limit : ℕ}
    (hlimit : 1 ≤ limit) :
    l.Visits table filter limit ↔
      ∀ k, 1 ≤ k → k * limit < (l.all table filter).length →
        l.DateSeparates table filter (k * limit) := by
  rw [visits_iff_keepsPlace hlimit]
  refine forall_congr' fun k => forall_congr' fun hk => imp_congr_right fun _ => ?_
  exact keepsPlace_date_iff hl (Nat.mul_pos hk hlimit)

end Date

/-! ## Rows and filters -/

/-- A row with the columns that its listing reads. -/
structure Stored (C : Type) where
  id : RowId
  createdAt : Instant
  columns : C

/-- A listing whose cursor has the creation time as a `Date`. -/
def dateListing {C F : Type} (direction : Direction) (matchesFilter : F → Stored C → Bool) :
    Listing (Stored C) F where
  direction := direction
  matchesFilter := matchesFilter
  createdAt := Stored.createdAt
  id := Stored.id
  cursorTime := toISOString
  ignoresEmptyCursor := true

namespace ConnectionRepository

structure Columns where
  tenantId : Uuid
  state : ConnectionState
  protocol : ConnectionProtocol

/-- What a connection listing asks for. -/
structure Filters where
  tenantId : Uuid
  state : Option ConnectionState
  protocol : Option ConnectionProtocol

/-- `findPageForTenant` of `connection.repository.ts`. -/
def page : Listing (Stored Columns) Filters :=
  dateListing .ascending fun f r =>
    r.columns.tenantId = f.tenantId && f.state.all (fun s => r.columns.state = s) &&
      f.protocol.all (fun p => r.columns.protocol = p)

end ConnectionRepository

namespace TenantRepository

/-- Columns of `tenant`. -/
structure Columns where
  deletedAt : Option Instant

/-- `findPage` of `tenant.repository.ts`; the query builder leaves soft deleted rows out. -/
def page : Listing (Stored Columns) Unit :=
  dateListing .ascending fun _ r => r.columns.deletedAt.isNone

end TenantRepository

namespace TenantUserRepository

/-- Columns of `tenant_user`. -/
structure Columns where
  tenantId : Uuid
  email : Text
  displayName : Option Text

/-- The text functions of the runtime and of the database. -/
structure TextFunctions where
  trim : Text → Text
  toLowerCase : Text → Text
  lower : Text → Text

/-- What a listing of tenant users asks for. -/
structure Filters where
  text : TextFunctions
  tenantId : Uuid
  search : Option Text

/-- `replace(/[!%_]/g, '!$&')`. -/
def escaped (t : Text) : Text := t.flatMap fun c => if c ∈ ['!', '%', '_'] then ['!', c] else [c]

/-- `LIKE … ESCAPE '!'`. -/
def like : Text → Text → Bool
  | [], t => t.isEmpty
  | [c], t => if c = '%' then true else if c = '_' then t.length = 1 else c ≠ '!' && t = [c]
  | c :: c' :: p, t =>
    if c = '%' then t.tails.any (like (c' :: p))
    else if c = '!' then
      match t with
      | [] => false
      | d :: t => c' = d && like p t
    else
      match t with
      | [] => false
      | d :: t => (c = '_' || c = d) && like (c' :: p) t

def searched (text : TextFunctions) (search : Option Text) (c : Columns) : Bool :=
  let normalized := search.map fun s => text.toLowerCase (text.trim s)
  (normalized.filter (· ≠ [])).all fun s =>
    let pattern := '%' :: (escaped s ++ ['%'])
    like pattern (text.lower c.email) || c.displayName.any fun n => like pattern (text.lower n)

/-- `findPageForTenant` of `tenant-user.repository.ts`. -/
def page : Listing (Stored Columns) Filters :=
  dateListing .ascending fun f r =>
    r.columns.tenantId = f.tenantId && searched f.text f.search r.columns

end TenantUserRepository

/-- `IssuanceProfileStatus` and `VerificationProfileStatus`. -/
inductive ProfileStatus where
  | draft
  | published
  | deprecated
  deriving DecidableEq

namespace IssuanceProfileRepository

/-- Columns of `issuance_profile`. -/
structure Columns where
  tenantId : Uuid
  status : ProfileStatus
  credentialDefinitionId : Uuid
  name : String

/-- Columns of `credential_definition` that the query reads. -/
structure Definition where
  id : Uuid
  tenantId : Uuid
  format : CredentialDefinitionFormat

/-- What a listing of issuance profiles asks for, and the definitions it is asked about. -/
structure Filters where
  definitions : List Definition
  tenantId : Uuid
  status : Option ProfileStatus
  format : Option CredentialDefinitionFormat
  name : Option String

/-- `findPage` of `issuance-profile.repository.ts`. -/
def page : Listing (Stored Columns) Filters :=
  dateListing .ascending fun f r =>
    r.columns.tenantId = f.tenantId && f.status.all (fun s => r.columns.status = s) &&
      f.format.all (fun format => f.definitions.any fun d =>
        d.tenantId = f.tenantId && d.format = format && d.id = r.columns.credentialDefinitionId) &&
      f.name.all (fun n => r.columns.name = n)

end IssuanceProfileRepository

namespace VerificationProfileRepository

/-- Columns of `verification_profile`. -/
structure Columns where
  tenantId : Uuid
  status : ProfileStatus
  isPublic : Bool

/-- What a listing of verification profiles asks for. -/
structure Filters where
  tenantId : Uuid
  status : Option ProfileStatus
  isPublic : Option Bool

/-- `findPage` of `verification-profile.repository.ts`. -/
def page : Listing (Stored Columns) Filters :=
  dateListing .ascending fun f r =>
    r.columns.tenantId = f.tenantId && f.status.all (fun s => r.columns.status = s) &&
      f.isPublic.all (fun p => r.columns.isPublic = p)

end VerificationProfileRepository

namespace AuditLogRepository

inductive AuditAction where
  | read
  | issue
  | verify
  | hold
  | revoke
  | create
  | update
  | delete
  | login
  | tokenGrant
  deriving DecidableEq

/-- Columns of `audit_log`. -/
structure Columns where
  tenantId : Uuid
  action : AuditAction
  actorId : String
  resourceType : String
  resourceId : String
  operationId : Option String

/-- `AuditLogFilters` of a tenant. -/
structure Filters where
  tenantId : Uuid
  action : Option AuditAction
  actorId : Option String
  resourceType : Option String
  resourceId : Option String
  operationId : Option String
  since : Option Instant
  until' : Option Instant

/-- A filter that is neither absent nor the empty text. -/
def given (filter : Option String) : Option String := filter.filter (· ≠ "")

/-- `findPageForTenant` of `audit-log.repository.ts`; `since` and `until` are `Date`s. -/
def page : Listing (Stored Columns) Filters :=
  dateListing .descending fun f r =>
    r.columns.tenantId = f.tenantId && f.action.all (fun a => r.columns.action = a) &&
      (given f.actorId).all (fun a => r.columns.actorId = a) &&
      (given f.resourceType).all (fun t => r.columns.resourceType = t) &&
      (given f.resourceId).all (fun i => r.columns.resourceId = i) &&
      (given f.operationId).all (fun o => r.columns.operationId = some o) &&
      f.since.all (fun t => toDate t ≤ r.createdAt) &&
        f.until'.all (fun t => r.createdAt ≤ toDate t)

end AuditLogRepository

namespace OperationRepository

structure Columns where
  tenantId : Uuid
  state : OperationState
  type : OperationType
  batchId : Option Uuid

/-- `FindByTenantFilters`; a batch id may be asked to be null. -/
structure Filters where
  tenantId : Uuid
  state : Option OperationState
  type : Option OperationType
  batchId : Option (Option Uuid)

/-- `findPageForTenant` of `operation.repository.ts`: the cursor is written by `to_char`. -/
def page : Listing (Stored Columns) Filters where
  direction := .descending
  matchesFilter f r :=
    r.columns.tenantId = f.tenantId && f.state.all (fun s => r.columns.state = s) &&
      f.type.all (fun t => r.columns.type = t) && f.batchId.all (fun b => r.columns.batchId = b)
  createdAt := Stored.createdAt
  id := Stored.id
  cursorTime := toChar
  ignoresEmptyCursor := false

end OperationRepository

/-! ## Listings by `Date` -/

/-- The listings whose cursor is made from a `Date`. -/
inductive Listed where
  | connections
  | tenants
  | tenantUsers
  | issuanceProfiles
  | verificationProfiles
  | auditLogs

def Listed.Row : Listed → Type
  | .connections => Stored ConnectionRepository.Columns
  | .tenants => Stored TenantRepository.Columns
  | .tenantUsers => Stored TenantUserRepository.Columns
  | .issuanceProfiles => Stored IssuanceProfileRepository.Columns
  | .verificationProfiles => Stored VerificationProfileRepository.Columns
  | .auditLogs => Stored AuditLogRepository.Columns

def Listed.Filters : Listed → Type
  | .connections => ConnectionRepository.Filters
  | .tenants => Unit
  | .tenantUsers => TenantUserRepository.Filters
  | .issuanceProfiles => IssuanceProfileRepository.Filters
  | .verificationProfiles => VerificationProfileRepository.Filters
  | .auditLogs => AuditLogRepository.Filters

def Listed.page : (l : Listed) → Listing l.Row l.Filters
  | .connections => ConnectionRepository.page
  | .tenants => TenantRepository.page
  | .tenantUsers => TenantUserRepository.page
  | .issuanceProfiles => IssuanceProfileRepository.page
  | .verificationProfiles => VerificationProfileRepository.page
  | .auditLogs => AuditLogRepository.page

theorem Listed.cursorTime_page (l : Listed) : l.page.cursorTime = toISOString := by
  cases l <;> rfl

/-- **Following `next_cursor` visits every matching row exactly once, in order, exactly if the
time without its microseconds separates the rows at every page boundary.** -/
theorem listed_visits_iff (l : Listed) (table : Rows l.page) (filter : l.Filters) (limit : ℕ)
    (hlimit : 1 ≤ limit) :
    l.page.Visits table filter limit ↔
      ∀ k, 1 ≤ k → k * limit < (l.page.all table filter).length →
        l.page.DateSeparates table filter (k * limit) :=
  visits_iff_dateSeparates l.cursorTime_page hlimit

def sampleId (n : Fin 2) : RowId where
  value := 4 * 16 ^ 19 + 8 * 16 ^ 15 + n
  lt := by revert n; decide +kernel
  version := by revert n; decide +kernel
  variant := by revert n; decide +kernel

/-- Two connections of tenant 7, created the given time apart, the first one that time after
1970-01-01. -/
def twoConnections (t : ℤ) (ht : 0 < t) : Rows Listed.connections.page where
  rows := [⟨sampleId 0, t, 7, .active, .didcommV1⟩, ⟨sampleId 1, 2 * t, 7, .active, .didcommV1⟩]
  nodup := by
    refine List.nodup_cons.mpr ⟨?_, List.nodup_singleton _⟩
    intro h
    have htime : (t : ℤ) = 2 * t := congrArg (fun k => (ofLex k).1) (List.mem_singleton.mp h)
    omega

def ofTenant : Listed.connections.Filters := ⟨7, none, none⟩

/-- Connections created a millisecond apart are visited. -/
theorem listed_visits_milliseconds :
    1 ≤ 1 ∧ Listed.connections.page.Visits (twoConnections 1000 (by decide)) ofTenant 1 := by
  refine ⟨le_rfl, (listed_visits_iff .connections _ ofTenant 1 le_rfl).mpr ?_⟩
  intro k _ _ a ha
  have hmem : a ∈ (twoConnections 1000 (by decide)).rows := by
    have := List.mem_of_getElem? ha
    exact List.mem_of_mem_filter ((perm_orderBy _).mem_iff.mp this)
  rcases List.mem_cons.mp hmem with rfl | hmem
  · exact ⟨by decide +kernel, show toDate 1000 = 1000 by decide +kernel⟩
  · obtain rfl := List.mem_singleton.mp hmem
    exact ⟨by decide +kernel, show toDate 2000 = 2000 by decide +kernel⟩

/-- Connections created a microsecond apart: the cursor after the first one selects it again. -/
theorem microseconds_lost :
    ¬Listed.connections.page.Visits (twoConnections 1 (by decide)) ofTenant 1 := by
  rw [visits_iff_dateSeparates (Listed.cursorTime_page _) le_rfl]
  intro h
  have hfirst : toDate 1 = 1 :=
    (h 1 le_rfl (by decide +kernel) ⟨sampleId 0, 1, 7, .active, .didcommV1⟩ rfl).2
  exact absurd hfirst (by decide +kernel)

/-! ## Operations -/

/-- The place of an operation is its own key. -/
theorem place_operation {r : Stored OperationRepository.Columns} (hy : IsPlainYear r.createdAt) :
    OperationRepository.page.place r = some (OperationRepository.page.key r) := by
  rw [Listing.place, decodeCursor_encodeCursor]
  have hvalid : (OperationRepository.page.cursorOf r).valid = true := valid_toChar r.id hy
  rw [if_pos hvalid]
  exact key_toChar r.id hy

/-- Two operations of tenant 7 created at the same time. -/
def twoOperations (t : Instant) : Rows OperationRepository.page where
  rows := [⟨sampleId 0, t, 7, .pending, .credentialOffer, none⟩,
    ⟨sampleId 1, t, 7, .pending, .credentialOffer, none⟩]
  nodup := by
    refine List.nodup_cons.mpr ⟨?_, List.nodup_singleton _⟩
    intro h
    have hid : (sampleId 0).value = (sampleId 1).value :=
      congrArg (fun k => (ofLex k).2) (List.mem_singleton.mp h)
    exact absurd hid (by decide +kernel)

def operationsOfTenant : OperationRepository.Filters := ⟨7, none, none, none⟩

def year10000 : Instant := 253402300800000000

end DigitalTrust
