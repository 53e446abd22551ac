/-
# Overlapping changes of a tenant's users

`update` runs in a transaction that holds the lock of the tenant's row and saves the user that it
has read; `setPlatformOperator` reads the user and saves it without the lock; `claimInvitedById` is
one statement.  A `save` writes the columns in which its entity differs from the row, so it undoes
whatever has changed since the entity was read.
-/
import DigitalTrust.Journal
import DigitalTrust.OperationService
import DigitalTrust.TenantUsers

namespace DigitalTrust.UserChanges

open Interleaving Relational
open TenantUserService (UpdateTenantUserDto assertMayManageOwner findCurrentCaller
  assertAnotherAdministratorRemains isAdministrator)

/-! ## Columns -/

inductive Column where
  | tenantId
  | externalUserId
  | email
  | displayName
  | role
  | status
  | isPlatformOperator
  | createdAt
  deriving DecidableEq

def Column.all : List Column :=
  [.tenantId, .externalUserId, .email, .displayName, .role, .status, .isPlatformOperator,
    .createdAt]

theorem Column.mem_all (c : Column) : c ∈ Column.all := by cases c <;> decide

/-- Two rows have the same value in a column. -/
def agree (u v : TenantUser) : Column → Bool
  | .tenantId => u.tenantId = v.tenantId
  | .externalUserId => u.externalUserId = v.externalUserId
  | .email => u.email = v.email
  | .displayName => u.displayName = v.displayName
  | .role => u.role = v.role
  | .status => u.status = v.status
  | .isPlatformOperator => u.isPlatformOperator = v.isPlatformOperator
  | .createdAt => u.createdAt = v.createdAt

/-- The columns that a `save` writes. -/
def saved (entity read current : TenantUser) : TenantUser where
  tenantId := saveColumn entity.tenantId read.tenantId current.tenantId
  externalUserId := saveColumn entity.externalUserId read.externalUserId current.externalUserId
  email := saveColumn entity.email read.email current.email
  displayName := saveColumn entity.displayName read.displayName current.displayName
  role := saveColumn entity.role read.role current.role
  status := saveColumn entity.status read.status current.status
  isPlatformOperator := saveColumn entity.isPlatformOperator read.isPlatformOperator
    current.isPlatformOperator
  createdAt := saveColumn entity.createdAt read.createdAt current.createdAt

inductive Call where
  | update (dto : UpdateTenantUserDto)
  | setPlatformOperator (isPlatformOperator : Bool)
  | claimInvitedById (externalUserId : String)
  deriving DecidableEq

def Call.asked : Call → List Column
  | .update dto =>
    (if dto.email.isSome then [.email] else []) ++
      (if dto.displayName.isSome then [.displayName] else []) ++
      (if dto.role.isSome then [.role] else []) ++ (if dto.status.isSome then [.status] else [])
  | .setPlatformOperator _ => [.isPlatformOperator]
  | .claimInvitedById _ => [.externalUserId, .status]

/-- The entity that a call makes of the row that it has read. -/
def Call.entity : Call → TenantUser → TenantUser
  | .update dto, u => dto.apply u
  | .setPlatformOperator isPlatformOperator, u => { u with isPlatformOperator }
  | .claimInvitedById externalUserId, u =>
    { u with externalUserId := some externalUserId, status := .active }

/-! ## Programs -/

/-- The statements: the one by which a `save` reads the row once more, for a call that has read
`seen`, and the others. -/
inductive Label where
  | reload (id : Uuid) (call : Call) (seen : TenantUser)
  | step

/-- Which transaction holds the lock of a tenant's row. -/
abbrev Locks := Uuid → Option ℕ

/-- The locks when transaction `i` has ended. -/
def release (i : ℕ) (locks : Locks) : Locks := fun tenantId =>
  if locks tenantId = some i then none else locks tenantId

/-- The users with the journal of their changes, and the locks. -/
abbrev State := Journal Uuid TenantUser Call Locks

abbrev Program := Proc State Label (Except Failure Unit)

def rollback (i : ℕ) (e : Failure) : Program :=
  .act .step false (fun s => some { s with rest := release i s.rest }) fun _ => .ret (.error e)

/-- A statement that reads, and what follows if it fails. -/
def query (failed : Program) (k : State → Program) : Program := .attempt .step id failed k

def emit : Program := query (.ret (.error queryFailed)) fun _ => .ret (.ok ())

/-- `update` of the repository. -/
def save (call : Call) (id : Uuid) (seen : TenantUser) (done : Locks → Locks) (failed : Program) :
    Program :=
  Journal.save ⟨saved, fun t id u => !Users.refuses t id u⟩ call (.reload id call seen) .step id
    (call.entity seen) done failed emit

/-- `findByIdForUpdate` on the tenant: it waits while another transaction has the lock.  A
tenant that is not there cannot be locked. -/
def lockTenant (live : Uuid → Bool) (i : ℕ) (tenantId : Uuid) (k : Program) : Program :=
  .act .step true
    (fun s =>
      if live tenantId then
        if s.rest tenantId = none ∨ s.rest tenantId = some i then
          some { s with rest := Function.update s.rest tenantId (some i) }
        else none
      else some s)
    fun r => match r with
      | some _ => k
      | none => rollback i queryFailed

/-- A check inside the transaction; one that needs no query counts as a statement all the
same. -/
def check {β : Type} (i : ℕ) (test : Users → Except Failure β) (k : β → Program) : Program :=
  query (rollback i queryFailed) fun s => match test s.table with
    | .ok b => k b
    | .error e => rollback i e

def update (live : Uuid → Bool) (i : ℕ) (tenantId id : Uuid) (dto : UpdateTenantUserDto)
    (callerTenantUser : Option (Uuid × TenantUser)) : Program :=
  lockTenant live i tenantId <|
  check i (fun t => need (t.findByTenantAndId tenantId id)
    (.notFound s!"Tenant user '{id}' was not found.")) fun tenantUser =>
  check i (fun t => do
    let caller ← findCurrentCaller t tenantId id tenantUser callerTenantUser
    assertMayManageOwner caller (dto.role = some .owner || tenantUser.role = .owner)) fun _ =>
  check i (fun t => ensure (dto.role ≠ none ∧ dto.role ≠ some tenantUser.role ∧
      tenantUser.role = .owner → 1 < t.countByTenantAndRole tenantId .owner)
    (.conflict "Cannot change the role of the tenant's last owner.")) fun _ =>
  check i (fun t => ensure (tenantUser.status = .active ∧ tenantUser.role = .owner ∧
      ((dto.role ≠ none ∧ dto.role ≠ some .owner) ∨
        (dto.status ≠ none ∧ dto.status ≠ some .active)) →
      1 < t.countActiveOwnersByTenant tenantId)
    (.conflict "Cannot change access for the tenant's last active owner.")) fun _ =>
  check i (fun t => assertAnotherAdministratorRemains t tenantId
    (tenantUser.status = .active ∧ isAdministrator tenantUser.role = true ∧
      ((dto.role.any fun role => !isAdministrator role) ∨
        (dto.status ≠ none ∧ dto.status ≠ some .active)))) fun _ =>
  save (.update dto) id tenantUser (release i) (rollback i queryFailed)

def setPlatformOperator (id : Uuid) (isPlatformOperator : Bool) : Program :=
  query (.ret (.error queryFailed)) fun s =>
    .demand (need (s.table.row id) (.notFound s!"Tenant user '{id}' was not found."))
      fun tenantUser => save (.setPlatformOperator isPlatformOperator) id tenantUser (fun l => l)
        (.ret (.error queryFailed))

/-- The rows that `claimInvitedById` writes. -/
def claimable (t : Users) (id : Uuid) (externalUserId : String) (u : TenantUser) : Bool :=
  u.externalUserId = none && u.status = .invited &&
    !t.refuses id ((Call.claimInvitedById externalUserId).entity u)

def claimInvitedById (id : Uuid) (externalUserId : String) : Program :=
  .attempt .step
    (fun s => s.updateRow (.claimInvitedById externalUserId) id
      (claimable s.table id externalUserId) (Call.claimInvitedById externalUserId).entity)
    (.ret (.error queryFailed))
    fun s =>
      if (s.table.row id).any (claimable s.table id externalUserId) then
        query (.ret (.error queryFailed)) fun _ => emit
      else .ret (.ok ())

inductive Request where
  | update (tenantId id : Uuid) (dto : UpdateTenantUserDto)
      (callerTenantUser : Option (Uuid × TenantUser))
  | setPlatformOperator (id : Uuid) (isPlatformOperator : Bool)
  | claimInvitedById (id : Uuid) (externalUserId : String)

/-- What a request runs as process `i`. -/
def Request.program (live : Uuid → Bool) (i : ℕ) : Request → Program
  | .update tenantId id dto callerTenantUser =>
    UserChanges.update live i tenantId id dto callerTenantUser
  | .setPlatformOperator id isPlatformOperator =>
    UserChanges.setPlatformOperator id isPlatformOperator
  | .claimInvitedById id externalUserId => UserChanges.claimInvitedById id externalUserId

/-- The service; a crash ends the transaction of the process. -/
def service (live : Uuid → Bool) : System State Label Request where
  prog r i := (r.program live i).discard
  crash := some fun i s => { s with rest := release i s.rest }

/-! ## Changes that were asked for -/

/-- The change leaves the columns alone that its call was not asked to change. -/
def AsAsked (c : Change Uuid TenantUser Call) : Prop :=
  ∀ column, column ∉ c.call.asked → agree c.before c.after column = true

/-- The row that a `save` reads is still what the call has read, in the columns that it was not
asked to change. -/
def unchanged : Label → State → Bool
  | .reload id call seen, s =>
    (s.table.row id).any fun u =>
      Column.all.all fun column => call.asked.contains column || agree seen u column
  | .step, _ => true

/-- A call's entity differs from the row read in the columns asked for only. -/
theorem agree_entity {call : Call} {column : Column} (h : column ∉ call.asked) (u : TenantUser) :
    agree u (call.entity u) column = true := by
  cases call with
  | setPlatformOperator b => cases column <;> simp_all [agree, Call.entity, Call.asked]
  | claimInvitedById x => cases column <;> simp_all [agree, Call.entity, Call.asked]
  | update dto =>
    obtain ⟨email, displayName, role, status⟩ := dto
    cases column with
    | email => cases email <;> simp_all [agree, Call.entity, Call.asked,
        UpdateTenantUserDto.apply]
    | displayName =>
      cases displayName <;> simp_all [agree, Call.entity, Call.asked, UpdateTenantUserDto.apply]
    | role => cases role <;> simp_all [agree, Call.entity, Call.asked, UpdateTenantUserDto.apply]
    | status =>
      cases status <;> simp_all [agree, Call.entity, Call.asked, UpdateTenantUserDto.apply]
    | _ => simp [agree, Call.entity, UpdateTenantUserDto.apply]

theorem agree_trans {u v w : TenantUser} {column : Column} (h : agree u v column = true)
    (h' : agree u w column = true) : agree v w column = true := by
  cases column <;> simp_all [agree]

/-- A column in which the entity is the row that was read is not written. -/
theorem agree_saved {entity read : TenantUser} {column : Column}
    (h : agree entity read column = true) (current : TenantUser) :
    agree current (saved entity read current) column = true := by
  cases column <;> simp_all [agree, saved, saveColumn]

/-- A `save` that reads what its call has read changes what it was asked to change. -/
theorem asAsked_saved {call : Call} {id : Uuid} {seen read : TenantUser}
    (hread : ∀ column, column ∉ call.asked → agree seen read column = true)
    (current : TenantUser) : AsAsked ⟨call, id, current, saved (call.entity seen) read current⟩ :=
  fun column hasked =>
    agree_saved (agree_trans (agree_entity hasked seen) (hread column hasked)) current

/-! ## Every call keeps to them -/

section Calls

variable {t₀ : Users}

abbrev Lawful (t₀ : Users) (s : State) : Prop := s.Recorded t₀ AsAsked

abbrev Undisturbed (l : Label) (s : State) : Prop := unchanged l s = true

theorem rollback_lawful (i : ℕ) (e : Failure) :
    (rollback i e).Maintains Undisturbed (Lawful t₀) := by
  refine ⟨fun s s' hs _ hf => ?_, nofun⟩
  obtain rfl := Option.some.inj hf
  exact ⟨hs.rest _, trivial⟩

theorem query_lawful {failed : Program} {k : State → Program}
    (hfailed : failed.Maintains Undisturbed (Lawful t₀))
    (h : ∀ s, (k s).Maintains Undisturbed (Lawful t₀)) :
    (query failed k).Maintains Undisturbed (Lawful t₀) :=
  .attempt hfailed fun s hs _ => ⟨hs, h s⟩

theorem emit_lawful : emit.Maintains Undisturbed (Lawful t₀) :=
  query_lawful trivial fun _ => trivial

theorem check_lawful {β : Type} {i : ℕ} {test : Users → Except Failure β} {k : β → Program}
    (h : ∀ b, (k b).Maintains Undisturbed (Lawful t₀)) :
    (check i test k).Maintains Undisturbed (Lawful t₀) := by
  refine query_lawful (rollback_lawful i _) fun s => ?_
  cases test s.table with
  | ok b => exact h b
  | error e => exact rollback_lawful i e

theorem lockTenant_lawful {live : Uuid → Bool} {i : ℕ} {tenantId : Uuid} {k : Program}
    (h : k.Maintains Undisturbed (Lawful t₀)) :
    (lockTenant live i tenantId k).Maintains Undisturbed (Lawful t₀) := by
  refine ⟨fun s s' hs _ hf => ⟨?_, h⟩, fun _ => rollback_lawful i _⟩
  simp only at hf
  split_ifs at hf
  · obtain rfl := Option.some.inj hf
    exact hs.rest _
  · exact Option.some.inj hf ▸ hs

theorem save_lawful {call : Call} {id : Uuid} {seen : TenantUser} {done : Locks → Locks}
    {failed : Program} (hfailed : failed.Maintains Undisturbed (Lawful t₀)) :
    (save call id seen done failed).Maintains Undisturbed (Lawful t₀) := by
  refine Journal.maintains_save hfailed emit_lawful fun s read s' a hreload hread _ _ _ => ?_
  refine asAsked_saved (fun column hasked => ?_) a
  simp only [Undisturbed, unchanged, hread, Option.any_some, List.all_eq_true] at hreload
  simpa [hasked] using hreload column column.mem_all

theorem program_lawful (live : Uuid → Bool) (i : ℕ) (r : Request) :
    (r.program live i).Maintains Undisturbed (Lawful t₀) := by
  cases r with
  | update tenantId id dto callerTenantUser =>
    exact lockTenant_lawful <| check_lawful fun _ => check_lawful fun _ => check_lawful fun _ =>
      check_lawful fun _ => check_lawful fun _ => save_lawful (rollback_lawful i _)
  | setPlatformOperator id isPlatformOperator =>
    exact query_lawful trivial fun _ => .demand fun _ _ => save_lawful trivial
  | claimInvitedById id externalUserId =>
    refine .attempt trivial fun s hs _ => ⟨hs.updateRow fun u _ _ => ?_, ?_⟩
    · exact fun column hasked => agree_entity hasked u
    · split_ifs
      · exact query_lawful trivial fun _ => emit_lawful
      · exact trivial

end Calls

/-- **No change but the one asked for.**  If every `save` reads the row as its call has read it, in
the columns that it was not asked to change, the journal accounts for every row and every change
leaves those columns alone. -/
theorem changes_as_asked (live : Uuid → Bool) (t₀ : Users) (locks : Locks) (c : Config State Label)
    (hc : Reach (service live) (fun l s => unchanged l s = true) ⟨t₀, [], locks⟩ c) :
    c.state.Recorded t₀ AsAsked :=
  Reach.invariant (fun r i => (program_lawful live i r).discard)
    (fun g hg i s hs => by cases hg; exact hs.rest _) (.start t₀ AsAsked locks) hc

/-! ## Runs -/

def sampleUsers : Users :=
  ⟨[(1, ⟨7, some "a", "a@x", none, .admin, .active, false, 0⟩),
    (2, ⟨7, some "b", "b@x", none, .owner, .active, false, 0⟩)], by decide⟩

def demotion : Request := .update 7 1 ⟨none, none, some .member, none⟩ none

def promotion : Request := .setPlatformOperator 1 true

/-- The demotion is done before the other call reads the row. -/
def demoteThenPromote : List (Move Request) :=
  [.spawn demotion, .spawn promotion, .run 0, .run 0, .run 0, .run 0, .run 0, .run 0, .run 0,
    .run 0, .run 1, .run 1, .run 1]

/-- Both changes are made, and nothing else. -/
theorem changes_as_asked_sequential :
    ∃ c, (service fun _ => true).execIf unchanged ⟨⟨sampleUsers, [], fun _ => none⟩, []⟩
        demoteThenPromote = some c ∧
      c.state.table.row 1 = some ⟨7, some "a", "a@x", none, .member, .active, true, 0⟩ ∧
      c.state.changes.length = 2 ∧ c.state.Recorded sampleUsers AsAsked := by
  have hresult : ((service fun _ => true).execIf unchanged
      ⟨⟨sampleUsers, [], fun _ => none⟩, []⟩ demoteThenPromote).map
        (fun c => (c.state.table.row 1, c.state.changes.length)) =
        some (some ⟨7, some "a", "a@x", none, .member, .active, true, 0⟩, 2) := by
    decide +kernel
  obtain ⟨c, hexec, hc⟩ := Option.map_eq_some_iff.mp hresult
  have htheorem := changes_as_asked (fun _ => true) sampleUsers (fun _ => none) c
    (reach_execIf hexec)
  exact ⟨c, hexec, congrArg Prod.fst hc, congrArg Prod.snd hc, htheorem⟩

/-- The operator flag is set from a row that was read before the demotion. -/
def overtakenPromotion : List (Move Request) :=
  [.spawn promotion, .spawn demotion, .run 0, .run 1, .run 1, .run 1, .run 1, .run 1, .run 1,
    .run 1, .run 1, .run 0, .run 0]

/-- `setPlatformOperator` gives the role back that the demotion has taken away. -/
theorem role_restored :
    ∃ c, Reach (service fun _ => true) Always ⟨sampleUsers, [], fun _ => none⟩ c ∧
      ∃ ch ∈ c.state.changes, ch.call = .setPlatformOperator true ∧ ch.before.role = .member ∧
        ch.after.role = .admin ∧ ¬AsAsked ch := by
  have hresult : ((service fun _ => true).exec ⟨⟨sampleUsers, [], fun _ => none⟩, []⟩
      overtakenPromotion).map (fun c => c.state.changes.head?) =
        some (some ⟨.setPlatformOperator true, 1,
          ⟨7, some "a", "a@x", none, .member, .active, false, 0⟩,
          ⟨7, some "a", "a@x", none, .admin, .active, true, 0⟩⟩) := by
    decide +kernel
  obtain ⟨c, hexec, hc⟩ := Option.map_eq_some_iff.mp hresult
  refine ⟨c, reach_exec hexec, _, List.mem_of_mem_head? hc, rfl, rfl,
    rfl, fun h => ?_⟩
  exact absurd (h .role (by decide)) (by decide)

end DigitalTrust.UserChanges
