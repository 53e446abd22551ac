/-
# Overlapping changes of an OAuth client

`update`, `rotateSecret`, `reactivateClient` and `revokeClient` of `oauth-client.service.ts`
and `revokeAllForTenant` of the repository, when the calls overlap.  The first three read the
client and save it with other columns; a `save` reads the row once more and writes, in a later
statement, the columns in which the entity differs.  The two revocations are plain `UPDATE`s.
-/
import DigitalTrust.Journal
import DigitalTrust.OAuthClients
import DigitalTrust.OperationService

namespace DigitalTrust.ClientChanges

open Interleaving Relational
open OAuthClientService

/-! ## Programs -/

/-- The calls that change a client; `rotateSecret i` is the one that process `i` makes. -/
inductive Call where
  | update
  | rotateSecret (i : ℕ)
  | reactivateClient
  | revokeClient
  | revokeAllForTenant
  deriving DecidableEq

/-- The statements: the one by which a `save` reads the row once more, for a call that has read
`seen`, the `UPDATE` of the `save` of `update`, and the others. -/
inductive Label where
  | reload (id : Uuid) (seen : OAuthClient)
  | store (id : Uuid) (seen : OAuthClient)
  | step

/-- The clients with the journal of their changes. -/
abbrev State := Journal Uuid OAuthClient Call Unit

abbrev Program := Proc State Label (Except Failure Unit)

def fail (e : Failure) : Program := .ret (.error e)

def query (k : State → Program) : Program := .attempt .step id (fail queryFailed) k

/-- The columns that a `save` writes. -/
def saved (entity read current : OAuthClient) : OAuthClient where
  tenantId := saveColumn entity.tenantId read.tenantId current.tenantId
  clientId := saveColumn entity.clientId read.clientId current.clientId
  clientSecretHash := saveColumn entity.clientSecretHash read.clientSecretHash
    current.clientSecretHash
  isPublic := saveColumn entity.isPublic read.isPublic current.isPublic
  name := saveColumn entity.name read.name current.name
  scopes := saveColumn entity.scopes read.scopes current.scopes
  roles := saveColumn entity.roles read.roles current.roles
  redirectUris := saveColumn entity.redirectUris read.redirectUris current.redirectUris
  grantTypes := saveColumn entity.grantTypes read.grantTypes current.grantTypes
  refreshTokenTtlSeconds := saveColumn entity.refreshTokenTtlSeconds read.refreshTokenTtlSeconds
    current.refreshTokenTtlSeconds
  createdBy := saveColumn entity.createdBy read.createdBy current.createdBy
  revokedAt := saveColumn entity.revokedAt read.revokedAt current.revokedAt
  revokedReason := saveColumn entity.revokedReason read.revokedReason current.revokedReason

/-- The unique index on `client_id`. -/
def unique (t : Table Uuid OAuthClient) (id : Uuid) (client : OAuthClient) : Bool :=
  (t.first fun id' client' => id' ≠ id && client'.clientId = client.clientId).isNone

/-- `update` of the repository, for a call that has read `seen`. -/
def save (call : Call) (store : Label) (id : Uuid) (seen entity : OAuthClient) : Program :=
  Journal.save ⟨saved, unique⟩ call (.reload id seen) store id entity (fun x => x)
    (fail queryFailed) (.ret (.ok ()))

def readClient (tenantId : Uuid) (clientId : String) (active : Bool)
    (k : Uuid × OAuthClient → Program) : Program :=
  query fun s => .demand (do
    let client ← requireTenantClient ⟨s.table, 0⟩ tenantId clientId active
    assertNotReserved client.2
    pure client) k

def update (config : OidcConfig) (tenantId : Uuid) (clientId : String) (dto : UpdateOAuthClientDto)
    (caller : AuthContext) : Program :=
  .demand (assertSupportedGrantTypes config dto.grantTypes) fun _ =>
  readClient tenantId clientId true fun client =>
  .demand (do
    assertRoleConstraints (dto.apply client.2).roles (dto.apply client.2).grantTypes caller
      dto.roles.isSome client.2.roles
    assertUpdatedScopes config caller dto.scopes) fun _ =>
  save .update (.store client.1 client.2) client.1 client.2 (dto.apply client.2)

/-- `rotateSecret`; `secret` is what `randomBytes` yields. -/
def rotateSecret [Argon2] (secret : Secret) (i : ℕ) (tenantId : Uuid) (clientId : String) :
    Program :=
  readClient tenantId clientId true fun client =>
  .demand (ensure (client.2.isPublic = false)
    (.badRequest "Public clients do not have a client secret.")) fun _ =>
  save (.rotateSecret i) .step client.1 client.2
    { client.2 with clientSecretHash := some (hashClientSecret secret) }

def reactivateClient (tenantId : Uuid) (clientId : String) : Program :=
  readClient tenantId clientId false fun client =>
  save .reactivateClient .step client.1 client.2
    { client.2 with revokedAt := none, revokedReason := none }

def revokeClient (tenantId : Uuid) (clientId : String) (now : ℕ) : Program :=
  readClient tenantId clientId false fun client =>
  if client.2.revokedAt.isSome then .ret (.ok ())
  else .attempt .step
    (fun s => s.updateRow .revokeClient client.1 (fun _ => true)
      fun c => { c with revokedAt := some now, revokedReason := none })
    (fail queryFailed) fun _ => .ret (.ok ())

/-- The rows that `revokeAllForTenant` writes. -/
def unrevokedOf (tenantId : Uuid) (c : OAuthClient) : Bool :=
  c.tenantId = tenantId && c.revokedAt.isNone

/-- `revokeAllForTenant`: the rows are chosen when the `UPDATE` begins, and those that still
satisfy its condition are written. -/
def revokeAllForTenant (tenantId : Uuid) (now : ℕ) : Program :=
  query fun s =>
    let chosen := s.table.keys (unrevokedOf tenantId)
    .attempt .step
      (fun s => s.update .revokeAllForTenant
        (fun id c => decide (id ∈ chosen) && unrevokedOf tenantId c)
        fun c => { c with revokedAt := some now, revokedReason := some .tenantDeactivation })
      (fail queryFailed) fun _ => .ret (.ok ())

inductive Request where
  | update (tenantId : Uuid) (clientId : String) (dto : UpdateOAuthClientDto) (caller : AuthContext)
  | rotateSecret (tenantId : Uuid) (clientId : String)
  | reactivateClient (tenantId : Uuid) (clientId : String)
  | revokeClient (tenantId : Uuid) (clientId : String) (now : ℕ)
  | revokeAllForTenant (tenantId : Uuid) (now : ℕ)

/-- What a request runs as process `i`, which draws the secret `secret i` if it draws one. -/
def Request.program [Argon2] (config : OidcConfig) (secret : ℕ → Secret) (i : ℕ) :
    Request → Program
  | .update tenantId clientId dto caller => ClientChanges.update config tenantId clientId dto caller
  | .rotateSecret tenantId clientId => ClientChanges.rotateSecret (secret i) i tenantId clientId
  | .reactivateClient tenantId clientId => ClientChanges.reactivateClient tenantId clientId
  | .revokeClient tenantId clientId now => ClientChanges.revokeClient tenantId clientId now
  | .revokeAllForTenant tenantId now => ClientChanges.revokeAllForTenant tenantId now

/-- The service.  Every statement commits on its own, so a crash changes nothing. -/
def service [Argon2] (config : OidcConfig) (secret : ℕ → Secret) :
    System State Label Request where
  prog r i := (r.program config secret i).discard
  crash := some fun _ s => s

/-! ## Safe changes -/

/-- Roles go with the machine grant alone. -/
def Paired (c : OAuthClient) : Prop := c.roles = [] ∨ c.grantTypes.dedup = [machineGrantType]

/-- The process whose secret a call writes, if it writes one. -/
def Call.rotation : Call → Option ℕ
  | .rotateSecret i => some i
  | _ => none

/-- The processes whose secrets were written. -/
def rotations (cs : List (Change Uuid OAuthClient Call)) : List ℕ :=
  cs.filterMap fun c => c.call.rotation

/-- What every change has to respect: the pairing, a revocation if the call is not about
revocations, and the secret if the call is no rotation. -/
structure Safe [Argon2] (secret : ℕ → Secret) (c : Change Uuid OAuthClient Call) : Prop where
  paired : Paired c.after
  revoked : (c.call = .update ∨ ∃ i, c.call = .rotateSecret i) → c.before.revokedAt ≠ none →
    c.after.revokedAt ≠ none
  hash : c.after.clientSecretHash = match c.call.rotation with
    | some i => some (hashClientSecret (secret i))
    | none => c.before.clientSecretHash

/-- A `save` reads the client as its call has read it, and the `UPDATE` of `update` meets the
same roles and grant types. -/
def asRead : Label → State → Bool
  | .reload id seen, s => (s.table.row id).any fun c =>
    c.revokedAt = seen.revokedAt && c.clientSecretHash = seen.clientSecretHash &&
      c.roles = seen.roles && c.grantTypes = seen.grantTypes
  | .store id seen, s => (s.table.row id).any fun c =>
    c.roles = seen.roles && c.grantTypes = seen.grantTypes
  | .step, _ => true

/-- The columns that the condition on a `save` is about. -/
structure SameAccess (c d : OAuthClient) : Prop where
  revokedAt : c.revokedAt = d.revokedAt
  hash : c.clientSecretHash = d.clientSecretHash
  roles : c.roles = d.roles
  grantTypes : c.grantTypes = d.grantTypes

variable {id : Uuid} {seen c : OAuthClient} {s : State} {α : Type} {i : ℕ}

theorem asRead_reload {read : OAuthClient} (h : asRead (.reload id seen) s = true)
    (hread : s.table.row id = some read) : SameAccess read seen := by
  simp only [asRead, hread, Option.any_some, Bool.and_eq_true, decide_eq_true_eq] at h
  exact ⟨h.1.1.1, h.1.1.2, h.1.2, h.2⟩

theorem asRead_store (h : asRead (.store id seen) s = true) (hc : s.table.row id = some c) :
    c.roles = seen.roles ∧ c.grantTypes = seen.grantTypes := by
  simpa only [asRead, hc, Option.any_some, Bool.and_eq_true, decide_eq_true_eq] using h

/-- A column that has not changed since it was read is replaced by the entity's. -/
theorem saveColumn_of_eq [DecidableEq α] {entity read current : α} (h : current = read) :
    saveColumn entity read current = entity := by
  subst h
  exact saveColumn_self entity current

/-- A column in which the entity is the row that was read is not written. -/
theorem saveColumn_of_same [DecidableEq α] {entity read current : α} (h : entity = read) :
    saveColumn entity read current = current := if_pos h

/-- What the changes before one of them have left. -/
theorem leads_before {ι T : Type} {first : Option α} {ch : Change ι α T}
    {earlier : List (Change ι α T)} :
    ∀ {later : List (Change ι α T)} {last : Option α}, Leads first (later ++ ch :: earlier) last →
      Leads first earlier (some ch.before) := by
  intro later
  induction later with
  | nil => exact fun h => h.2
  | cons d later ih => exact fun h => ih h.2

/-- A `save` that leaves roles and grant types alone keeps the pairing. -/
theorem paired_saved {entity read current : OAuthClient} (hroles : entity.roles = read.roles)
    (hgrants : entity.grantTypes = read.grantTypes) (h : Paired current) :
    Paired (saved entity read current) := by
  have hroles' : (saved entity read current).roles = current.roles := saveColumn_of_same hroles
  have hgrants' : (saved entity read current).grantTypes = current.grantTypes :=
    saveColumn_of_same hgrants
  rwa [Paired, hroles', hgrants']

section Safe

variable [Argon2]

/-- The `save` of `update`. -/
theorem safe_update {secret : ℕ → Secret} (seen : OAuthClient) {entity read current : OAuthClient}
    (hentity : entity.revokedAt = seen.revokedAt ∧ entity.clientSecretHash = seen.clientSecretHash)
    (hpaired : Paired entity) (hread : SameAccess read seen)
    (hcurrent : current.roles = seen.roles ∧ current.grantTypes = seen.grantTypes) :
    Safe secret ⟨.update, id, current, saved entity read current⟩ where
  paired := by
    have hroles : (saved entity read current).roles = entity.roles :=
      saveColumn_of_eq (hcurrent.1.trans hread.roles.symm)
    have hgrants : (saved entity read current).grantTypes = entity.grantTypes :=
      saveColumn_of_eq (hcurrent.2.trans hread.grantTypes.symm)
    rw [Paired, hroles, hgrants]
    exact hpaired
  revoked _ h := by
    have hsame : (saved entity read current).revokedAt = current.revokedAt :=
      saveColumn_of_same (hentity.1.trans hread.revokedAt.symm)
    rwa [hsame]
  hash := saveColumn_of_same (hentity.2.trans hread.hash.symm)

/-- The `save` of `rotateSecret`, with a secret that is not the one of the row read. -/
theorem safe_rotateSecret {secret : ℕ → Secret} {read current : OAuthClient}
    (hread : SameAccess read seen)
    (hnew : read.clientSecretHash ≠ some (hashClientSecret (secret i))) (hpaired : Paired current) :
    Safe secret ⟨.rotateSecret i, id, current,
      saved { seen with clientSecretHash := some (hashClientSecret (secret i)) } read current⟩ where
  paired := paired_saved hread.roles.symm hread.grantTypes.symm hpaired
  revoked _ h := by
    have hsame : (saved { seen with clientSecretHash := some (hashClientSecret (secret i)) } read
        current).revokedAt = current.revokedAt := saveColumn_of_same hread.revokedAt.symm
    rwa [hsame]
  hash := if_neg hnew.symm

/-- The `save` of `reactivateClient`. -/
theorem safe_reactivateClient {secret : ℕ → Secret} {read current : OAuthClient}
    (hread : SameAccess read seen) (hpaired : Paired current) :
    Safe secret ⟨.reactivateClient, id, current,
      saved { seen with revokedAt := none, revokedReason := none } read current⟩ where
  paired := paired_saved hread.roles.symm hread.grantTypes.symm hpaired
  revoked h := by simp at h
  hash := saveColumn_of_same hread.hash.symm

/-! ## Secrets along the journal -/

/-- The secret of a client was written by some rotation, or is the first one. -/
theorem hash_of_leads {secret : ℕ → Secret} {first : Option OAuthClient} :
    ∀ {cs : List (Change Uuid OAuthClient Call)} {c : OAuthClient}, (∀ ch ∈ cs, Safe secret ch) →
      Leads first cs (some c) →
      (∃ i ∈ rotations cs, c.clientSecretHash = some (hashClientSecret (secret i))) ∨
        ∃ c₀, first = some c₀ ∧ c.clientSecretHash = c₀.clientSecretHash := by
  intro cs
  induction cs with
  | nil => exact fun _ hleads => Or.inr ⟨_, hleads.symm, rfl⟩
  | cons ch cs ih =>
    intro c hsafe hleads
    obtain rfl := Option.some.inj hleads.1
    have hch := (hsafe ch List.mem_cons_self).hash
    cases hrotation : ch.call.rotation with
    | some i =>
      rw [hrotation] at hch
      refine Or.inl ⟨i, ?_, hch⟩
      simp [rotations, hrotation]
    | none =>
      rw [hrotation] at hch
      obtain ⟨i, hi, hhash⟩ | hfirst :=
        ih (fun d hd => hsafe d (List.mem_cons_of_mem _ hd)) hleads.2
      · refine Or.inl ⟨i, ?_, hch.trans hhash⟩
        simpa [rotations, hrotation] using hi
      · obtain ⟨c₀, hc₀, hhash⟩ := hfirst
        exact Or.inr ⟨c₀, hc₀, hch.trans hhash⟩

/-- After a rotation the secret is that of this rotation or of a later one. -/
theorem hash_after_rotation {secret : ℕ → Secret} {first : Option OAuthClient}
    {ch : Change Uuid OAuthClient Call} (hch : ch.call = .rotateSecret i)
    {earlier : List (Change Uuid OAuthClient Call)} :
    ∀ {later : List (Change Uuid OAuthClient Call)} {last : Option OAuthClient},
      (∀ d ∈ later ++ ch :: earlier, Safe secret d) →
      Leads first (later ++ ch :: earlier) last →
      ∃ c, last = some c ∧
        ∃ i' ∈ rotations (later ++ [ch]),
          c.clientSecretHash = some (hashClientSecret (secret i')) := by
  intro later
  induction later with
  | nil =>
    intro last hsafe hleads
    have hhash := (hsafe ch List.mem_cons_self).hash
    rw [hch] at hhash
    exact ⟨ch.after, hleads.1, i, by simp [rotations, hch, Call.rotation], hhash⟩
  | cons d later ih =>
    intro last hsafe hleads
    obtain ⟨c, hc, i', hi', hhash⟩ :=
      ih (fun e he => hsafe e (List.mem_cons_of_mem _ he)) hleads.2
    obtain rfl := Option.some.inj hc
    have hd := (hsafe d List.mem_cons_self).hash
    refine ⟨d.after, hleads.1, ?_⟩
    cases hrotation : d.call.rotation with
    | some j =>
      rw [hrotation] at hd
      exact ⟨j, by simp [rotations, hrotation], hd⟩
    | none =>
      rw [hrotation] at hd
      exact ⟨i', by simpa [rotations, hrotation] using hi', hd.trans hhash⟩

/-! ## The contract of the calls -/

section Contract

variable {secret : ℕ → Secret} {t₀ : Table Uuid OAuthClient}

/-- Every change so far is safe, and no two of them write the secret of one process.  A process
whose secret was not yet written can rely on that until it writes it. -/
def contract (secret : ℕ → Secret) (t₀ : Table Uuid OAuthClient) : Contract State where
  inv s := s.Recorded t₀ (Safe secret) ∧ (rotations s.changes).Nodup
  rely o s s' := ∀ i ∈ o, i ∉ rotations s.changes → i ∉ rotations s'.changes
  start i s := i ∉ rotations s.changes

theorem rely_refl (s : State) (o : Option ℕ) : (contract secret t₀).rely o s s := fun _ _ h => h

theorem stable_start (i : ℕ) :
    (contract secret t₀).Stable i ((contract secret t₀).start i) :=
  fun _ _ _ _ h hrely => hrely i rfl h

/-- An update by a call that is no rotation. -/
theorem update_follows (hs : (contract secret t₀).inv s) (call : Call)
    (hcall : call.rotation = none) {p : Uuid → OAuthClient → Bool} {u : OAuthClient → OAuthClient}
    (hsafe : ∀ id c, s.table.row id = some c → p id c = true → Safe secret ⟨call, id, c, u c⟩) :
    (contract secret t₀).inv (s.update call p u) ∧
      ∀ o, (contract secret t₀).rely o s (s.update call p u) := by
  have hrotations : rotations (s.update call p u).changes = rotations s.changes := by
    simp [rotations, Journal.update, List.filterMap_append, List.filterMap_map, hcall]
  refine ⟨⟨hs.1.update hsafe, hrotations ▸ hs.2⟩, fun o i _ hi => ?_⟩
  rwa [hrotations]

/-- The update by which process `i` writes its secret. -/
theorem rotation_follows (hs : (contract secret t₀).inv s) (hi : i ∉ rotations s.changes)
    (hc : s.table.row id = some c) {u : OAuthClient → OAuthClient}
    (hsafe : Safe secret ⟨.rotateSecret i, id, c, u c⟩) :
    (contract secret t₀).inv (s.updateRow (.rotateSecret i) id (fun _ => true) u) ∧
      ∀ o, o ≠ some i →
        (contract secret t₀).rely o s (s.updateRow (.rotateSecret i) id (fun _ => true) u) := by
  have hrotations : rotations (s.updateRow (.rotateSecret i) id (fun _ => true) u).changes =
      i :: rotations s.changes := by
    rw [Journal.changes_updateRow hc rfl]
    rfl
  refine ⟨⟨hs.1.updateRow fun d hd _ => ?_, ?_⟩, fun o ho j hj hnot => ?_⟩
  · obtain rfl := Option.mem_unique hc hd
    exact hsafe
  · rw [hrotations]
    exact List.nodup_cons.mpr ⟨hi, hs.2⟩
  · rw [hrotations, List.mem_cons, not_or]
    exact ⟨fun e => ho (e ▸ hj), hnot⟩

/-- What is known of the table at the beginning: the pairing, and that the secrets to be drawn
are new. -/
structure Fresh (secret : ℕ → Secret) (t₀ : Table Uuid OAuthClient) : Prop where
  injective : Function.Injective secret
  paired : ∀ id c, t₀.row id = some c → Paired c
  unused : ∀ id c i, t₀.row id = some c → ¬Verifies c (secret i)

variable (hfresh : Fresh secret t₀)

include hfresh

theorem paired_row (hs : (contract secret t₀).inv s) (hc : s.table.row id = some c) : Paired c := by
  obtain hfirst | ⟨ch, hch, -, rfl⟩ := hs.1.row hc
  · exact hfresh.paired id c hfirst
  · exact (hs.1.every ch hch).paired

/-- A secret that was not written is the secret of no client. -/
theorem hash_ne_of_unwritten (hs : (contract secret t₀).inv s) (hi : i ∉ rotations s.changes)
    (hc : s.table.row id = some c) : c.clientSecretHash ≠ some (hashClientSecret (secret i)) := by
  intro hhash
  have hleads := hs.1.complete id
  rw [hc] at hleads
  have hsafe : ∀ ch ∈ s.changes.filter (fun ch => ch.key = id), Safe secret ch :=
    fun ch hch => hs.1.every ch (List.mem_filter.mp hch).1
  obtain ⟨j, hj, hwritten⟩ | ⟨c₀, hc₀, hfirst⟩ := hash_of_leads hsafe hleads
  · have hij := hashClientSecret_injective (Option.mem_unique hhash hwritten)
    obtain rfl := hfresh.injective hij
    exact hi ((List.filter_sublist.filterMap _).subset hj)
  · exact hfresh.unused id c₀ i hc₀ ((verifies_of_hash (hfirst.symm.trans hhash)).mpr rfl)

/-! ### Programs -/

/-- A call of process `i` follows the contract. -/
abbrev Follows (secret : ℕ → Secret) (t₀ : Table Uuid OAuthClient) (i : ℕ) (p : Program) : Prop :=
  (contract secret t₀).Ok (fun l s => asRead l s = true) i (fun _ _ => True) p
    ((contract secret t₀).start i)

omit hfresh in
theorem readClient_follows {tenantId : Uuid} {clientId : String} {active : Bool}
    {k : Uuid × OAuthClient → Program} (h : ∀ client, Follows secret t₀ i (k client)) :
    Follows secret t₀ i (readClient tenantId clientId active k) :=
  .attempt (fun _ _ _ => trivial) fun s hs hstart _ =>
    ⟨hs, fun o _ => rely_refl s o, _, hstart, stable_start i,
      .demand (fun _ _ _ _ => trivial) fun client _ => h client⟩

/-- The `save` of a call that is no rotation. -/
theorem save_follows {call : Call} (hcall : call.rotation = none) {store : Label}
    {entity : OAuthClient}
    (hsafe : ∀ read s c, SameAccess read seen → asRead store s = true → s.table.row id = some c →
      Paired c → Safe secret ⟨call, id, c, saved entity read c⟩) :
    Follows secret t₀ i (save call store id seen entity) := by
  refine Journal.ok_save rely_refl (stable_start i) (fun _ _ _ => trivial) (fun _ _ _ => trivial)
    (fun s hs _ => ⟨hs, fun o _ => rely_refl s o⟩) ?_
  intro s read _ _ hreload hread _ s' c hs' _ hstore _
  obtain ⟨hinv, hrely⟩ := update_follows hs' call hcall (p := fun k _ => decide (k = id) && true)
    (u := saved entity read) fun k d hd hk => by
      obtain rfl : k = id := by simpa using hk
      exact hsafe read s' d (asRead_reload hreload hread) hstore hd (paired_row hfresh hs' hd)
  exact ⟨hinv, fun o _ => hrely o⟩

/-- A rotation follows the contract. -/
theorem rotateSecret_follows (i : ℕ) (tenantId : Uuid) (clientId : String) :
    Follows secret t₀ i (rotateSecret (secret i) i tenantId clientId) := by
  refine readClient_follows fun client => .demand (fun _ _ _ _ => trivial) fun _ _ => ?_
  refine Journal.ok_save rely_refl (stable_start i) (fun _ _ _ => trivial) (fun _ _ _ => trivial)
    (fun s hs _ => ⟨hs, fun o _ => rely_refl s o⟩) ?_
  intro s read hs hstart hreload hread _ s' c hs' hstart' _ hc
  exact rotation_follows hs' hstart' hc (safe_rotateSecret (asRead_reload hreload hread)
    (hash_ne_of_unwritten hfresh hs hstart hread) (paired_row hfresh hs' hc))

/-- So does an update. -/
theorem update_call_follows (config : OidcConfig) (i : ℕ) (tenantId : Uuid) (clientId : String)
    (dto : UpdateOAuthClientDto) (caller : AuthContext) :
    Follows secret t₀ i (update config tenantId clientId dto caller) := by
  refine .demand (fun _ _ _ _ => trivial) fun _ _ => readClient_follows fun client =>
    .demand (fun _ _ _ _ => trivial) fun _ hok => ?_
  have hpaired : Paired (dto.apply client.2) := by
    simp only [assertRoleConstraints, bind_eq_ok, ensure_eq_ok] at hok
    obtain ⟨_, ⟨_, _, _, _, hpair⟩, _⟩ := hok
    exact hpair
  exact save_follows hfresh rfl fun read s c hread hstore hc _ =>
    safe_update client.2 ⟨rfl, rfl⟩ hpaired hread (asRead_store hstore hc)

/-- The two revocations write neither roles nor secrets. -/
theorem safe_revocation (hs : (contract secret t₀).inv s) {call : Call}
    (hcall : call = .revokeClient ∨ call = .revokeAllForTenant) (hc : s.table.row id = some c)
    (now : ℕ) (reason : Option OAuthClientRevokedReason) :
    Safe secret ⟨call, id, c, { c with revokedAt := some now, revokedReason := reason }⟩ where
  paired := show Paired c from paired_row hfresh hs hc
  revoked _ _ := nofun
  hash := by obtain rfl | rfl := hcall <;> rfl

/-- Every request follows the contract. -/
theorem program_follows (config : OidcConfig) (i : ℕ) (r : Request) :
    Follows secret t₀ i (r.program config secret i) := by
  cases r with
  | update tenantId clientId dto caller =>
    exact update_call_follows hfresh config i tenantId clientId dto caller
  | rotateSecret tenantId clientId => exact rotateSecret_follows hfresh i tenantId clientId
  | reactivateClient tenantId clientId =>
    exact readClient_follows fun client => save_follows hfresh rfl
      fun read s c hread _ _ hpaired => safe_reactivateClient hread hpaired
  | revokeClient tenantId clientId now =>
    refine readClient_follows fun client => ?_
    split_ifs
    · exact fun _ _ _ => trivial
    · refine .attempt (fun _ _ _ => trivial) fun s hs _ _ => ?_
      obtain ⟨hinv, hrely⟩ := update_follows hs .revokeClient rfl
        (p := fun k _ => decide (k = client.1) && true) fun id c hc _ =>
          safe_revocation hfresh hs (Or.inl rfl) hc now none
      exact ⟨hinv, fun o _ => hrely o, Contract.done⟩
  | revokeAllForTenant tenantId now =>
    refine .attempt (fun _ _ _ => trivial) fun s hs hstart _ =>
      ⟨hs, fun o _ => rely_refl s o, _, hstart, stable_start i, ?_⟩
    refine .attempt (fun _ _ _ => trivial) fun s' hs' _ _ => ?_
    obtain ⟨hinv, hrely⟩ := update_follows hs' .revokeAllForTenant rfl
      (p := fun id c => decide (id ∈ s.table.keys (unrevokedOf tenantId)) &&
        unrevokedOf tenantId c) fun id c hc _ =>
        safe_revocation hfresh hs' (Or.inr rfl) hc now (some .tenantDeactivation)
    exact ⟨hinv, fun o _ => hrely o, Contract.done⟩

/-- The invariant holds in every run. -/
theorem service_inv (config : OidcConfig) {c : Config State Label}
    (hc : Reach (service config secret) (fun l s => asRead l s = true) ⟨t₀, [], ()⟩ c) :
    (contract secret t₀).inv c.state := by
  have hfollows : Contract.Follows (service config secret) (contract secret t₀)
      (fun l s => asRead l s = true) :=
    { start := stable_start
      prog := fun r i => (program_follows hfresh config i r).discard
      crash := fun g hg i s hs => by
        cases hg
        exact ⟨hs, fun o _ => rely_refl s o⟩ }
  exact (Contract.sound hfollows ⟨.start t₀ _ (), List.nodup_nil⟩
    (fun _ => List.not_mem_nil) hc).inv

end Contract

/-! ### Main results -/

/-- A secret that a rotation has replaced is not the present one. -/
theorem replaced_secret_invalid {secret : ℕ → Secret} {t₀ : Table Uuid OAuthClient}
    (hfresh : Fresh secret t₀) (hs : (contract secret t₀).inv s)
    {later earlier : List (Change Uuid OAuthClient Call)} {ch : Change Uuid OAuthClient Call}
    (hsplit : s.changes.filter (fun d => d.key = id) = later ++ ch :: earlier)
    (hch : ch.call = .rotateSecret i) {old : Secret} (hold : Verifies ch.before old) :
    ∃ c, s.table.row id = some c ∧ ¬Verifies c old := by
  have hleads := hs.1.complete id
  rw [hsplit] at hleads
  have hsafe : ∀ d ∈ later ++ ch :: earlier, Safe secret d := fun d hd =>
    hs.1.every d (List.mem_filter.mp (hsplit ▸ hd)).1
  have hnodup : (rotations (later ++ ch :: earlier)).Nodup := by
    rw [← hsplit]
    exact hs.2.sublist (List.filter_sublist.filterMap _)
  obtain ⟨c, hc, j, hj, hhash⟩ := hash_after_rotation hch hsafe hleads
  refine ⟨c, hc, fun hvalid => ?_⟩
  have hj' := (verifies_of_hash hhash).mp hvalid
  -- the old secret is older: another rotation's, or the first one
  obtain ⟨k, hk, hbefore⟩ | ⟨c₀, hc₀, hbefore⟩ := hash_of_leads
      (fun d hd => hsafe d (List.mem_append_right _ (List.mem_cons_of_mem _ hd)))
      (leads_before hleads)
  · have hk' := (verifies_of_hash hbefore).mp hold
    obtain rfl := hfresh.injective (hj'.symm.trans hk')
    have hsplit' : rotations (later ++ ch :: earlier) =
        rotations (later ++ [ch]) ++ rotations earlier := by
      rw [rotations, rotations, rotations, ← List.filterMap_append, List.append_assoc,
        List.singleton_append]
    rw [hsplit'] at hnodup
    exact (List.disjoint_of_nodup_append hnodup) hj hk
  · rw [hj', Verifies, hbefore] at hold
    exact hfresh.unused id c₀ j hc₀ hold

/-- **Clients stay safe.**  In a run in which each `save` reads the client as its call has read it,
and the `UPDATE` of an `update` meets the same roles and grant types: `update` and `rotateSecret`
end no revocation, no client verifies a secret that a rotation of it has replaced, and every
client that has roles has the machine grant alone. -/
theorem clients_stay_safe (config : OidcConfig) (secret : ℕ → Secret) (t₀ : Table Uuid OAuthClient)
    (hfresh : Fresh secret t₀) (c : Config State Label)
    (hc : Reach (service config secret) (fun l s => asRead l s = true) ⟨t₀, [], ()⟩ c) :
    (∀ id, Leads (t₀.row id) (c.state.changes.filter fun d => d.key = id)
      (c.state.table.row id)) ∧
    (∀ ch ∈ c.state.changes, (ch.call = .update ∨ ∃ i, ch.call = .rotateSecret i) →
      ch.before.revokedAt ≠ none → ch.after.revokedAt ≠ none) ∧
    (∀ id later ch earlier i,
      c.state.changes.filter (fun d => d.key = id) = later ++ ch :: earlier →
      ch.call = .rotateSecret i → ∀ old, Verifies ch.before old →
        ∃ client, c.state.table.row id = some client ∧ ¬Verifies client old) ∧
    ∀ id client, c.state.table.row id = some client → client.roles ≠ [] →
      client.grantTypes.dedup = [machineGrantType] := by
  have hinv := service_inv hfresh config hc
  refine ⟨hinv.1.complete, fun ch hch => (hinv.1.every ch hch).revoked, ?_, ?_⟩
  · exact fun id later ch earlier i hsplit hch old hold =>
      replaced_secret_invalid hfresh hinv hsplit hch hold
  · exact fun id client hclient hroles =>
      (paired_row hfresh hinv hclient).resolve_left hroles

end Safe

/-! ## Runs -/

local instance : Argon2 := sampleArgon2

def sampleClient : OAuthClient :=
  ⟨7, "c", some (hashClientSecret 0), false, "old", [], ["admin"], [], [machineGrantType], none,
    none, none, none⟩

def oneClient : Table Uuid OAuthClient := ⟨[(1, sampleClient)], by decide⟩

def sampleSecrets (i : ℕ) : Secret := i + 1

theorem fresh_oneClient : Fresh sampleSecrets oneClient where
  injective := fun _ _ h => Nat.succ.inj h
  paired id c hc := by
    have hmem := Table.row_eq_some.mp hc
    simp only [oneClient, List.mem_singleton, Prod.mk.injEq] at hmem
    rw [hmem.2]
    exact Or.inr rfl
  unused id c i hc := by
    have hmem := Table.row_eq_some.mp hc
    simp only [oneClient, List.mem_singleton, Prod.mk.injEq] at hmem
    rw [hmem.2, verifies_of_hash rfl]
    exact Nat.succ_ne_zero i

def sampleCaller : AuthContext := ⟨.user 9, some 7, [], []⟩

def sampleConfig : OidcConfig := ⟨[machineGrantType], []⟩

def rename : Request := .update 7 "c" ⟨some "new", none, none, none, none, none⟩ sampleCaller

def rotatedClient : OAuthClient :=
  { sampleClient with clientSecretHash := some (hashClientSecret 1) }

def rotateThenRevoke : List (Move Request) :=
  [.spawn (.rotateSecret 7 "c"), .spawn (.revokeClient 7 "c" 5), .run 0, .run 0, .run 0, .run 1,
    .run 1]

/-- The replaced secret is not valid again, and the role still goes with the machine grant. -/
theorem clients_stay_safe_rotation :
    ∃ c, (service sampleConfig sampleSecrets).execIf asRead ⟨⟨oneClient, [], ()⟩, []⟩
        rotateThenRevoke = some c ∧
      ∃ client, c.state.table.row 1 = some client ∧ ¬Verifies client 0 ∧
        client.revokedAt = some 5 ∧ client.grantTypes.dedup = [machineGrantType] := by
  have hresult : ((service sampleConfig sampleSecrets).execIf asRead ⟨⟨oneClient, [], ()⟩, []⟩
      rotateThenRevoke).map (fun c => (c.state.table.row 1, c.state.changes)) =
        some (some { rotatedClient with revokedAt := some 5 },
          [⟨.revokeClient, 1, rotatedClient, { rotatedClient with revokedAt := some 5 }⟩,
            ⟨.rotateSecret 0, 1, sampleClient, rotatedClient⟩]) := by
    decide +kernel
  obtain ⟨c, hexec, hc⟩ := Option.map_eq_some_iff.mp hresult
  obtain ⟨hrow, hchanges⟩ := Prod.mk.inj hc
  obtain ⟨-, -, hsecret, hpaired⟩ := clients_stay_safe sampleConfig sampleSecrets oneClient
    fresh_oneClient c (reach_execIf hexec)
  obtain ⟨client, hclient, hinvalid⟩ :=
    hsecret 1 [_] _ [] 0 (by rw [hchanges]; rfl) rfl 0 ((verifies_of_hash rfl).mpr rfl)
  have hvalue := Option.mem_unique hclient hrow
  exact ⟨c, hexec, client, hclient, hinvalid, by rw [hvalue],
    hpaired 1 client hclient (by rw [hvalue]; decide)⟩

/-- The renaming has read the client when the revocation overtakes it. -/
def overtakenRenaming : List (Move Request) :=
  [.spawn rename, .spawn (.revokeClient 7 "c" 5), .run 0, .run 1, .run 1, .run 0, .run 0]

/-- The renaming ends the revocation. -/
theorem revocation_lost :
    ∃ c, Reach (service sampleConfig sampleSecrets) Always ⟨oneClient, [], ()⟩ c ∧
      ∃ ch ∈ c.state.changes, ch.call = .update ∧ ch.before.revokedAt = some 5 ∧
        ch.after.revokedAt = none ∧ c.state.table.row 1 = some ch.after := by
  have hresult : ((service sampleConfig sampleSecrets).exec ⟨⟨oneClient, [], ()⟩, []⟩
      overtakenRenaming).map (fun c => (c.state.table.row 1, c.state.changes.head?)) =
        some (some { sampleClient with name := "new" },
          some ⟨.update, 1, { sampleClient with revokedAt := some 5 },
            { sampleClient with name := "new" }⟩) := by
    decide +kernel
  obtain ⟨c, hexec, hc⟩ := Option.map_eq_some_iff.mp hresult
  obtain ⟨hrow, hhead⟩ := Prod.mk.inj hc
  exact ⟨c, reach_exec hexec, _, List.mem_of_mem_head? hhead, rfl, rfl,
    rfl, hrow⟩

end DigitalTrust.ClientChanges
