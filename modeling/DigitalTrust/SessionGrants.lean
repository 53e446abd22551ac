/-
# The grants of evicted sessions

`deleteSessions`, `claimSurplusSessions` and `rebindSessionsToAccount` of
`oidc-account-session.repository.ts`, `enforce` of `session-limit.service.ts` and `switchTenant` of
`auth.service.ts`.  Tokens hang off a session only through the grants in its `authorizations`, so
the eviction of a session deletes every grant named there and every record of those grants.  A
tenant switch puts one grant into every session of the account that has authorized the client.
-/
import DigitalTrust.OperationService
import DigitalTrust.SessionLimit

namespace DigitalTrust.SessionGrants

open Interleaving
open SessionLimit (Session newestFirst)

/-! ## The table -/

/-- The kinds of records of `oidc_model` that the programs below touch; all of them are in
`ACCOUNT_BOUND_MODELS`. -/
inductive ModelName where
  | session
  | grant
  | accessToken
  | refreshToken
  deriving DecidableEq

/-- A row of `oidc_model`; `id` is its primary key, and `authorizations` is that of a session's
payload, with the grant of each client if there is one. -/
structure OidcModel where
  id : ℕ
  modelName : ModelName
  oidcId : ℕ
  accountId : ℕ
  grantId : Option ℕ
  authorizations : List (ℕ × Option ℕ)
  createdAt : ℕ
  expiresAt : Option ℕ
  deriving DecidableEq

def extractGrantIds (r : OidcModel) : List ℕ := r.authorizations.filterMap Prod.snd

/-- The grant that a record is or hangs off. -/
def OidcModel.grant? (r : OidcModel) : Option ℕ :=
  if r.modelName = .grant then some r.oidcId else r.grantId

/-- The columns by which sessions are evicted. -/
def OidcModel.toSession (r : OidcModel) : Session :=
  ⟨r.oidcId, r.accountId, r.createdAt, r.expiresAt⟩

/-- The unique key of a row. -/
def OidcModel.key (r : OidcModel) : ModelName × ℕ := (r.modelName, r.oidcId)

/-- The table, the keys for which primary keys were generated, the grants that were ever put into
a session, and what was lost. -/
structure State where
  records : List OidcModel
  generated : List (ModelName × ℕ)
  placed : List (ℕ × ℕ)
  lost : List OidcModel

def State.empty : State := ⟨[], [], [], []⟩

def State.place (r : OidcModel) (s : State) : List (ℕ × ℕ) :=
  s.placed ++ (extractGrantIds r).map fun g => (g, r.oidcId)

/-- `INSERT ... ON CONFLICT DO UPDATE`; a row that is there keeps its primary key and the time of
its creation. -/
def State.upsert (r : OidcModel) (s : State) : State where
  records :=
    if s.records.any fun x => x.key = r.key then
      s.records.map fun x =>
        if x.key = r.key then { r with id := x.id, createdAt := x.createdAt } else x
    else s.records ++ [{ r with id := s.generated.length }]
  generated := s.generated ++ [r.key]
  placed := s.place r
  lost := s.lost

/-- What the `UPDATE` of a `save` makes of a row; `read` is the row that the `save` has read. -/
def saved (entity read current : OidcModel) : OidcModel :=
  { current with
    accountId := saveColumn entity.accountId read.accountId current.accountId
    grantId := saveColumn entity.grantId read.grantId current.grantId
    authorizations := saveColumn entity.authorizations read.authorizations current.authorizations
    expiresAt := saveColumn entity.expiresAt read.expiresAt current.expiresAt }

/-- The `UPDATE` of a `save`. -/
def State.update (entity read : OidcModel) (s : State) : State :=
  { s with
    records := s.records.map fun x => if x.id = entity.id then saved entity read x else x
    placed := s.place entity }

/-- A row has the same primary or unique key. -/
def State.conflicts (r : OidcModel) (s : State) : Bool :=
  s.records.any fun x => x.id = r.id || x.key = r.key

/-- The `INSERT` of a `save`. -/
def State.insert (entity : OidcModel) (s : State) : State :=
  if s.conflicts entity then s
  else { s with records := s.records ++ [entity], placed := s.place entity }

/-- Rows are deleted. -/
def State.remove (p : OidcModel → Bool) (s : State) : State :=
  { s with records := s.records.filter fun r => !p r }

/-- The state `s'` after a deletion, with the deleted rows that count as a loss. -/
def State.losing (isLoss : OidcModel → Bool) (s s' : State) : State :=
  { s' with lost := s'.lost ++ s.records.filter fun r => r ∉ s'.records && isLoss r }

/-! ## Statements -/

/-- Statements that can be told apart in a run: the read of the sessions that a tenant switch
rebinds. -/
inductive Label where
  | step
  | rebind (fromAccountId clientId : ℕ)

abbrev Program := Proc State Label

/-- `upsert` of the provider's adapter. -/
def upsert (r : OidcModel) : Program Unit := .perform .step (State.upsert r) fun _ => ()

/-- `save` of the repository, and whether it succeeds: it reads the row once more, and updates or
inserts it in a second statement. -/
def save (entity : OidcModel) : Program Bool := do
  let read ← .perform .step id fun s => s.records.find? fun r => r.id = entity.id
  match read with
  | some read => .perform .step (State.update entity read) fun _ => true
  | none => .perform .step (State.insert entity) fun s => !s.conflicts entity

def deleteWhere (p : OidcModel → Bool) : Program Unit := .perform .step (State.remove p) fun _ => ()

/-- `find` of the provider's adapter. -/
def find (modelName : ModelName) (oidcId : ℕ) : Program (Option OidcModel) :=
  .perform .step id fun s => s.records.find? fun r => r.modelName = modelName && r.oidcId = oidcId

/-- An evicted session: `AccountSession`. -/
structure AccountSession where
  oidcId : ℕ
  grantIds : List ℕ

def deletedWith (sessions : List AccountSession) (r : OidcModel) : Bool :=
  let oidcIds := sessions.map AccountSession.oidcId
  let grantIds := sessions.flatMap AccountSession.grantIds
  (r.modelName = .session && r.oidcId ∈ oidcIds) || r.grantId.any (· ∈ grantIds) ||
    (r.modelName = .grant && r.oidcId ∈ grantIds)

/-- A deletion of the record is a loss: it is a session that was not evicted, or a session that is
left refers to its grant. -/
def State.isLoss (evicted : List AccountSession) (s : State) (r : OidcModel) : Bool :=
  (r.modelName = .session && r.oidcId ∉ evicted.map AccountSession.oidcId) ||
    s.records.any fun kept => kept.modelName = .session && r.grant?.any (· ∈ extractGrantIds kept)

/-- `deleteSessions`, and what is lost by it. -/
def State.deleteSessions (evicted : List AccountSession) (s : State) : State :=
  let s' := s.remove (deletedWith evicted)
  s.losing (s'.isLoss evicted) s'

/-- When an enforcement runs, and the rows that its scan skips because they are locked. -/
structure Enforcement where
  now : ℕ
  skipped : List ℕ

/-- The sessions that `claimSurplusSessions` deletes. -/
def State.surplus (accountId limit : ℕ) (newSessionId : Option ℕ) (e : Enforcement) (s : State) :
    List OidcModel :=
  let candidates := s.records.filter fun r => r.modelName = .session && r.accountId = accountId &&
    r.toSession.unexpired e.now && newSessionId.all fun own => r.oidcId ≠ own
  let keep := if newSessionId.isSome then limit - 1 else limit
  let sorted := candidates.insertionSort fun a b => newestFirst a.toSession b.toSession
  (sorted.filter fun r => r.oidcId ∉ e.skipped).drop keep

/-- The sessions that `claimSurplusSessions` returns. -/
def State.claimed (accountId limit : ℕ) (newSessionId : Option ℕ) (e : Enforcement) (s : State) :
    List AccountSession :=
  (s.surplus accountId limit newSessionId e).map fun r => ⟨r.oidcId, extractGrantIds r⟩

/-- The session may be evicted: it is an unexpired session of the account other than the new one,
and with the new one the account has more than `limit` that are not older. -/
def State.overLimit (accountId limit : ℕ) (newSessionId : Option ℕ) (now : ℕ) (s : State)
    (r : OidcModel) : Bool :=
  let other (x : OidcModel) : Bool := x.modelName = .session && x.accountId = accountId &&
    x.toSession.unexpired now && newSessionId ≠ some x.oidcId
  other r && limit < newSessionId.toList.length +
    s.records.countP fun x => newestFirst x.toSession r.toSession && other x

/-- `claimSurplusSessions`, and what is lost by it: what it deletes without returning it, or
although it may not be evicted. -/
def claimSurplusSessions (accountId limit : ℕ) (newSessionId : Option ℕ) (e : Enforcement) :
    Program (List AccountSession) :=
  .perform .step
    (fun s => s.losing
      (fun r => !(s.overLimit accountId limit newSessionId e.now r &&
        r.oidcId ∈ (s.claimed accountId limit newSessionId e).map AccountSession.oidcId))
      (s.remove fun r => r.modelName = .session &&
        r.oidcId ∈ (s.surplus accountId limit newSessionId e).map OidcModel.oidcId))
    (State.claimed accountId limit newSessionId e)

def enforce (accountId limit : ℕ) (newSessionId : Option ℕ) (e : Enforcement) : Program Unit :=
  if limit = 0 then pure ()
  else do
    let evicted ← claimSurplusSessions accountId limit newSessionId e
    if evicted.isEmpty then pure ()
    else .perform .step (State.deleteSessions evicted) fun _ => ()

/-! ## Logins and tenant switches -/

def createGrant (i accountId : ℕ) : Program Unit :=
  upsert ⟨0, .grant, i, accountId, none, [], 0, none⟩

def issueTokens (i accountId : ℕ) : Program Unit := do
  upsert ⟨0, .accessToken, i, accountId, some i, [], 0, none⟩
  upsert ⟨0, .refreshToken, i, accountId, some i, [], 0, none⟩

/-- A login: a new session that has authorized one client, with a grant of its own.  The limit is
enforced once the session is there. -/
def login (i accountId clientId limit createdAt : ℕ) (expiresAt : Option ℕ) (e : Enforcement) :
    Program Unit := do
  createGrant i accountId
  upsert ⟨0, .session, i, accountId, none, [(clientId, some i)], createdAt, expiresAt⟩
  issueTokens i accountId
  enforce accountId limit (some i) e

def setAuthorization (clientId grantId : ℕ) (authorizations : List (ℕ × Option ℕ)) :
    List (ℕ × Option ℕ) :=
  (authorizations.filter fun a => a.1 ≠ clientId) ++ [(clientId, some grantId)]

/-- A consent at the time `now`: a session that is there authorizes a client, with a new grant. -/
def consent (i sessionId clientId now : ℕ) : Program Unit := do
  let session ← find .session sessionId
  match session with
  | none => pure ()
  | some session =>
    createGrant i session.accountId
    upsert { session with
      authorizations := setAuthorization clientId i session.authorizations, createdAt := now }
    issueTokens i session.accountId

def authorizes (clientId : ℕ) (r : OidcModel) : Bool := r.authorizations.any fun a => a.1 = clientId

/-- What `rebindSessionsToAccount` makes of a session. -/
def rebound (toAccountId clientId grantId : ℕ) (session : OidcModel) : OidcModel :=
  { session with
    accountId := toAccountId
    authorizations := session.authorizations.map fun a =>
      if a.1 = clientId then (a.1, some grantId) else a }

/-- The sessions that a tenant switch rebinds. -/
def State.sessionsOf (accountId : ℕ) (s : State) : List OidcModel :=
  s.records.filter fun r => r.modelName = .session && r.accountId = accountId

/-- `rebindSessionsToAccount`, of the sessions that were read; it ends when a `save` fails. -/
def saveRebound (toAccountId clientId grantId : ℕ) : List OidcModel → Program Bool
  | [] => pure true
  | session :: rest => do
    let ok ← save (rebound toAccountId clientId grantId session)
    if ok then saveRebound toAccountId clientId grantId rest else pure false

/-- `rebindSessionsToAccount`, and whether it succeeds. -/
def rebindSessionsToAccount (fromAccountId toAccountId clientId grantId : ℕ) : Program Bool := do
  let sessions ← .perform (.rebind fromAccountId clientId) id (State.sessionsOf fromAccountId)
  saveRebound toAccountId clientId grantId sessions

def revokeGrant (grantId : ℕ) : Program Unit := do
  let _ ← find .grant grantId
  deleteWhere fun r => r.modelName = .grant && r.oidcId = grantId
  deleteWhere fun r => r.modelName = .accessToken && r.grantId = some grantId
  deleteWhere fun r => r.modelName = .refreshToken && r.grantId = some grantId

/-- `deleteAllForAccount`: every record of the account, and what hangs off its grants. -/
def deleteAllForAccount (accountId : ℕ) : Program Unit :=
  .perform .step
    (fun s => s.remove fun r => r.accountId = accountId || r.grantId.any fun g =>
      s.records.any fun x => x.modelName = .grant && x.accountId = accountId && x.oidcId = g)
    fun _ => ()

/-- The caller of a tenant switch. -/
structure AuthContext where
  sub : ℕ
  clientId : ℕ
  jti : Option ℕ

/-- The grant of the access token that the caller presents. -/
def previousGrant (auth : AuthContext) : Program (Option ℕ) :=
  match auth.jti with
  | none => pure none
  | some jti => do
    let token ← find .accessToken jti
    pure (token.bind OidcModel.grantId)

/-- The previous grant is revoked, unless it is the new one. -/
def revokePrevious (i : ℕ) : Option ℕ → Program Unit
  | none => pure ()
  | some previous => if previous ≠ i then revokeGrant previous else pure ()

/-- `switchTenant`, once its checks have passed. -/
def switchTenant (i : ℕ) (auth : AuthContext) (target : ℕ) : Program Unit := do
  let previousGrantId ← previousGrant auth
  createGrant i target
  issueTokens i target
  revokePrevious i previousGrantId
  let ok ← rebindSessionsToAccount auth.sub target auth.clientId i
  if ok ∧ auth.sub ≠ target then deleteAllForAccount auth.sub else pure ()

inductive Request where
  | login (accountId clientId createdAt : ℕ) (expiresAt : Option ℕ) (e : Enforcement)
  | consent (sessionId clientId now : ℕ)
  | switchTenant (auth : AuthContext) (target : ℕ)
  | enforce (accountId : ℕ) (newSessionId : Option ℕ) (e : Enforcement)

/-- The provider; request `i` generates the identifier `i` for the records that it creates. -/
def provider (limit : ℕ) : System State Label Request where
  prog r i := match r with
    | .login accountId clientId createdAt expiresAt e =>
      login i accountId clientId limit createdAt expiresAt e
    | .consent sessionId clientId now => consent i sessionId clientId now
    | .switchTenant auth target => switchTenant i auth target
    | .enforce accountId newSessionId e => enforce accountId limit newSessionId e
  crash := none

/-- The tenant switch finds at most one session that has authorized the client. -/
def rebindsOne : Label → State → Bool
  | .step, _ => true
  | .rebind fromAccountId clientId, s =>
    ((s.sessionsOf fromAccountId).filter (authorizes clientId)).length ≤ 1

/-! ## What the programs agree on -/

/-- The record is no session, and a grant hangs off no other grant. -/
def Plain (r : OidcModel) : Prop :=
  r.modelName ≠ .session ∧ (r.modelName = .grant → r.grantId = none)

/-- A session whose primary key was generated for it. -/
structure Generated (s : State) (r : OidcModel) : Prop where
  session : r.modelName = .session
  noGrant : r.grantId = none
  row : s.generated[r.id]? = some r.key

/-- A session as it was read: its grants have been put into it. -/
structure Known (s : State) (r : OidcModel) : Prop extends Generated s r where
  grants : ∀ g ∈ extractGrantIds r, (g, r.oidcId) ∈ s.placed

def Unused (g : ℕ) (s : State) : Prop := ∀ b, (g, b) ∉ s.placed

/-- What holds of the table throughout: no grant was put into two sessions, the table shows only
grants that were put into their session, keys are unique, and nothing is lost. -/
structure Inv (s : State) : Prop where
  single : ∀ g a b, (g, a) ∈ s.placed → (g, b) ∈ s.placed → a = b
  records : ∀ r ∈ s.records, Plain r ∨ Known s r
  rows : ∀ r ∈ s.records, s.generated[r.id]? = some r.key
  keys : (s.records.map OidcModel.key).Nodup
  nothingLost : s.lost = []

/-- What the others do to request `i`: only itself puts grant `i` into a session. -/
structure Tolerated (j : Option ℕ) (s s' : State) : Prop where
  placed : s.placed ⊆ s'.placed
  generated : s.generated <+: s'.generated
  own : ∀ i, j = some i → ∀ b, (i, b) ∈ s'.placed → (i, b) ∈ s.placed

def contract : Contract State where
  inv := Inv
  rely := Tolerated
  start := Unused

variable {r : OidcModel} {s s' : State}

theorem getElem?_of_prefix {α : Type} {l l' : List α} (h : l <+: l') {n : ℕ} {a : α}
    (hn : l[n]? = some a) : l'[n]? = some a := by
  obtain ⟨t, rfl⟩ := h
  obtain ⟨hlt, -⟩ := List.getElem?_eq_some_iff.mp hn
  rwa [List.getElem?_append_left hlt]

/-- A session that was read stays known. -/
theorem Known.mono (h : Known s r) (hp : s.placed ⊆ s'.placed)
    (hg : s.generated <+: s'.generated) : Known s' r :=
  ⟨⟨h.session, h.noGrant, getElem?_of_prefix hg h.row⟩, fun g hr => hp (h.grants g hr)⟩

/-- The grant of a request that has not put it anywhere stays unused. -/
theorem start_stable (i : ℕ) : contract.Stable i (contract.start i) :=
  fun _ _ _ _ h hr b hb => h b (hr.own i rfl b hb)

/-- What is known of sessions that were read is stable. -/
theorem known_stable (i : ℕ) (rs : List OidcModel) :
    contract.Stable i fun s => ∀ r ∈ rs, Known s r :=
  fun _ _ _ _ h hr r hmem => (h r hmem).mono hr.placed hr.generated

/-- A statement that puts no grant anywhere: it deletes rows, or writes rows that are no
sessions. -/
structure Quiet (s s' : State) : Prop where
  placed : s'.placed = s.placed
  generated : s.generated <+: s'.generated
  lost : s'.lost = s.lost
  keys : (s'.records.map OidcModel.key).Nodup
  records : ∀ r ∈ s'.records, r ∈ s.records ∨ Plain r ∧ s'.generated[r.id]? = some r.key

/-- A quiet step keeps the invariant. -/
theorem Inv.quiet (h : Inv s) (hs : Quiet s s') : Inv s' where
  single := hs.placed ▸ h.single
  records r hr := by
    rcases hs.records r hr with hold | hplain
    · exact (h.records r hold).imp id fun hk =>
        hk.mono (hs.placed ▸ List.Subset.refl _) hs.generated
    · exact .inl hplain.1
  rows r hr := by
    rcases hs.records r hr with hold | hplain
    · exact getElem?_of_prefix hs.generated (h.rows r hold)
    · exact hplain.2
  keys := hs.keys
  nothingLost := hs.lost.trans h.nothingLost

/-- A quiet statement changes nothing that the others know. -/
theorem Quiet.rely (h : Quiet s s') (j : Option ℕ) : contract.rely j s s' :=
  ⟨h.placed ▸ List.Subset.refl _, h.generated, fun _ _ _ hb => h.placed ▸ hb⟩

theorem Inv.quiet_id (h : Inv s) : Quiet s s :=
  ⟨rfl, List.prefix_refl _, rfl, h.keys, fun _ hr => .inl hr⟩

theorem Inv.quiet_remove (h : Inv s) (p : OidcModel → Bool) : Quiet s (s.remove p) :=
  ⟨rfl, List.prefix_refl _, rfl, (List.filter_sublist.map _).nodup h.keys,
    fun _ hr => .inl (List.mem_of_mem_filter hr)⟩

/-- A deletion that loses nothing. -/
theorem Inv.quiet_losing (h : Inv s) {isLoss : OidcModel → Bool} {p : OidcModel → Bool}
    (hloss : ∀ r ∈ s.records, p r = true → isLoss r = false) :
    Quiet s (s.losing isLoss (s.remove p)) := by
  have hquiet := h.quiet_remove p
  refine ⟨hquiet.placed, hquiet.generated, ?_, hquiet.keys, hquiet.records⟩
  have hnone : (s.records.filter fun r => r ∉ (s.remove p).records && isLoss r) = [] := by
    refine List.filter_eq_nil_iff.mpr fun r hr hboth => ?_
    simp only [State.remove, List.mem_filter, Bool.and_eq_true, decide_eq_true_eq, not_and,
      Bool.not_eq_true', Bool.not_eq_false] at hboth
    simp [hloss r hr (hboth.1 hr)] at hboth
  exact (congrArg (s.lost ++ ·) hnone).trans (List.append_nil _)

/-! ### Writes -/

/-- The rows after an `upsert`. -/
theorem mem_upsert (h : Inv s) {x : OidcModel} (hx : x ∈ (s.upsert r).records) :
    x ∈ s.records ∨ (∃ id createdAt, x = { r with id, createdAt }) ∧
      (s.upsert r).generated[x.id]? = some x.key := by
  have hprefix : s.generated <+: (s.upsert r).generated := List.prefix_append _ _
  simp only [State.upsert] at hx
  split_ifs at hx with hany
  · obtain ⟨y, hy, rfl⟩ := List.mem_map.mp hx
    split_ifs with hkey
    · have hrow := getElem?_of_prefix hprefix (h.rows y hy)
      exact .inr ⟨⟨_, _, rfl⟩, hrow.trans (congrArg some hkey)⟩
    · exact .inl hy
  · rcases List.mem_append.mp hx with hx | hx
    · exact .inl hx
    · obtain rfl := List.mem_singleton.mp hx
      exact .inr ⟨⟨_, _, rfl⟩, List.getElem?_concat_length⟩

/-- An upsert keeps keys distinct. -/
theorem keys_upsert (h : Inv s) (r : OidcModel) :
    ((s.upsert r).records.map OidcModel.key).Nodup := by
  simp only [State.upsert]
  split_ifs with hany
  · rw [List.map_map, List.map_congr_left (g := OidcModel.key)]
    · exact h.keys
    · intro x _
      simp only [Function.comp]
      split_ifs with hkey
      · exact hkey.symm
      · rfl
  · rw [List.map_append, List.nodup_append]
    refine ⟨h.keys, List.nodup_singleton _, fun a ha b hb => ?_⟩
    obtain ⟨x, hx, rfl⟩ := List.mem_map.mp ha
    obtain rfl := List.mem_singleton.mp hb
    intro hkey
    exact hany (List.any_eq_true.mpr ⟨x, hx, decide_eq_true hkey⟩)

/-- A write of the session `r`: the rows that it leaves are old ones, or sessions with grants that
were put into them. -/
structure Places (r : OidcModel) (s s' : State) : Prop where
  placed : s'.placed = s.place r
  generated : s.generated <+: s'.generated
  lost : s'.lost = s.lost
  keys : (s'.records.map OidcModel.key).Nodup
  records : ∀ x ∈ s'.records, x ∈ s.records ∨ Known s' x

theorem places_upsert (h : Inv s) (hsession : r.modelName = .session) (hnone : r.grantId = none) :
    Places r s (s.upsert r) := by
  refine ⟨rfl, List.prefix_append _ _, rfl, keys_upsert h r, fun x hx => ?_⟩
  refine (mem_upsert h hx).imp id ?_
  rintro ⟨⟨_, _, rfl⟩, hrow⟩
  exact ⟨⟨hsession, hnone, hrow⟩,
    fun g hg => List.mem_append_right _ (List.mem_map.mpr ⟨g, hg, rfl⟩)⟩

/-- What an update places. -/
theorem places_update (h : Inv s) (hr : Generated s r) (read : OidcModel) :
    Places r s (s.update r read) := by
  refine ⟨rfl, List.prefix_refl _, rfl, ?_, fun x hx => ?_⟩
  · have hkeys : (s.update r read).records.map OidcModel.key = s.records.map OidcModel.key := by
      simp only [State.update, List.map_map]
      refine List.map_congr_left fun x _ => ?_
      simp only [Function.comp]
      split_ifs <;> rfl
    exact hkeys ▸ h.keys
  · obtain ⟨y, hy, rfl⟩ := List.mem_map.mp hx
    split_ifs with hid
    · -- the row has the entity's key, for which the primary key was generated
      have hkey : y.key = r.key := Option.some.inj ((h.rows y hy).symm.trans (hid ▸ hr.row))
      obtain ⟨hname, hoidc⟩ := Prod.mk.inj hkey
      have hy' : Known s y := (h.records y hy).resolve_left fun hp => hp.1 (hname.trans hr.session)
      refine .inr ⟨⟨hy'.session, ?_, hy'.row⟩, fun g hg => ?_⟩
      · change saveColumn _ _ _ = none
        unfold saveColumn
        split_ifs
        · exact hy'.noGrant
        · exact hr.noGrant
      · change g ∈ (saveColumn r.authorizations read.authorizations y.authorizations).filterMap
          Prod.snd at hg
        unfold saveColumn at hg
        split_ifs at hg
        · exact List.mem_append_left _ (hy'.grants g hg)
        · exact List.mem_append_right _ (List.mem_map.mpr ⟨g, hg, by rw [← hoidc]; rfl⟩)
    · exact .inl hy

/-- What an insert places. -/
theorem places_insert (h : Inv s) (hr : Generated s r) (hfree : s.conflicts r = false) :
    Places r s (s.insert r) := by
  rw [State.insert, if_neg (by simp [hfree])]
  refine ⟨rfl, List.prefix_refl _, rfl, ?_, fun x hx => ?_⟩
  · rw [List.map_append, List.nodup_append]
    refine ⟨h.keys, List.nodup_singleton _, fun a ha b hb => ?_⟩
    obtain ⟨x, hx, rfl⟩ := List.mem_map.mp ha
    obtain rfl := List.mem_singleton.mp hb
    intro hkey
    simpa [hkey] using List.any_eq_false.mp hfree x hx
  · rcases List.mem_append.mp hx with hx | hx
    · exact .inl hx
    · obtain rfl := List.mem_singleton.mp hx
      exact .inr ⟨⟨hr.session, hr.noGrant, hr.row⟩,
        fun g hg => List.mem_append_right _ (List.mem_map.mpr ⟨g, hg, rfl⟩)⟩

section Programs

variable {C : Label → State → Prop} {i : ℕ} {Q : State → Prop}

/-- Each grant of the session was put into it before, or is the grant of request `i`, which is in
no other session. -/
def OwnGrants (i : ℕ) (r : OidcModel) (s : State) : Prop :=
  ∀ g ∈ extractGrantIds r, (g, r.oidcId) ∈ s.placed ∨ g = i ∧ ∀ b, (i, b) ∈ s.placed → b = r.oidcId

/-- A session may be written with such grants. -/
theorem Inv.places (h : Inv s) (hp : Places r s s') (hgrants : OwnGrants i r s) :
    Inv s' ∧ ∀ j, j ≠ some i → contract.rely j s s' := by
  have hmem : ∀ g b, (g, b) ∈ s'.placed →
      (g, b) ∈ s.placed ∨ (b = r.oidcId ∧ g = i ∧ ∀ b', (i, b') ∈ s.placed → b' = r.oidcId) := by
    intro g b hgb
    rw [hp.placed] at hgb
    rcases List.mem_append.mp hgb with hold | hnew
    · exact .inl hold
    · obtain ⟨g', hg', heq⟩ := List.mem_map.mp hnew
      obtain ⟨rfl, rfl⟩ := Prod.mk.inj heq
      exact (hgrants g' hg').imp id fun h => ⟨rfl, h⟩
  have hsub : s.placed ⊆ s'.placed := hp.placed ▸ List.subset_append_left _ _
  refine ⟨⟨fun g a b ha hb => ?_, fun x hx => ?_, fun x hx => ?_, hp.keys,
    hp.lost.trans h.nothingLost⟩, fun j hj => ⟨hsub, hp.generated, ?_⟩⟩
  · rcases hmem g a ha with ha | ⟨rfl, rfl, hone⟩
    · rcases hmem g b hb with hb | ⟨rfl, rfl, hone⟩
      · exact h.single g a b ha hb
      · exact hone a ha
    · rcases hmem g b hb with hb | ⟨rfl, -, -⟩
      · exact (hone b hb).symm
      · rfl
  · rcases hp.records x hx with hold | hknown
    · exact (h.records x hold).imp id fun hk => hk.mono hsub hp.generated
    · exact .inr hknown
  · rcases hp.records x hx with hold | hknown
    · exact getElem?_of_prefix hp.generated (h.rows x hold)
    · exact hknown.row
  · rintro i' rfl b hb
    rcases hmem i' b hb with hb | ⟨-, rfl, -⟩
    · exact hb
    · exact absurd rfl hj

/-- The rule for a quiet statement. -/
theorem quiet_ok {α : Type} [Inhabited α] {l : Label} {f : State → State} {g : State → α}
    (hf : ∀ s, Inv s → Quiet s (f s)) (hQ : contract.Stable i Q) :
    contract.Ok C i (fun _ => Q) (Proc.perform l f g) Q := by
  refine Contract.Ok.perform (fun _ => hQ) fun s hi hq _ => ?_
  have hquiet := hf s hi
  have hinv := Inv.quiet hi hquiet
  exact ⟨hinv, fun j _ => hquiet.rely j, hQ s (f s) hi hinv hq (hquiet.rely _)⟩

/-- A row that is no session is written. -/
theorem upsert_plain_ok (hr : Plain r) (hgrants : r.authorizations = [])
    (hQ : contract.Stable i Q) : contract.Ok C i (fun _ => Q) (upsert r) Q := by
  refine quiet_ok (fun s hs => ⟨?_, List.prefix_append _ _, rfl, keys_upsert hs r,
    fun x hx => (mem_upsert hs hx).imp id ?_⟩) hQ
  · simp [State.upsert, State.place, extractGrantIds, hgrants]
  · rintro ⟨⟨_, _, rfl⟩, hrow⟩
    exact ⟨hr, hrow⟩

/-- A session is written by the provider. -/
theorem upsert_session_ok {P : State → Prop} (hsession : r.modelName = .session)
    (hnone : r.grantId = none) (hgrants : ∀ s, P s → OwnGrants i r s) :
    contract.Ok C i (fun _ _ => True) (upsert r) P := by
  refine Contract.Ok.perform (fun _ => .const True) fun s hi hP _ => ?_
  obtain ⟨hinv, hrely⟩ := Inv.places hi (places_upsert hi hsession hnone) (hgrants s hP)
  exact ⟨hinv, hrely, trivial⟩

/-- A session is saved by the repository. -/
theorem save_ok {P : State → Prop} (hP : contract.Stable i P) (hQ : contract.Stable i Q)
    (hr : ∀ s, P s → Generated s r) (hgrants : ∀ s, P s → OwnGrants i r s)
    (hPQ : ∀ s s', P s → Places r s s' → Q s') :
    contract.Ok C i (fun ok s => ok = true → Q s) (save r) P := by
  have hpost : ∀ ok, contract.Stable i fun s => ok = true → Q s :=
    fun ok s s' hi hi' h hrely hok => hQ s s' hi hi' (h hok) hrely
  refine (quiet_ok (fun s hs => hs.quiet_id) hP).bind fun read => ?_
  cases read with
  | some read =>
    refine Contract.Ok.perform hpost fun s hi hs _ => ?_
    have hplaces := places_update hi (hr s hs) read
    obtain ⟨hinv, hrely⟩ := Inv.places hi hplaces (hgrants s hs)
    exact ⟨hinv, hrely, fun _ => hPQ s _ hs hplaces⟩
  | none =>
    refine Contract.Ok.perform hpost fun s hi hs _ => ?_
    cases hfree : s.conflicts r with
    | true =>
      rw [State.insert, if_pos hfree]
      exact ⟨hi, fun j _ => (Inv.quiet_id hi).rely j, nofun⟩
    | false =>
      have hplaces := places_insert hi (hr s hs) hfree
      obtain ⟨hinv, hrely⟩ := Inv.places hi hplaces (hgrants s hs)
      exact ⟨hinv, hrely, fun _ => hPQ s _ hs hplaces⟩

/-! ## Enforcement -/

/-- The grants of evicted sessions have been put into them. -/
def Evicted (evicted : List AccountSession) (s : State) : Prop :=
  ∀ a ∈ evicted, ∀ g ∈ a.grantIds, (g, a.oidcId) ∈ s.placed

/-- What is claimed is in the table and may be evicted. -/
theorem mem_surplus {accountId limit : ℕ} {newSessionId : Option ℕ} {e : Enforcement}
    (hr : r ∈ s.surplus accountId limit newSessionId e) :
    r ∈ s.records ∧ s.overLimit accountId limit newSessionId e.now r = true := by
  have hnew : ∀ x : OidcModel, (newSessionId.all fun own => x.oidcId ≠ own) =
      decide (newSessionId ≠ some x.oidcId) := by
    intro x
    cases newSessionId <;> simp [eq_comm]
  simp only [State.surplus, hnew] at hr
  have hsorted := List.mem_of_mem_filter (List.mem_of_mem_drop hr)
  rw [List.mem_insertionSort] at hsorted
  obtain ⟨hmem, hcond⟩ := List.mem_filter.mp hsorted
  refine ⟨hmem, ?_⟩
  -- the rows before it in the scan are newer
  have htotal : Std.Total fun a b : OidcModel => newestFirst a.toSession b.toSession :=
    ⟨fun _ _ => Std.Total.total _ _⟩
  have htrans : IsTrans OidcModel fun a b => newestFirst a.toSession b.toSession :=
    ⟨fun _ _ _ => IsTrans.trans _ _ _⟩
  have hcount := SessionLimit.lt_countP_of_mem_drop
    (p := fun x => decide (newestFirst x.toSession r.toSession))
    (((List.pairwise_insertionSort _ _).sublist List.filter_sublist).imp fun hab hb => by
      simp only [decide_eq_true_eq] at hb ⊢
      exact htrans.trans _ _ _ hab hb) hr (by simp [newestFirst])
  replace hcount := hcount.trans_le List.filter_sublist.countP_le
  rw [(List.perm_insertionSort _ _).countP_eq, List.countP_filter] at hcount
  refine Bool.and_eq_true_iff.mpr ⟨hcond, decide_eq_true ?_⟩
  cases newSessionId with
  | none => exact hcount.trans_eq (Nat.zero_add _).symm
  | some own =>
    simp only [Option.isSome_some, if_true, Option.toList_some, List.length_singleton] at hcount ⊢
    omega

theorem overLimit_session {accountId limit now : ℕ} {newSessionId : Option ℕ}
    (h : s.overLimit accountId limit newSessionId now r = true) : r.modelName = .session := by
  simp only [State.overLimit, Bool.and_eq_true, decide_eq_true_eq] at h
  exact h.1.1.1.1

/-- A session in the table is known. -/
theorem Inv.known (h : Inv s) (hr : r ∈ s.records) (hsession : r.modelName = .session) :
    Known s r :=
  (h.records r hr).resolve_left fun hplain => hplain.1 hsession

/-- A record that `deleteSessions` deletes is an evicted session, or is or hangs off a grant of
one. -/
theorem deletedWith_cases (h : Inv s) {evicted : List AccountSession} (hr : r ∈ s.records)
    (hdeleted : deletedWith evicted r = true) :
    (r.modelName = .session ∧ r.oidcId ∈ evicted.map AccountSession.oidcId ∧ r.grant? = none) ∨
      (r.modelName ≠ .session ∧ ∃ a ∈ evicted, ∃ g ∈ a.grantIds, r.grant? = some g) := by
  simp only [deletedWith, Bool.or_eq_true, Bool.and_eq_true, decide_eq_true_eq,
    Option.any_eq_true, List.mem_flatMap] at hdeleted
  rcases hdeleted with (⟨hsession, hid⟩ | ⟨g, hg, a, ha, hga⟩) | ⟨hgrant, a, ha, hga⟩
  · refine .inl ⟨hsession, hid, ?_⟩
    rw [OidcModel.grant?, if_neg (by simp [hsession])]
    exact (h.known hr hsession).noGrant
  · refine .inr ?_
    rcases h.records r hr with hplain | hknown
    · refine ⟨hplain.1, a, ha, g, hga, ?_⟩
      by_cases hgrant : r.modelName = .grant
      · rw [hplain.2 hgrant] at hg
        simp at hg
      · rw [OidcModel.grant?, if_neg hgrant, hg]
    · rw [hknown.noGrant] at hg
      simp at hg
  · exact .inr ⟨by simp [hgrant], a, ha, r.oidcId, hga, by rw [OidcModel.grant?, if_pos hgrant]⟩

/-- The eviction of sessions loses nothing: a session that is kept refers to a grant that was put
into it, and hence not into an evicted one. -/
theorem isLoss_eq_false (h : Inv s) {evicted : List AccountSession}
    (hevicted : Evicted evicted s) (hr : r ∈ s.records)
    (hdeleted : deletedWith evicted r = true) :
    (s.remove (deletedWith evicted)).isLoss evicted r = false := by
  rw [← Bool.not_eq_true]
  intro hloss
  simp only [State.isLoss, Bool.or_eq_true, Bool.and_eq_true, decide_eq_true_eq, List.any_eq_true,
    Option.any_eq_true] at hloss
  rcases hloss with ⟨hsession, hnot⟩ | ⟨kept, hkept, hsession, g, hg, hrefers⟩
  · rcases deletedWith_cases h hr hdeleted with ⟨-, hid, -⟩ | ⟨hother, -⟩
    · exact hnot hid
    · exact hother hsession
  · obtain ⟨hkept, hstays⟩ := List.mem_filter.mp hkept
    rcases deletedWith_cases h hr hdeleted with ⟨-, -, hnone⟩ | ⟨-, a, ha, g', hg', hgrant⟩
    · rw [hnone] at hg
      simp at hg
    · obtain rfl : g' = g := Option.mem_unique hgrant hg
      have hsame : a.oidcId = kept.oidcId :=
        h.single g' _ _ (hevicted a ha g' hg') ((h.known hkept hsession).grants g' hrefers)
      have hid : kept.oidcId ∈ evicted.map AccountSession.oidcId :=
        hsame ▸ List.mem_map_of_mem ha
      simp [deletedWith, hsession, hid] at hstays

/-- A claim loses nothing. -/
theorem claim_quiet (h : Inv s) (accountId limit : ℕ) (newSessionId : Option ℕ)
    (e : Enforcement) :
    Quiet s (s.losing
      (fun r => !(s.overLimit accountId limit newSessionId e.now r &&
        r.oidcId ∈ (s.claimed accountId limit newSessionId e).map AccountSession.oidcId))
      (s.remove fun r => r.modelName = .session &&
        r.oidcId ∈ (s.surplus accountId limit newSessionId e).map OidcModel.oidcId)) := by
  refine h.quiet_losing fun r hr hclaimed => ?_
  simp only [Bool.and_eq_true, decide_eq_true_eq] at hclaimed
  obtain ⟨hsession, hid⟩ := hclaimed
  have hreturned : r.oidcId ∈
      (s.claimed accountId limit newSessionId e).map AccountSession.oidcId := by
    rw [State.claimed, List.map_map]
    exact hid
  obtain ⟨x, hx, hxr⟩ := List.mem_map.mp hid
  obtain ⟨hmem, hover⟩ := mem_surplus hx
  have hx' : x.modelName = .session := overLimit_session hover
  obtain rfl : x = r := List.inj_on_of_nodup_map h.keys hmem hr
    (Prod.ext (hx'.trans hsession.symm) hxr)
  simp [hover, hreturned]

/-- `enforce`. -/
theorem enforce_ok (accountId limit : ℕ) (newSessionId : Option ℕ) (e : Enforcement) :
    contract.Ok C i (fun _ _ => True) (enforce accountId limit newSessionId e)
      fun _ => True := by
  have hclaim : contract.Ok C i Evicted (claimSurplusSessions accountId limit newSessionId e)
      fun _ => True := by
    refine Contract.Ok.perform (fun evicted s s' _ _ h hr a ha g hg => hr.placed (h a ha g hg))
      fun s hi _ _ => ?_
    have hquiet := claim_quiet hi accountId limit newSessionId e
    refine ⟨Inv.quiet hi hquiet, fun j _ => hquiet.rely j, fun a ha g hg => ?_⟩
    obtain ⟨r, hr, rfl⟩ := List.mem_map.mp ha
    obtain ⟨hmem, hover⟩ := mem_surplus hr
    exact (Inv.known hi hmem (overLimit_session hover)).grants g hg
  unfold enforce
  split_ifs with hlimit
  · exact fun _ _ _ => trivial
  · refine hclaim.bind fun evicted => ?_
    split_ifs with hempty
    · exact fun _ _ _ => trivial
    · refine Contract.Ok.perform (fun _ => Contract.Stable.const True) fun s hi hevicted _ => ?_
      have hquiet : Quiet s (s.deleteSessions evicted) :=
        Inv.quiet_losing hi fun r hr hdeleted => isLoss_eq_false hi hevicted hr hdeleted
      exact ⟨Inv.quiet hi hquiet, fun j _ => hquiet.rely j, trivial⟩

/-! ## Logins and consents -/

/-- A new grant. -/
theorem createGrant_ok (accountId : ℕ) (hQ : contract.Stable i Q) :
    contract.Ok C i (fun _ => Q) (createGrant i accountId) Q :=
  upsert_plain_ok ⟨by simp, fun _ => rfl⟩ rfl hQ

/-- The tokens of a new grant. -/
theorem issueTokens_ok (accountId : ℕ) (hQ : contract.Stable i Q) :
    contract.Ok C i (fun _ => Q) (issueTokens i accountId) Q :=
  (upsert_plain_ok ⟨by simp, by simp⟩ rfl hQ).bind fun _ =>
    upsert_plain_ok ⟨by simp, by simp⟩ rfl hQ

/-- A login puts its grant into its own session. -/
theorem login_ok (accountId clientId limit createdAt : ℕ) (expiresAt : Option ℕ)
    (e : Enforcement) :
    contract.Ok C i (fun _ _ => True) (login i accountId clientId limit createdAt expiresAt e)
      (contract.start i) := by
  refine (createGrant_ok accountId (start_stable i)).bind fun _ => ?_
  refine (upsert_session_ok rfl rfl fun s hunused g hg => ?_).bind fun _ =>
    (issueTokens_ok accountId (.const True)).bind fun _ => enforce_ok accountId limit (some i) e
  have hg' : g = i := by simpa [extractGrantIds] using hg
  exact .inr ⟨hg', fun b hb => absurd hb (hunused b)⟩

/-- A consent puts its grant into the session that it was given for. -/
theorem consent_ok (sessionId clientId now : ℕ) :
    contract.Ok C i (fun _ _ => True) (consent i sessionId clientId now) (contract.start i) := by
  have hfind : contract.Ok C i
      (fun session s => (∀ r ∈ session.toList, Known s r) ∧ Unused i s)
      (find .session sessionId) (contract.start i) := by
    refine Contract.Ok.perform (fun session => (known_stable i _).and (start_stable i))
      fun s hi hunused _ => ⟨hi, fun j _ => (Inv.quiet_id hi).rely j, fun r hr => ?_, hunused⟩
    rw [Option.mem_toList] at hr
    have hcond := List.find?_some hr
    simp only [Bool.and_eq_true, decide_eq_true_eq] at hcond
    exact Inv.known hi (List.mem_of_find?_eq_some hr) hcond.1
  refine hfind.bind fun session => ?_
  cases session with
  | none => exact fun _ _ _ => trivial
  | some session =>
    have hstable : contract.Stable i fun s => (∀ r ∈ [session], Known s r) ∧ Unused i s :=
      (known_stable i [session]).and (start_stable i)
    refine Contract.Ok.pre (P := fun s => session.modelName = .session ∧
      session.grantId = none ∧ (∀ r ∈ [session], Known s r) ∧ Unused i s) ?_ fun s _ h => ?_
    · refine .assume fun hsession => .assume fun hnone => ?_
      refine (createGrant_ok session.accountId hstable).bind fun _ => ?_
      refine Contract.Ok.bind (upsert_session_ok ?_ ?_ fun s h g hg => ?_) fun _ =>
        issueTokens_ok session.accountId (.const True)
      · exact hsession
      · exact hnone
      have hg' : g ∈ extractGrantIds session ∨ g = i := by
        simp only [extractGrantIds, setAuthorization, List.filterMap_append, List.mem_append,
          List.mem_filterMap, List.mem_filter] at hg ⊢
        rcases hg with ⟨a, ⟨ha, -⟩, hag⟩ | ⟨a, ha, hag⟩
        · exact .inl ⟨a, ha, hag⟩
        · rw [List.mem_singleton] at ha
          subst ha
          exact .inr (Option.some.inj hag).symm
      rcases hg' with hold | rfl
      · exact .inl ((h.1 session (List.mem_singleton.mpr rfl)).grants g hold)
      · exact .inr ⟨rfl, fun b hb => absurd hb (h.2 b)⟩
    · have hknown := h.1 session (by simp)
      exact ⟨hknown.session, hknown.noGrant, h⟩

/-! ## The tenant switch -/

/-- What a tenant switch knows of the sessions that it still has to save: they are known, and if
one of them is to get the new grant, no session has it yet. -/
structure Rebinding (i clientId : ℕ) (rs : List OidcModel) (s : State) : Prop where
  known : ∀ r ∈ rs, Known s r
  unused : (∃ r ∈ rs, authorizes clientId r = true) → Unused i s

theorem rebinding_stable (clientId : ℕ) (rs : List OidcModel) :
    contract.Stable i (Rebinding i clientId rs) :=
  fun _ _ _ _ h hr => ⟨fun r hmem => (h.known r hmem).mono hr.placed hr.generated,
    fun hsome b hb => h.unused hsome b (hr.own i rfl b hb)⟩

/-- The grants of a session after the switch. -/
theorem mem_rebound {toId clientId g : ℕ} (hg : g ∈ extractGrantIds (rebound toId clientId i r)) :
    g ∈ extractGrantIds r ∨ (g = i ∧ authorizes clientId r = true) := by
  simp only [extractGrantIds, rebound, List.mem_filterMap, List.mem_map] at hg ⊢
  obtain ⟨a, ⟨a', ha', rfl⟩, hag⟩ := hg
  split_ifs at hag with hclient
  · refine .inr ⟨(Option.some.inj hag).symm, ?_⟩
    exact List.any_eq_true.mpr ⟨a', ha', decide_eq_true hclient⟩
  · exact .inl ⟨a', ha', hag⟩

/-- The sessions are saved, at most one of them with the new grant. -/
theorem saveRebound_ok (toId clientId : ℕ) (rs : List OidcModel)
    (hone : (rs.filter (authorizes clientId)).length ≤ 1) :
    contract.Ok C i (fun _ _ => True) (saveRebound toId clientId i rs)
      (Rebinding i clientId rs) := by
  induction rs with
  | nil => exact fun _ _ _ => trivial
  | cons r rest ih =>
    have hrest : (rest.filter (authorizes clientId)).length ≤ 1 :=
      (List.Sublist.filter _ (List.sublist_cons_self r rest)).length_le.trans hone
    refine Contract.Ok.bind (save_ok (rebinding_stable clientId (r :: rest))
      (rebinding_stable clientId rest) (fun s h => ?_) (fun s h g hg => ?_) fun s s' h hp => ?_)
      fun ok => ?_
    · have hr := h.known r List.mem_cons_self
      exact ⟨hr.session, hr.noGrant, hr.row⟩
    · rcases mem_rebound hg with hold | ⟨rfl, hauth⟩
      · exact .inl ((h.known r List.mem_cons_self).grants g hold)
      · refine .inr ⟨rfl, fun b hb => ?_⟩
        exact absurd hb (h.unused ⟨r, List.mem_cons_self, hauth⟩ b)
    · refine ⟨fun x hx => (h.known x (List.mem_cons_of_mem _ hx)).mono
        (hp.placed ▸ List.subset_append_left _ _) hp.generated, ?_⟩
      rintro ⟨x, hx, hauth⟩ b hb
      -- another session is still to get the grant, so that this one has not got it
      have hnot : authorizes clientId r ≠ true := by
        intro hr'
        rw [List.filter_cons_of_pos hr', List.length_cons] at hone
        have hpos := List.length_pos_of_mem (List.mem_filter.mpr ⟨hx, hauth⟩)
        omega
      have hunused := h.unused ⟨x, List.mem_cons_of_mem _ hx, hauth⟩
      rw [hp.placed] at hb
      rcases List.mem_append.mp hb with hb | hb
      · exact hunused b hb
      · obtain ⟨g, hg, heq⟩ := List.mem_map.mp hb
        obtain ⟨rfl, rfl⟩ := Prod.mk.inj heq
        rcases mem_rebound hg with hold | ⟨-, hr'⟩
        · exact hunused _ ((h.known r List.mem_cons_self).grants _ hold)
        · exact hnot hr'
    · cases ok with
      | true => exact (ih hrest).pre fun _ _ h => h rfl
      | false => exact fun _ _ _ => trivial

/-- `rebindSessionsToAccount`, when at most one session has authorized the client. -/
theorem rebind_ok (hC : ∀ l s, C l s → rebindsOne l s = true) (fromId toId clientId : ℕ) :
    contract.Ok C i (fun _ _ => True) (rebindSessionsToAccount fromId toId clientId i)
      (contract.start i) := by
  have hread : contract.Ok C i
      (fun rs s => (rs.filter (authorizes clientId)).length ≤ 1 ∧ Rebinding i clientId rs s)
      (Proc.perform (.rebind fromId clientId) id (State.sessionsOf fromId)) (contract.start i) := by
    refine Contract.Ok.perform
      (fun rs => (Contract.Stable.const _).and (rebinding_stable clientId rs))
      fun s hi hunused hc => ⟨hi, fun j _ => (Inv.quiet_id hi).rely j, ?_, fun r hr => ?_,
        fun _ => hunused⟩
    · simpa [rebindsOne] using hC _ _ hc
    · obtain ⟨hmem, hcond⟩ := List.mem_filter.mp hr
      simp only [Bool.and_eq_true, decide_eq_true_eq] at hcond
      exact Inv.known hi hmem hcond.1
  exact hread.bind fun rs => .assume fun hone => saveRebound_ok toId clientId rs hone

/-- `revokeGrant`. -/
theorem revokeGrant_ok (grantId : ℕ) :
    contract.Ok C i (fun _ => contract.start i) (revokeGrant grantId) (contract.start i) := by
  have hdelete : ∀ p, contract.Ok C i (fun _ => contract.start i) (deleteWhere p)
      (contract.start i) := fun p => quiet_ok (fun s hs => hs.quiet_remove p) (start_stable i)
  exact (quiet_ok (fun s hs => hs.quiet_id) (start_stable i)).bind fun _ =>
    (hdelete _).bind fun _ => (hdelete _).bind fun _ => hdelete _

/-- The read of the caller's token. -/
theorem previousGrant_ok (auth : AuthContext) :
    contract.Ok C i (fun _ => contract.start i) (previousGrant auth) (contract.start i) := by
  unfold previousGrant
  cases auth.jti with
  | none => exact fun _ _ h => h
  | some jti => exact (quiet_ok (fun s hs => hs.quiet_id) (start_stable i)).bind fun _ _ _ h => h

/-- `switchTenant`, when at most one session has authorized the client. -/
theorem switchTenant_ok (hC : ∀ l s, C l s → rebindsOne l s = true) (auth : AuthContext)
    (target : ℕ) :
    contract.Ok C i (fun _ _ => True) (switchTenant i auth target) (contract.start i) := by
  refine (previousGrant_ok auth).bind fun previous => ?_
  refine (createGrant_ok target (start_stable i)).bind fun _ => ?_
  refine (issueTokens_ok target (start_stable i)).bind fun _ => ?_
  have hrevoke : contract.Ok C i (fun _ => contract.start i) (revokePrevious i previous)
      (contract.start i) := by
    cases previous with
    | none => exact fun _ _ h => h
    | some previous =>
      rw [revokePrevious]
      split_ifs
      · exact revokeGrant_ok previous
      · exact fun _ _ h => h
  refine hrevoke.bind fun _ => (rebind_ok hC auth.sub target auth.clientId).bind fun _ => ?_
  split_ifs
  · exact quiet_ok (fun s hs => hs.quiet_remove _) (.const True)
  · exact fun _ _ _ => trivial

end Programs

/-! ## Whole runs -/

/-- The provider's programs follow their contract. -/
theorem provider_follows (limit : ℕ) :
    Contract.Follows (provider limit) contract fun l s => rebindsOne l s = true where
  start := start_stable
  prog r i := by
    cases r with
    | login accountId clientId createdAt expiresAt e =>
      exact login_ok accountId clientId limit createdAt expiresAt e
    | consent sessionId clientId now => exact consent_ok sessionId clientId now
    | switchTenant auth target => exact switchTenant_ok (fun _ _ h => h) auth target
    | enforce accountId newSessionId e =>
      exact (enforce_ok accountId limit newSessionId e).pre fun _ _ _ => trivial
  crash g hg := by simp [provider] at hg

/-- **Kept sessions keep their grants.**  In every run in which no tenant switch finds two sessions
that have authorized the client, the limit's enforcement claims only sessions over the limit, never
the new one, and deletes only those and records of grants that no session which is left refers
to. -/
theorem kept_sessions_keep_grants (limit : ℕ) (c : Config State Label)
    (hc : Reach (provider limit) (fun l s => rebindsOne l s = true) State.empty c) :
    c.state.lost = [] := by
  have h₀ : Inv State.empty :=
    ⟨fun _ _ _ => nofun, fun _ => nofun, fun _ => nofun, List.nodup_nil, rfl⟩
  have hs : ∀ i, contract.start i State.empty := fun _ _ hb => by simp [State.empty] at hb
  exact (Contract.sound (provider_follows limit) h₀ hs hc).inv.nothingLost

def sampleEnforcement : Enforcement := ⟨50, []⟩

/-- Each of the requests runs before the next one begins. -/
def inOrder (rs : List Request) (steps : List ℕ) : List (Move Request) :=
  rs.map .spawn ++ steps.zipIdx.flatMap fun x => List.replicate x.1 (.run x.2)

/-- One session, a switch from account 10 to account 20, and two logins there: the session that
was switched is evicted. -/
def oneSession : List (Move Request) :=
  inOrder [.login 10 1 1 none sampleEnforcement, .switchTenant ⟨10, 1, some 0⟩ 20,
    .login 20 1 2 none sampleEnforcement, .login 20 1 3 none sampleEnforcement] [5, 12, 5, 6]

/-- Two sessions, the same switch, and one login there. -/
def twoSessions : List (Move Request) :=
  inOrder [.login 10 1 1 none sampleEnforcement, .login 10 1 2 none sampleEnforcement,
    .switchTenant ⟨10, 1, some 0⟩ 20, .login 20 1 3 none sampleEnforcement] [5, 5, 14, 6]

/-- A switch that finds one session: its eviction loses nothing. -/
theorem kept_sessions_keep_grants_one :
    ∃ c, Reach (provider 2) (fun l s => rebindsOne l s = true) State.empty c ∧
      (c.state.records.filter fun r => r.modelName = .session).map OidcModel.oidcId = [2, 3] ∧
      c.state.lost = [] := by
  have hresult : (((provider 2).execIf rebindsOne ⟨State.empty, []⟩ oneSession).map fun c =>
      (c.state.records.filter fun r => r.modelName = .session).map OidcModel.oidcId) =
        some [2, 3] := by
    decide +kernel
  obtain ⟨c, hexec, hsessions⟩ := Option.map_eq_some_iff.mp hresult
  have hreach := reach_execIf hexec
  exact ⟨c, hreach, hsessions, kept_sessions_keep_grants 2 c hreach⟩

/-- **A shared grant is lost.**  The switch gives grant 2 to both sessions, and the eviction of
session 0 deletes the grant and the tokens of session 1, which is kept. -/
theorem shared_grant_lost :
    ∃ c, Reach (provider 2) Always State.empty c ∧
      (∃ r ∈ c.state.records, r.modelName = .session ∧ r.oidcId = 1 ∧ extractGrantIds r = [2]) ∧
      c.state.lost.map (fun r => (r.modelName, r.oidcId)) =
        [(.grant, 2), (.accessToken, 2), (.refreshToken, 2)] := by
  have hresult : (((provider 2).exec ⟨State.empty, []⟩ twoSessions).map fun c =>
      (c.state.records.any fun r => r.modelName = .session && r.oidcId = 1 &&
          extractGrantIds r = [2],
        c.state.lost.map fun r => (r.modelName, r.oidcId))) =
      some (true, [(.grant, 2), (.accessToken, 2), (.refreshToken, 2)]) := by
    decide +kernel
  obtain ⟨c, hexec, hpair⟩ := Option.map_eq_some_iff.mp hresult
  obtain ⟨hany, hlost⟩ := Prod.mk.inj hpair
  obtain ⟨r, hr, hcond⟩ := List.any_eq_true.mp hany
  simp only [Bool.and_eq_true, decide_eq_true_eq] at hcond
  exact ⟨c, reach_exec hexec, ⟨r, hr, hcond.1.1, hcond.1.2, hcond.2⟩, hlost⟩

end DigitalTrust.SessionGrants
