/-
# The upstream token of a session

A login stages the upstream id token that it has obtained as a pending row of
`oidc_upstream_session`.  When the provider saves the session, the `session.saved` handler links the
latest pending row of the same user to the session; nothing else says which login a row belongs to.
The handler is not awaited and is started by every save of a session, so that handlers overlap.

Every query of a handler is a statement of its own, and may fail.  A pending row has the number of
the process of its login as its id.  `holding` says which handlers have found a pending row and
have not ended yet.
-/
import DigitalTrust.Journal
import DigitalTrust.OperationService

namespace DigitalTrust.UpstreamTokens

open Interleaving Relational

/-! ## State -/

/-- A row of `oidc_upstream_session`. -/
structure OidcUpstreamSession where
  oidcModelId : Option ℕ
  oidcSessionUid : Option String
  tenantUserId : String
  upstreamSubject : String
  upstreamIdToken : String
  createdAt : ℕ
  expiresAt : Option ℕ
  deriving DecidableEq

/-- The row of `oidc_model` of a session. -/
structure SessionModel where
  id : ℕ
  accountId : String
  deriving DecidableEq

inductive Event where
  /-- The login has obtained a token for an account. -/
  | staged (login : ℕ) (tenantUserId upstreamIdToken : String)
  /-- The login has created or authenticated the session. -/
  | signedIn (login : ℕ) (uid : String)
  /-- The handler that this has started is through. -/
  | finalized (login : ℕ)
  deriving DecidableEq

/-- A handler that has found a pending row for its session. -/
structure Hold where
  process : ℕ
  uid : String
  pending : ℕ

/-- The time, the tables, what has happened, and the handlers that hold a row. -/
structure State where
  now : ℕ
  models : String → Option SessionModel
  rows : Table ℕ OidcUpstreamSession
  log : List Event
  holding : List Hold

def State.empty : State := ⟨0, fun _ => none, ⟨[], List.nodup_nil⟩, [], []⟩

/-- The logins that have authenticated a session, in their order. -/
def signIns (uid : String) (log : List Event) : List ℕ :=
  log.filterMap fun
    | .signedIn login u => if u = uid then some login else none
    | _ => none

/-- The login that has created or last authenticated a session. -/
def lastLogin (uid : String) (log : List Event) : Option ℕ := (signIns uid log).getLast?

/-- The account that a login has obtained a token for. -/
def accountOf (login : ℕ) (log : List Event) : Option String :=
  log.findSome? fun
    | .staged l account _ => if l = login then some account else none
    | _ => none

/-- The login has authenticated a session. -/
def hasSignedIn (login : ℕ) (log : List Event) : Bool :=
  log.any fun
    | .signedIn l _ => l = login
    | _ => false

/-! ## Queries -/

/-- How `ORDER BY created_at DESC` with one row is answered; rows created at the same time may come
in any order. -/
structure Latest where
  pick : List (ℕ × OidcUpstreamSession) → Option (ℕ × OidcUpstreamSession)
  mem : ∀ {rows x}, pick rows = some x → x ∈ rows
  le : ∀ {rows x}, pick rows = some x → ∀ y ∈ rows, y.2.createdAt ≤ x.2.createdAt
  isNone : ∀ {rows}, pick rows = none → rows = []

/-- When a row was created. -/
def creation (x : ℕ × OidcUpstreamSession) : ℕ := x.2.createdAt

/-- One way of answering it. -/
def Latest.argmax : Latest where
  pick rows := rows.argmax creation
  mem h := List.argmax_mem h
  le h y hy := (List.le_of_mem_argmax hy h : creation y ≤ _)
  isNone h := List.argmax_eq_none.mp h

/-- A pending row of the user that has not expired. -/
def isPending (now : ℕ) (tenantUserId : String) (r : OidcUpstreamSession) : Bool :=
  r.tenantUserId = tenantUserId && r.oidcModelId = none && r.expiresAt.all (now < ·)

def findLatestPending (db : Latest) (tenantUserId : String) (s : State) :
    Option (ℕ × OidcUpstreamSession) :=
  db.pick (s.rows.select fun _ r => isPending s.now tenantUserId r)

def findByOidcSessionUid (uid : String) (s : State) : Option (ℕ × OidcUpstreamSession) :=
  s.rows.first fun _ r => r.oidcSessionUid = some uid

/-- The columns of a `save`. -/
def OidcUpstreamSession.save (entity read current : OidcUpstreamSession) : OidcUpstreamSession where
  oidcModelId := saveColumn entity.oidcModelId read.oidcModelId current.oidcModelId
  oidcSessionUid := saveColumn entity.oidcSessionUid read.oidcSessionUid current.oidcSessionUid
  tenantUserId := saveColumn entity.tenantUserId read.tenantUserId current.tenantUserId
  upstreamSubject := saveColumn entity.upstreamSubject read.upstreamSubject current.upstreamSubject
  upstreamIdToken := saveColumn entity.upstreamIdToken read.upstreamIdToken current.upstreamIdToken
  createdAt := saveColumn entity.createdAt read.createdAt current.createdAt
  expiresAt := saveColumn entity.expiresAt read.expiresAt current.expiresAt

/-- `uq_oidc_upstream_session_model` and `uq_oidc_upstream_session_uid` accept the row. -/
def accepts (rows : Table ℕ OidcUpstreamSession) (id : ℕ) (r : OidcUpstreamSession) : Bool :=
  rows.rows.all fun x => x.1 = id ||
    ((r.oidcModelId = none || x.2.oidcModelId ≠ r.oidcModelId) &&
      (r.oidcSessionUid = none || x.2.oidcSessionUid ≠ r.oidcSessionUid))

/-! ## Programs -/

inductive Label where
  | step
  /-- The search of a handler, and the login that has started it. -/
  | findPending (uid tenantUserId : String) (own : Option ℕ)
  | signIn (login : ℕ) (uid : String)

abbrev Program := Proc State Label Unit

/-- The row that the second statement of a `save` leaves; `none` if an index refuses it.  A row that
was not found before is inserted. -/
def stored (id : ℕ) (entity : OidcUpstreamSession) (read : Option OidcUpstreamSession) (s : State) :
    Option State :=
  match read with
  | none =>
    if accepts s.rows id entity then (s.rows.insert id entity).map fun t => { s with rows := t }
    else none
  | some read => match s.rows.row id with
    | none => some s
    | some current =>
      if accepts s.rows id (entity.save read current) then
        some { s with rows := s.rows.update (fun k _ => k = id) fun _ => entity.save read current }
      else none

/-- The handler does not hold a row any more. -/
def State.release (i : ℕ) (s : State) : State :=
  { s with holding := s.holding.filter fun h => h.process ≠ i }

/-- A handler that has failed; the error is logged. -/
def abandon (i : ℕ) : Program := .statement .step false (·.release i) () fun _ => .ret ()

def finish (i : ℕ) (own : Option ℕ) : Program :=
  .statement .step false
    (fun s => { s.release i with log := s.log ++ own.toList.map .finalized }) () fun _ => .ret ()

def save (i id : ℕ) (entity : OidcUpstreamSession) (k : Program) : Program :=
  .attempt .step (fun s => s) (abandon i) fun s =>
    if s.rows.row id = some entity then k
    else
      let read := s.rows.row id
      .attempt .step (fun s => (stored id entity read s).getD s) (abandon i) fun s =>
        if (stored id entity read s).isSome then k else abandon i

/-- The existing row with what the pending one holds. -/
def OidcUpstreamSession.copy (existing pending : OidcUpstreamSession) (oidcModelId : ℕ) :
    OidcUpstreamSession :=
  { existing with
    oidcModelId := some oidcModelId
    tenantUserId := pending.tenantUserId
    upstreamSubject := pending.upstreamSubject
    upstreamIdToken := pending.upstreamIdToken
    expiresAt := pending.expiresAt }

def OidcUpstreamSession.link (pending : OidcUpstreamSession) (oidcModelId : ℕ) (uid : String) :
    OidcUpstreamSession :=
  { pending with oidcModelId := some oidcModelId, oidcSessionUid := some uid }

/-- The search for a pending row notes who has found one. -/
def State.hold (db : Latest) (i : ℕ) (uid tenantUserId : String) (s : State) : State :=
  { s with
    holding := s.holding ++ (findLatestPending db tenantUserId s).toList.map fun x =>
      ⟨i, uid, x.1⟩ }

def finalizeUpstreamSession (db : Latest) (i oidcModelId : ℕ) (uid tenantUserId : String)
    (own : Option ℕ) : Program :=
  .attempt (.findPending uid tenantUserId own) (·.hold db i uid tenantUserId) (abandon i) fun s =>
    match findLatestPending db tenantUserId s with
    | none => finish i own
    | some pending =>
      .attempt .step (fun s => s) (abandon i) fun s =>
        match findByOidcSessionUid uid s with
        | none => save i pending.1 (pending.2.link oidcModelId uid) (finish i own)
        | some existing =>
          if existing.1 ≠ pending.1 then
            save i existing.1 (existing.2.copy pending.2 oidcModelId) <|
            .attempt .step (fun s => { s with rows := s.rows.delete fun id _ => id = pending.1 })
              (abandon i) fun _ => finish i own
          else save i pending.1 (pending.2.link oidcModelId uid) (finish i own)

/-- `finalizePendingUpstreamSession`, the handler of `session.saved`. -/
def finalizePendingUpstreamSession (db : Latest) (i : ℕ) (uid accountId : String)
    (own : Option ℕ) : Program :=
  if uid = "" ∨ accountId = "" then .ret ()
  else
    .attempt .step (fun s => s) (abandon i) fun s =>
      match s.models uid with
      | none => .ret ()
      | some model => finalizeUpstreamSession db i model.id uid accountId own

/-- The session that a login authenticates: a new one, or one of the same account. -/
def signInModel (i : ℕ) (accountId : String) : Option SessionModel → Option SessionModel
  | none => some ⟨i, accountId⟩
  | some model => if model.accountId = accountId then some model else none

/-- Whether and how the provider saves a session for a login: a login that has staged its token and
has not been used yet. -/
def signInTo (i login : ℕ) (uid : String) (s : State) : Option SessionModel :=
  if hasSignedIn login s.log then none
  else (accountOf login s.log).bind fun account => signInModel i account (s.models uid)

/-- The save of a session by a login. -/
def State.signIn (i login : ℕ) (uid : String) (s : State) : State :=
  match signInTo i login uid s with
  | none => s
  | some model =>
    { s with
      models := Function.update s.models uid (some model)
      log := s.log ++ [.signedIn login uid] }

inductive Request where
  /-- The callback of a login stages its token. -/
  | callback (tenantUserId upstreamSubject upstreamIdToken : String) (expiresAt : Option ℕ)
  /-- The provider saves a session that the login has created or authenticated. -/
  | signIn (login : ℕ) (uid : String)
  /-- The provider saves a session that exists already. -/
  | saved (uid : String)
  /-- Time passes. -/
  | wait (time : ℕ)

/-- `stagePendingUpstreamSession`. -/
def State.stage (i : ℕ) (tenantUserId upstreamSubject upstreamIdToken : String)
    (expiresAt : Option ℕ) (s : State) : State :=
  match s.rows.insert i ⟨none, none, tenantUserId, upstreamSubject, upstreamIdToken, s.now,
      expiresAt⟩ with
  | none => s
  | some rows =>
    { s with rows, log := s.log ++ [.staged i tenantUserId upstreamIdToken] }

def provider (db : Latest) : System State Label Request where
  prog
    | .callback tenantUserId upstreamSubject upstreamIdToken expiresAt, i =>
      .statement .step true (·.stage i tenantUserId upstreamSubject upstreamIdToken expiresAt) ()
        fun _ => .ret ()
    | .signIn login uid, i =>
      .statement (.signIn login uid) true (·.signIn i login uid) () fun s =>
        match signInTo i login uid s with
        | none => .ret ()
        | some model => finalizePendingUpstreamSession db i uid model.accountId (some login)
    | .saved uid, i =>
      .statement .step true (fun s => s) () fun s =>
        match s.models uid with
        | none => .ret ()
        | some model => finalizePendingUpstreamSession db i uid model.accountId none
    | .wait time, _ =>
      .statement .step false (fun s => { s with now := s.now + time }) () fun _ => .ret ()
  crash := none

/-! ## What is promised -/

/-- The token of the row was obtained by the login. -/
def TokenOf (log : List Event) (login : ℕ) (r : OidcUpstreamSession) : Prop :=
  .staged login r.tenantUserId r.upstreamIdToken ∈ log

instance (log : List Event) (login : ℕ) (r : OidcUpstreamSession) :
    Decidable (TokenOf log login r) :=
  inferInstanceAs (Decidable (_ ∈ log))

/-- The token of the row was obtained by a login of the session, and by the last one unless the
handler of that one is not through yet. -/
def Own (log : List Event) (uid : String) (r : OidcUpstreamSession) : Prop :=
  ∃ login ∈ signIns uid log, TokenOf log login r ∧
    (lastLogin uid log = some login ∨
      ∃ last, lastLogin uid log = some last ∧ .finalized last ∉ log)

/-- Every token that is linked to a session is its own. -/
def TokensOwn (s : State) : Prop :=
  ∀ uid model id r, s.models uid = some model → s.rows.row id = some r →
    r.oidcModelId = some model.id → Own s.log uid r

/-- A search finds a row of the login that last authenticated the session; that login's own handler
finds one unless its token is linked already.  No session is authenticated while a handler holds a
row for it. -/
def paired (db : Latest) : Label → State → Bool
  | .step, _ => true
  | .findPending uid tenantUserId own, s =>
    match findLatestPending db tenantUserId s with
    | some pending => lastLogin uid s.log = some pending.1
    | none => own.all fun login => lastLogin uid s.log ≠ some login ||
        (findByOidcSessionUid uid s).any fun x => TokenOf s.log login x.2
  | .signIn _ uid, s => s.holding.all fun h => h.uid ≠ uid

/-! ## Logins in the log -/

variable {uid : String} {o : Option ℕ}

/-- The logins that signed a user in. -/
theorem mem_signIns {log : List Event} {login : ℕ} :
    login ∈ signIns uid log ↔ .signedIn login uid ∈ log := by
  rw [signIns, List.mem_filterMap]
  constructor
  · rintro ⟨e, he, heq⟩
    cases e with
    | signedIn l u =>
      simp only [Option.ite_none_right_eq_some, Option.some.injEq] at heq
      obtain ⟨rfl, rfl⟩ := heq
      exact he
    | staged l a t => simp at heq
    | finalized l => simp at heq
  · exact fun h => ⟨_, h, by simp⟩

theorem signIns_append (uid : String) (log more : List Event) :
    signIns uid (log ++ more) = signIns uid log ++ signIns uid more :=
  List.filterMap_append

theorem mem_of_lastLogin {log : List Event} {login : ℕ} (h : lastLogin uid log = some login) :
    .signedIn login uid ∈ log :=
  mem_signIns.mp (List.mem_of_getLast? h)

/-- Events that authenticate no session leave its logins alone. -/
theorem signIns_append_of_nil {log more : List Event} (h : signIns uid more = []) :
    signIns uid (log ++ more) = signIns uid log := by
  rw [signIns_append, h, List.append_nil]

theorem lastLogin_append_of_nil {log more : List Event} (h : signIns uid more = []) :
    lastLogin uid (log ++ more) = lastLogin uid log := by
  rw [lastLogin, signIns_append_of_nil h, lastLogin]

/-- A login that is the last one later was so as soon as it had authenticated the session. -/
theorem lastLogin_of_prefix {log log' : List Event} (hlog : log <+: log')
    (hnodup : (signIns uid log').Nodup) {login : ℕ} (hmem : login ∈ signIns uid log)
    (hlast : lastLogin uid log' = some login) : lastLogin uid log = some login := by
  obtain ⟨more, rfl⟩ := hlog
  rw [signIns_append, List.nodup_append] at hnodup
  rw [lastLogin, signIns_append] at hlast
  rcases List.eq_nil_or_concat (signIns uid more) with hnil | ⟨init, last, hconcat⟩
  · rwa [hnil, List.append_nil] at hlast
  · have heq : last = login := by simpa [hconcat] using hlast
    have hlater : login ∈ signIns uid more := by simp [hconcat, heq]
    exact absurd rfl (hnodup.2.2 login hmem login hlater)

theorem hasSignedIn_eq_false {login : ℕ} {log : List Event} (h : hasSignedIn login log = false)
    (uid : String) : .signedIn login uid ∉ log := by
  intro hmem
  rw [hasSignedIn, List.any_eq_false] at h
  simpa using h _ hmem

/-- A login is appended to the logins of the session it authenticates, and to no other's. -/
theorem signIns_signedIn (login : ℕ) (uid : String) (log : List Event) :
    signIns uid (log ++ [.signedIn login uid]) = signIns uid log ++ [login] := by
  rw [signIns_append]
  simp [signIns]

theorem signIns_signedIn_of_ne {u : String} (login : ℕ) (h : u ≠ uid) :
    signIns u [.signedIn login uid] = [] := by
  simp [signIns, h.symm]

theorem nodup_signIns_signedIn {log : List Event} {login : ℕ}
    (hnever : ∀ u, .signedIn login u ∉ log) {u : String} (h : (signIns u log).Nodup) :
    (signIns u (log ++ [.signedIn login uid])).Nodup := by
  by_cases hu : u = uid
  · subst hu
    rw [signIns_signedIn, List.nodup_append]
    refine ⟨h, by simp, fun a ha b hb hab => ?_⟩
    rw [List.mem_singleton] at hb
    exact hnever u (mem_signIns.mp (hb ▸ hab ▸ ha))
  · rwa [signIns_append_of_nil (signIns_signedIn_of_ne login hu)]

/-- Events that neither authenticate the session nor end a handler leave its token alone. -/
theorem Own.append {log more : List Event} {r : OidcUpstreamSession} (h : Own log uid r)
    (hnil : signIns uid more = []) (hopen : ∀ login, .finalized login ∉ more) :
    Own (log ++ more) uid r := by
  obtain ⟨login, hlogin, htoken, hlast⟩ := h
  rw [Own, signIns_append_of_nil hnil, lastLogin_append_of_nil hnil]
  refine ⟨login, hlogin, List.mem_append_left _ htoken, hlast.imp_right ?_⟩
  rintro ⟨last, hlast, hnot⟩
  exact ⟨last, hlast, by simpa [hopen] using hnot⟩

/-- A session keeps an earlier login's token until the handler of the new one is through. -/
theorem Own.signedIn {log : List Event} {r : OidcUpstreamSession} {login : ℕ} {u : String}
    (h : Own log u r) (hopen : .finalized login ∉ log) :
    Own (log ++ [.signedIn login uid]) u r := by
  by_cases hu : u = uid
  · subst hu
    obtain ⟨l, hl, htoken, -⟩ := h
    refine ⟨l, ?_, List.mem_append_left _ htoken, .inr ⟨login, ?_, by simpa using hopen⟩⟩
    · rw [signIns_signedIn]
      exact List.mem_append_left _ hl
    · rw [lastLogin, signIns_signedIn]
      simp
  · exact h.append (signIns_signedIn_of_ne login hu) (by simp)

/-! ## Contract -/

structure Invariant (s : State) : Prop where
  stagedOnce : ∀ {login a t a' t'}, .staged login a t ∈ s.log → .staged login a' t' ∈ s.log →
    a = a' ∧ t = t'
  oneSession : ∀ {login uid uid'}, .signedIn login uid ∈ s.log → .signedIn login uid' ∈ s.log →
    uid = uid'
  signInsNodup : ∀ uid, (signIns uid s.log).Nodup
  finalizedSigned : ∀ {login}, .finalized login ∈ s.log → ∃ uid, .signedIn login uid ∈ s.log
  modelIds : ∀ {uid uid' m m'}, s.models uid = some m → s.models uid' = some m' → m.id = m'.id →
    uid = uid'
  rowStaged : ∀ {id r}, s.rows.row id = some r → ∃ a t, .staged id a t ∈ s.log
  /-- A row is pending with its own token, or linked to a session by both columns. -/
  sync : ∀ {id r}, s.rows.row id = some r →
    (r.oidcSessionUid = none ∧ r.oidcModelId = none ∧ TokenOf s.log id r) ∨
    ∃ uid m, r.oidcSessionUid = some uid ∧ s.models uid = some m ∧ r.oidcModelId = some m.id ∧
      .signedIn id uid ∈ s.log
  unique : ∀ {id id' r r' uid}, s.rows.row id = some r → s.rows.row id' = some r' →
    r.oidcSessionUid = some uid → r'.oidcSessionUid = some uid → id = id'
  token : ∀ {id r uid}, s.rows.row id = some r → r.oidcSessionUid = some uid → Own s.log uid r
  holds : ∀ {h}, h ∈ s.holding → lastLogin h.uid s.log = some h.pending

/-- What a statement of another process may do. -/
structure Rely (o : Option ℕ) (s s' : State) : Prop where
  log : s.log <+: s'.log
  models : ∀ {uid m}, s.models uid = some m → s'.models uid = some m
  held : ∀ {h}, h ∈ s.holding → o = some h.process → h ∈ s'.holding
  linked : ∀ {id r uid}, s.rows.row id = some r → r.oidcSessionUid = some uid →
    ∃ r', s'.rows.row id = some r' ∧ r'.oidcSessionUid = some uid
  /-- A linked row is as before, or has got the token of the last login. -/
  rows : ∀ {id r' uid}, s'.rows.row id = some r' → r'.oidcSessionUid = some uid →
    (∃ r, s.rows.row id = some r ∧ r.oidcSessionUid = some uid ∧
      r.tenantUserId = r'.tenantUserId ∧ r.upstreamIdToken = r'.upstreamIdToken) ∨
    ∃ login, lastLogin uid s.log = some login ∧ TokenOf s.log login r' ∧
      (id = login ∨ ∃ r, s.rows.row id = some r ∧ r.oidcSessionUid = some uid)
  fresh : ∀ {i a t}, o = some i → .staged i a t ∈ s'.log → .staged i a t ∈ s.log
  freshModel : ∀ {i uid m}, o = some i → s'.models uid = some m → m.id = i →
    s.models uid = some m

/-- A row stays in step with its session when the log grows and sessions are kept. -/
theorem Invariant.sync_mono {s : State} (hs : Invariant s) {id : ℕ} {r : OidcUpstreamSession}
    (hrow : s.rows.row id = some r) {log : List Event} (hlog : s.log ⊆ log)
    {models : String → Option SessionModel}
    (hmodels : ∀ {uid m}, s.models uid = some m → models uid = some m) :
    (r.oidcSessionUid = none ∧ r.oidcModelId = none ∧ TokenOf log id r) ∨
    ∃ uid m, r.oidcSessionUid = some uid ∧ models uid = some m ∧ r.oidcModelId = some m.id ∧
      .signedIn id uid ∈ log := by
  rcases hs.sync hrow with ⟨huid, hmodel, htoken⟩ | ⟨uid, m, huid, hm, hmodel, hsigned⟩
  · exact .inl ⟨huid, hmodel, hlog htoken⟩
  · exact .inr ⟨uid, m, huid, hmodels hm, hmodel, hlog hsigned⟩

/-- Nothing belongs to a process that has not been started. -/
def Unused (i : ℕ) (s : State) : Prop :=
  (∀ a t, .staged i a t ∉ s.log) ∧ ∀ uid m, s.models uid = some m → m.id ≠ i

def contract : Contract State := ⟨Invariant, Rely, Unused⟩

theorem Unused.stable (i : ℕ) : contract.Stable i (Unused i) := by
  intro s s' _ _ hunused hrely
  exact ⟨fun a t h => hunused.1 a t (hrely.fresh rfl h),
    fun uid m hm hid => hunused.2 uid m (hrely.freshModel rfl hm hid) hid⟩

/-- A statement that changes neither the log nor the tables. -/
theorem Rely.of_same {s s' : State} (hlog : s'.log = s.log) (hmodels : s'.models = s.models)
    (hrows : s'.rows = s.rows)
    (hheld : ∀ {h}, h ∈ s.holding → o = some h.process → h ∈ s'.holding) : Rely o s s' where
  log := by rw [hlog]
  models h := by rwa [hmodels]
  held := hheld
  linked {id r uid} hr huid := ⟨r, by rwa [hrows], huid⟩
  rows {id r' uid} hr huid := .inl ⟨r', by rwa [← hrows], huid, rfl, rfl⟩
  fresh _ h := by rwa [hlog] at h
  freshModel _ h _ := by rwa [hmodels] at h

theorem Rely.refl {s : State} : Rely o s s := .of_same rfl rfl rfl fun h _ => h

/-- The invariant depends on the log, the tables and the holds. -/
theorem Invariant.of_same {s s' : State} (hs : Invariant s) (hlog : s'.log = s.log)
    (hmodels : s'.models = s.models) (hrows : s'.rows = s.rows)
    (hholds : ∀ {h}, h ∈ s'.holding → lastLogin h.uid s.log = some h.pending) : Invariant s' := by
  obtain ⟨now, models, rows, log, holding⟩ := s
  obtain ⟨now', models', rows', log', holding'⟩ := s'
  simp only at hlog hmodels hrows hholds
  subst hlog hmodels hrows
  exact ⟨hs.stagedOnce, hs.oneSession, hs.signInsNodup, hs.finalizedSigned, hs.modelIds,
    hs.rowStaged, hs.sync, hs.unique, hs.token, hholds⟩

/-! ## What a handler knows -/

section Handler

variable {i p x : ℕ} {uid acc tok : String} {m : SessionModel} {own : Option ℕ} {s s' : State}

/-- The handler of a session has been started, by a save of a login or by another one. -/
structure Started (uid : String) (m : SessionModel) (own : Option ℕ) (s : State) : Prop where
  model : s.models uid = some m
  signedIn : ∀ login, own = some login → .signedIn login uid ∈ s.log

/-- It holds the pending row of a login. -/
structure Holds (i p : ℕ) (uid acc tok : String) (m : SessionModel) (own : Option ℕ) (s : State) :
    Prop extends Started uid m own s where
  hold : ⟨i, uid, p⟩ ∈ s.holding
  staged : .staged p acc tok ∈ s.log

/-- The row that the handler is going to write: the pending one while no other is linked to the
session, or the one that is linked. -/
structure Target (p x : ℕ) (uid : String) (s : State) : Prop where
  signedIn : .signedIn x uid ∈ s.log
  row : (x = p ∧ ∀ {id r}, s.rows.row id = some r → r.oidcSessionUid = some uid → id = p) ∨
    ∃ r, s.rows.row x = some r ∧ r.oidcSessionUid = some uid

/-- Every row that is linked to the session has the token. -/
def Carries (uid acc tok : String) (s : State) : Prop :=
  ∀ id r, s.rows.row id = some r → r.oidcSessionUid = some uid →
    r.tenantUserId = acc ∧ r.upstreamIdToken = tok

/-- What was read of the target tells about the current row. -/
structure ReadBefore (x : ℕ) (uid acc tok : String) (m : SessionModel) (read : OidcUpstreamSession)
    (s : State) : Prop where
  model : read.oidcModelId = some m.id → read.oidcSessionUid = some uid
  linked : read.oidcSessionUid = some uid →
    ∃ r, s.rows.row x = some r ∧ r.oidcSessionUid = some uid
  account : read.tenantUserId = acc → ∀ r, s.rows.row x = some r → r.tenantUserId = acc
  token : read.upstreamIdToken = tok → ∀ r, s.rows.row x = some r → r.upstreamIdToken = tok

/-- A handler that a login has started may end: if that login is still the last one, its token is
linked. -/
def Ready (uid : String) (own : Option ℕ) (s : State) : Prop :=
  ∀ login, own = some login → .signedIn login uid ∈ s.log ∧
    (lastLogin uid s.log = some login →
      ∀ id r, s.rows.row id = some r → r.oidcSessionUid = some uid → TokenOf s.log login r)

theorem Holds.last (h : Holds i p uid acc tok m own s) (hs : Invariant s) :
    lastLogin uid s.log = some p := hs.holds h.hold

variable {r e : OidcUpstreamSession}

/-- While the row is held, a token that others link to the session is the held one. -/
theorem Holds.eq_of_tokenOf (h : Holds i p uid acc tok m own s) (hs : Invariant s) {login : ℕ}
    (hlast : lastLogin uid s.log = some login) (htoken : TokenOf s.log login r) :
    login = p ∧ r.tenantUserId = acc ∧ r.upstreamIdToken = tok := by
  obtain rfl : login = p := Option.mem_unique hlast (h.last hs)
  exact ⟨rfl, hs.stagedOnce htoken h.staged⟩

theorem Started.mono (h : Started uid m own s) (hr : Rely o s s') : Started uid m own s' :=
  ⟨hr.models h.model, fun login hown => hr.log.subset (h.signedIn login hown)⟩

theorem Holds.mono (h : Holds i p uid acc tok m own s) (hr : Rely (some i) s s') :
    Holds i p uid acc tok m own s' :=
  ⟨h.toStarted.mono hr, hr.held h.hold rfl, hr.log.subset h.staged⟩

/-- A login's target survives. -/
theorem Target.mono (h : Target p x uid s) (hs : Invariant s) (hh : Holds i p uid acc tok m own s)
    (hr : Rely o s s') : Target p x uid s' := by
  refine ⟨hr.log.subset h.signedIn, ?_⟩
  rcases h.row with ⟨hxp, honly⟩ | ⟨r, hrow, huid⟩
  · refine .inl ⟨hxp, fun hrow' huid' => ?_⟩
    rcases hr.rows hrow' huid' with ⟨r, hrow, huid, -, -⟩ | ⟨login, hlast, htoken, hid⟩
    · exact honly hrow huid
    · rcases hid with rfl | ⟨r, hrow, huid⟩
      · exact (hh.eq_of_tokenOf hs hlast htoken).1
      · exact honly hrow huid
  · exact .inr (hr.linked hrow huid)

theorem Carries.mono (h : Carries uid acc tok s) (hs : Invariant s)
    (hh : Holds i p uid acc tok m own s) (hr : Rely o s s') : Carries uid acc tok s' := by
  intro id r' hrow' huid'
  rcases hr.rows hrow' huid' with ⟨r, hrow, huid, hacc, htok⟩ | ⟨login, hlast, htoken, -⟩
  · obtain ⟨hacc', htok'⟩ := h id r hrow huid
    exact ⟨hacc.symm.trans hacc', htok.symm.trans htok'⟩
  · exact (hh.eq_of_tokenOf hs hlast htoken).2

/-- A row of the target is pending with the held token, or linked to the session. -/
theorem Target.cases (h : Target p x uid s) (hs : Invariant s) (hh : Holds i p uid acc tok m own s)
    (hrow : s.rows.row x = some r) :
    (r.oidcSessionUid = none ∧ r.oidcModelId = none ∧ r.tenantUserId = acc ∧
      r.upstreamIdToken = tok) ∨
    (r.oidcSessionUid = some uid ∧ r.oidcModelId = some m.id) := by
  rcases hs.sync hrow with ⟨huid, hmodel, htoken⟩ | ⟨uid', m', huid, hm, hmodel, hsigned⟩
  · rcases h.row with ⟨rfl, -⟩ | ⟨r', hrow', huid'⟩
    · exact .inl ⟨huid, hmodel, (hs.stagedOnce htoken hh.staged)⟩
    · obtain rfl := Option.mem_unique hrow hrow'
      exact absurd (huid.symm.trans huid') (by simp)
  · obtain rfl := hs.oneSession hsigned h.signedIn
    obtain rfl := Option.mem_unique hm hh.model
    exact .inr ⟨huid, hmodel⟩

/-- What has just been read. -/
theorem Target.readBefore (h : Target p x uid s) (hs : Invariant s)
    (hh : Holds i p uid acc tok m own s) (hrow : s.rows.row x = some r) :
    ReadBefore x uid acc tok m r s := by
  refine ⟨fun hmodel => ?_, fun huid => ⟨r, hrow, huid⟩, fun hacc r' hr' => ?_,
    fun htok r' hr' => ?_⟩
  · rcases h.cases hs hh hrow with ⟨-, hnone, -⟩ | ⟨huid, -⟩
    · exact absurd (hnone.symm.trans hmodel) (by simp)
    · exact huid
  · obtain rfl := Option.mem_unique hrow hr'
    exact hacc
  · obtain rfl := Option.mem_unique hrow hr'
    exact htok

/-- So does what was read before. -/
theorem ReadBefore.mono {read : OidcUpstreamSession} (h : ReadBefore x uid acc tok m read s)
    (hs : Invariant s) (hs' : Invariant s') (hh : Holds i p uid acc tok m own s)
    (ht : Target p x uid s) (hr : Rely (some i) s s') : ReadBefore x uid acc tok m read s' := by
  -- a row of the target in the later state: pending with the held token, as before, or written
  have hrow' : ∀ r', s'.rows.row x = some r' →
      (r'.tenantUserId = acc ∧ r'.upstreamIdToken = tok) ∨
      ∃ r, s.rows.row x = some r ∧ r.tenantUserId = r'.tenantUserId ∧
        r.upstreamIdToken = r'.upstreamIdToken := by
    intro r' hr'
    rcases (ht.mono hs hh hr).cases hs' (hh.mono hr) hr' with ⟨-, -, hheld⟩ | ⟨huid, -⟩
    · exact .inl hheld
    · rcases hr.rows hr' huid with ⟨r, hrow, -, hsame⟩ | ⟨login, hlast, htoken, -⟩
      · exact .inr ⟨r, hrow, hsame⟩
      · exact .inl (hh.eq_of_tokenOf hs hlast htoken).2
  refine ⟨h.model, fun huid => ?_, fun hacc r' hr' => ?_, fun htok r' hr' => ?_⟩
  · obtain ⟨r, hrow, hlinked⟩ := h.linked huid
    exact hr.linked hrow hlinked
  · rcases hrow' r' hr' with hheld | ⟨r, hrow, hsame, -⟩
    · exact hheld.1
    · exact hsame.symm.trans (h.account hacc r hrow)
  · rcases hrow' r' hr' with hheld | ⟨r, hrow, -, hsame⟩
    · exact hheld.2
    · exact hsame.symm.trans (h.token htok r hrow)

/-- A ready login stays ready. -/
theorem Ready.mono (h : Ready uid own s) (hs' : Invariant s') (hr : Rely o s s') :
    Ready uid own s' := by
  intro login hown
  obtain ⟨hsigned, htokens⟩ := h login hown
  refine ⟨hr.log.subset hsigned, fun hlast' id r' hrow' huid' => ?_⟩
  have hlast := lastLogin_of_prefix hr.log (hs'.signInsNodup uid) (mem_signIns.mpr hsigned) hlast'
  rcases hr.rows hrow' huid' with ⟨r, hrow, huid, hacc, htok⟩ | ⟨login', hlast'', htoken, -⟩
  · have htoken := htokens hlast id r hrow huid
    rw [TokenOf, hacc, htok] at htoken
    exact hr.log.subset htoken
  · obtain rfl := Option.mem_unique hlast'' hlast
    exact hr.log.subset htoken

/-- A token that is carried by all linked rows lets the handler end. -/
theorem Carries.ready (h : Carries uid acc tok s) (hs : Invariant s)
    (hh : Holds i p uid acc tok m own s) : Ready uid own s := by
  intro login heq
  refine ⟨hh.signedIn login heq, fun hlast id r hrow huid => ?_⟩
  obtain rfl := Option.mem_unique hlast (hh.last hs)
  obtain ⟨hacc, htok⟩ := h id r hrow huid
  rw [TokenOf, hacc, htok]
  exact hh.staged

/-! ## One statement -/

/-- What an accepted row says about the others. -/
theorem ne_of_accepts {rows : Table ℕ OidcUpstreamSession} {w : OidcUpstreamSession}
    (h : accepts rows x w = true) (hw : w.oidcSessionUid = some uid) {id : ℕ}
    (hrow : rows.row id = some r) (hne : id ≠ x) : r.oidcSessionUid ≠ some uid := by
  have hall := List.all_eq_true.mp h (id, r) (Table.row_eq_some.mp hrow)
  simp only [hne, decide_false, Bool.false_or, hw, Bool.and_eq_true, Bool.or_eq_true,
    decide_eq_true_eq, reduceCtorEq] at hall
  exact hall.2

/-- A row after a statement that writes the row `x` is that one or an old one. -/
theorem row_cases {rows rows' : Table ℕ OidcUpstreamSession} {w : OidcUpstreamSession}
    (hrows : ∀ id, rows'.row id = if id = x then some w else rows.row id) {id : ℕ}
    (hrow : rows'.row id = some r) : (id = x ∧ r = w) ∨ (id ≠ x ∧ rows.row id = some r) := by
  rw [hrows] at hrow
  split_ifs at hrow with hid
  · exact .inl ⟨hid, (Option.some.inj hrow).symm⟩
  · exact .inr ⟨hid, hrow⟩

/-- An entity that links the session to the held token. -/
structure Prepared (uid acc tok : String) (m : SessionModel) (e : OidcUpstreamSession) : Prop where
  uid : e.oidcSessionUid = some uid
  model : e.oidcModelId = some m.id
  account : e.tenantUserId = acc
  token : e.upstreamIdToken = tok

/-- The target gets such a row. -/
theorem Invariant.setRow (hs : Invariant s) (hh : Holds i p uid acc tok m own s)
    (ht : Target p x uid s) {w : OidcUpstreamSession} {rows : Table ℕ OidcUpstreamSession}
    (hrows : ∀ id, rows.row id = if id = x then some w else s.rows.row id)
    (haccepts : accepts s.rows x w = true) (hw : Prepared uid acc tok m w) :
    Invariant { s with rows } ∧ (∀ o, Rely o s { s with rows }) ∧
      Carries uid acc tok { s with rows } := by
  have htoken : TokenOf s.log p w := by
    rw [TokenOf, hw.account, hw.token]
    exact hh.staged
  have hlinkedOnly : ∀ {id r}, rows.row id = some r → r.oidcSessionUid = some uid →
      id = x ∧ r = w := by
    intro id r hrow hlinked
    rcases row_cases hrows hrow with h | ⟨hne, hold⟩
    · exact h
    · exact absurd hlinked (ne_of_accepts haccepts hw.uid hold hne)
  refine ⟨⟨hs.stagedOnce, hs.oneSession, hs.signInsNodup, hs.finalizedSigned, hs.modelIds,
    ?_, ?_, ?_, ?_, hs.holds⟩, fun o => ⟨List.prefix_rfl, fun h => h, fun h _ => h, ?_, ?_,
    fun _ h => h, fun _ h _ => h⟩, ?_⟩
  · intro id r hrow
    rcases row_cases hrows hrow with ⟨rfl, rfl⟩ | ⟨-, hold⟩
    · rcases ht.row with ⟨rfl, -⟩ | ⟨r', hrow', -⟩
      · exact ⟨acc, tok, hh.staged⟩
      · exact hs.rowStaged hrow'
    · exact hs.rowStaged hold
  · intro id r hrow
    rcases row_cases hrows hrow with ⟨rfl, rfl⟩ | ⟨-, hold⟩
    · exact .inr ⟨uid, m, hw.uid, hh.model, hw.model, ht.signedIn⟩
    · exact hs.sync hold
  · intro id id' r r' uid' hrow hrow' hr hr'
    rcases row_cases hrows hrow with ⟨rfl, rfl⟩ | ⟨hne, hold⟩
    · obtain rfl := Option.mem_unique hw.uid hr
      exact (hlinkedOnly hrow' hr').1.symm
    · rcases row_cases hrows hrow' with ⟨rfl, rfl⟩ | ⟨-, hold'⟩
      · obtain rfl := Option.mem_unique hw.uid hr'
        exact absurd hr (ne_of_accepts haccepts hw.uid hold hne)
      · exact hs.unique hold hold' hr hr'
  · intro id r uid' hrow hr
    rcases row_cases hrows hrow with ⟨rfl, rfl⟩ | ⟨-, hold⟩
    · obtain rfl := Option.mem_unique hw.uid hr
      exact ⟨p, List.mem_of_getLast? (hh.last hs), htoken, .inl (hh.last hs)⟩
    · exact hs.token hold hr
  · intro id r uid' hrow hr
    by_cases hid : id = x
    · subst hid
      refine ⟨w, by rw [hrows, if_pos rfl], ?_⟩
      rcases ht.cases hs hh hrow with ⟨hnone, -⟩ | ⟨hsame, -⟩
      · exact absurd (hnone.symm.trans hr) (by simp)
      · rw [hw.uid, ← hsame, hr]
    · exact ⟨r, by rw [hrows, if_neg hid, hrow], hr⟩
  · intro id r uid' hrow hr
    rcases row_cases hrows hrow with ⟨rfl, rfl⟩ | ⟨-, hold⟩
    · obtain rfl := Option.mem_unique hw.uid hr
      refine .inr ⟨p, hh.last hs, htoken, ?_⟩
      rcases ht.row with ⟨hxp, -⟩ | hlinked
      · exact .inl hxp
      · exact .inr hlinked
    · exact .inl ⟨r, hold, hr, rfl, rfl⟩
  · intro id r hrow hlinked
    obtain ⟨-, rfl⟩ := hlinkedOnly hrow hlinked
    exact ⟨hw.account, hw.token⟩

/-- Each column of the saved row is that of the entity, since a column that is not written has not
changed since it was read. -/
theorem Prepared.save {read current : OidcUpstreamSession} (he : Prepared uid acc tok m e)
    (hs : Invariant s) (hh : Holds i p uid acc tok m own s) (ht : Target p x uid s)
    (hread : ReadBefore x uid acc tok m read s) (hrow : s.rows.row x = some current) :
    Prepared uid acc tok m (e.save read current) := by
  have hlinked : read.oidcSessionUid = some uid →
      current.oidcSessionUid = some uid ∧ current.oidcModelId = some m.id := by
    intro huid
    obtain ⟨r, hr, hruid⟩ := hread.linked huid
    obtain rfl := Option.mem_unique hrow hr
    rcases ht.cases hs hh hrow with ⟨hnone, -⟩ | hboth
    · exact absurd (hnone.symm.trans hruid) (by simp)
    · exact hboth
  constructor
  · simp only [OidcUpstreamSession.save, saveColumn, he.uid]
    split_ifs with heq
    · exact (hlinked heq.symm).1
    · rfl
  · simp only [OidcUpstreamSession.save, saveColumn, he.model]
    split_ifs with heq
    · exact (hlinked (hread.model heq.symm)).2
    · rfl
  · simp only [OidcUpstreamSession.save, saveColumn, he.account]
    split_ifs with heq
    · exact hread.account heq.symm current hrow
    · rfl
  · simp only [OidcUpstreamSession.save, saveColumn, he.token]
    split_ifs with heq
    · exact hread.token heq.symm current hrow
    · rfl

/-- The second statement of a `save`. -/
theorem stored_keeps (he : Prepared uid acc tok m e) (hs : Invariant s)
    (hh : Holds i p uid acc tok m own s) (ht : Target p x uid s) {read : Option OidcUpstreamSession}
    (hread : ∀ r, read = some r → ReadBefore x uid acc tok m r s)
    (hstored : stored x e read s = some s') :
    Invariant s' ∧ (∀ o, Rely o s s') ∧ Carries uid acc tok s' := by
  cases read with
  | none =>
    simp only [stored, Option.ite_none_right_eq_some, Option.map_eq_some_iff] at hstored
    obtain ⟨haccepts, t, hinsert, rfl⟩ := hstored
    exact hs.setRow hh ht (Table.row_insert hinsert) haccepts he
  | some r =>
    cases hrow : s.rows.row x with
    | none =>
      -- the row is gone: nothing is written, and nothing is linked
      simp only [stored, hrow, Option.some.injEq] at hstored
      subst hstored
      refine ⟨hs, fun o => .refl, fun id r' hr' huid => ?_⟩
      rcases ht.row with ⟨rfl, honly⟩ | ⟨r'', hr'', -⟩
      · obtain rfl := honly hr' huid
        exact absurd (hrow.symm.trans hr') (by simp)
      · exact absurd (hrow.symm.trans hr'') (by simp)
    | some current =>
      simp only [stored, hrow, Option.ite_none_right_eq_some, Option.some.injEq] at hstored
      obtain ⟨haccepts, rfl⟩ := hstored
      refine hs.setRow hh ht (fun id => ?_) haccepts (he.save hs hh ht (hread r rfl) hrow)
      rw [Table.row_update]
      by_cases hid : id = x
      · simp [hid, hrow]
      · simp [hid]

/-- The pending row is deleted after its token was copied to a linked row. -/
theorem Invariant.deletePending (hs : Invariant s) (hh : Holds i p uid acc tok m own s)
    (ht : Target p x uid s) (hne : x ≠ p) :
    Invariant { s with rows := s.rows.delete fun id _ => id = p } ∧
      ∀ o, Rely o s { s with rows := s.rows.delete fun id _ => id = p } := by
  obtain ⟨rx, hrx, hrxuid⟩ := ht.row.resolve_left fun h => hne h.1
  have hold : ∀ {id r}, (s.rows.delete fun id _ => id = p).row id = some r →
      s.rows.row id = some r := by
    intro id r hrow
    rw [Table.row_delete, Option.filter_eq_some_iff] at hrow
    exact hrow.1
  -- the deleted row is linked to no session
  have hkept : ∀ {id r uid'}, s.rows.row id = some r → r.oidcSessionUid = some uid' → id ≠ p := by
    rintro id r uid' hrow huid rfl
    rcases hs.sync hrow with ⟨hnone, -⟩ | ⟨uid'', -, huid'', -, -, hsigned⟩
    · exact absurd (hnone.symm.trans huid) (by simp)
    · obtain rfl := hs.oneSession hsigned (mem_of_lastLogin (hh.last hs))
      exact hne (hs.unique hrx hrow hrxuid huid'')
  refine ⟨⟨hs.stagedOnce, hs.oneSession, hs.signInsNodup, hs.finalizedSigned, hs.modelIds,
    fun h => hs.rowStaged (hold h), fun h => hs.sync (hold h),
    fun h h' => hs.unique (hold h) (hold h'), fun h => hs.token (hold h), hs.holds⟩,
    fun o => ⟨List.prefix_rfl, fun h => h, fun h _ => h, fun {id r uid'} hrow huid => ?_,
      fun hrow huid => .inl ⟨_, hold hrow, huid, rfl, rfl⟩, fun _ h => h, fun _ h _ => h⟩⟩
  refine ⟨r, ?_, huid⟩
  have hid := hkept hrow huid
  simp [Table.row_delete, hrow, Option.filter, hid]

/-- A handler lets its row go. -/
theorem Invariant.release (hs : Invariant s) (i : ℕ) :
    Invariant (s.release i) ∧ ∀ o, o ≠ some i → Rely o s (s.release i) := by
  refine ⟨hs.of_same rfl rfl rfl fun h => hs.holds (List.mem_of_mem_filter h),
    fun o ho => .of_same rfl rfl rfl fun {h} hmem hprocess => ?_⟩
  refine List.mem_filter.mpr ⟨hmem, ?_⟩
  have hne : h.process ≠ i := fun heq => ho (heq ▸ hprocess)
  simpa using hne

/-- The handler of a login is through. -/
theorem Invariant.finalize (hs : Invariant s) (hready : Ready uid own s) :
    Invariant { s with log := s.log ++ own.toList.map .finalized } ∧
      ∀ o, Rely o s { s with log := s.log ++ own.toList.map .finalized } := by
  have hsubset : s.log ⊆ s.log ++ own.toList.map .finalized := List.subset_append_left _ _
  have hnil : ∀ u, signIns u (own.toList.map .finalized) = [] := by
    intro u
    cases own <;> rfl
  have hstaged : ∀ {l a t}, .staged l a t ∈ s.log ++ own.toList.map .finalized →
      .staged l a t ∈ s.log := by
    intro l a t h
    simpa using h
  have hsigned : ∀ {l u}, .signedIn l u ∈ s.log ++ own.toList.map .finalized →
      .signedIn l u ∈ s.log := by
    intro l u h
    simpa using h
  refine ⟨⟨fun h h' => hs.stagedOnce (hstaged h) (hstaged h'),
    fun h h' => hs.oneSession (hsigned h) (hsigned h'), fun u => ?_, fun {l} h => ?_, hs.modelIds,
    fun h => ?_, fun h => ?_, hs.unique, fun {id r u} hrow hr => ?_, fun h => ?_⟩,
    fun o => ⟨List.prefix_append _ _, fun h => h, fun h _ => h,
      fun {id r u} hrow hr => ⟨r, hrow, hr⟩, fun hrow hr => .inl ⟨_, hrow, hr, rfl, rfl⟩,
        fun _ h => hstaged h, fun _ h _ => h⟩⟩
  · change (signIns u (s.log ++ _)).Nodup
    rw [signIns_append_of_nil (hnil u)]
    exact hs.signInsNodup u
  · rcases List.mem_append.mp h with h | h
    · obtain ⟨u, hu⟩ := hs.finalizedSigned h
      exact ⟨u, hsubset hu⟩
    · obtain ⟨login, hown, heq⟩ := List.mem_map.mp h
      obtain rfl := Event.finalized.inj heq
      exact ⟨uid, hsubset (hready login (Option.mem_toList.mp hown)).1⟩
  · obtain ⟨a, t, ha⟩ := hs.rowStaged h
    exact ⟨a, t, hsubset ha⟩
  · exact hs.sync_mono h hsubset fun h => h
  · obtain ⟨login, hlogin, htoken, hlast⟩ := hs.token hrow hr
    change Own (s.log ++ _) u r
    rw [Own, signIns_append_of_nil (hnil u), lastLogin_append_of_nil (hnil u)]
    rcases hlast with hlast | ⟨last, hlast, hopen⟩
    · exact ⟨login, hlogin, hsubset htoken, .inl hlast⟩
    · by_cases hown : own = some last
      · -- the login that is through now is the last one of this session: its token is linked
        obtain ⟨hsignedIn, htokens⟩ := hready last hown
        obtain rfl := hs.oneSession hsignedIn (mem_of_lastLogin hlast)
        exact ⟨last, List.mem_of_getLast? hlast, hsubset (htokens hlast id r hrow hr), .inl hlast⟩
      · refine ⟨login, hlogin, hsubset htoken, .inr ⟨last, hlast, fun h => ?_⟩⟩
        rcases List.mem_append.mp h with h | h
        · exact hopen h
        · obtain ⟨l, hl, heq⟩ := List.mem_map.mp h
          obtain rfl := Event.finalized.inj heq
          exact hown (Option.mem_toList.mp hl)
  · change lastLogin _ (s.log ++ _) = _
    rw [lastLogin_append_of_nil (hnil _)]
    exact hs.holds h

/-! ## The handler -/

variable {C : Label → State → Prop}

theorem ok_abandon {P : State → Prop} : contract.Ok C i (fun _ _ => True) (abandon i) P := by
  refine .statement (by simp) fun s hs _ _ => ?_
  obtain ⟨hinv, hrely⟩ := Invariant.release hs i
  exact ⟨hinv, hrely, Contract.done⟩

/-- Finishing follows the contract. -/
theorem ok_finish : contract.Ok C i (fun _ _ => True) (finish i own) (Ready uid own) := by
  refine .statement (by simp) fun s hs hready _ => ?_
  obtain ⟨hinv, hrely⟩ := Invariant.release hs i
  have hready' : Ready uid own (s.release i) := hready
  obtain ⟨hinv', hrely'⟩ := Invariant.finalize hinv hready'
  refine ⟨hinv', fun j hj => ?_, Contract.done⟩
  exact ⟨(hrely' j).log, fun h => h, fun h hp => (hrely j hj).held h hp, (hrely' j).linked,
    (hrely' j).rows, (hrely' j).fresh, fun _ h _ => h⟩

/-- What a handler knows before it writes is stable, and so is what it knows afterwards. -/
theorem stable_target : contract.Stable i fun s =>
    Holds i p uid acc tok m own s ∧ Target p x uid s :=
  fun _ _ hs _ h hr => ⟨h.1.mono hr, h.2.mono hs h.1 hr⟩

theorem stable_carries : contract.Stable i fun s =>
    Holds i p uid acc tok m own s ∧ Target p x uid s ∧ Carries uid acc tok s :=
  fun _ _ hs _ h hr => ⟨h.1.mono hr, h.2.1.mono hs h.1 hr, h.2.2.mono hs h.1 hr⟩

theorem stable_read {read : Option OidcUpstreamSession} : contract.Stable i fun s =>
    Holds i p uid acc tok m own s ∧ Target p x uid s ∧
      ∀ r, read = some r → ReadBefore x uid acc tok m r s :=
  fun _ _ hs hs' h hr => ⟨h.1.mono hr, h.2.1.mono hs h.1 hr,
    fun r hread => (h.2.2 r hread).mono hs hs' h.1 h.2.1 hr⟩

/-! ### Saving -/

/-- The rule for `save` of an entity that links the session to the held token. -/
theorem ok_save (he : Prepared uid acc tok m e) {k : Program}
    (hk : contract.Ok C i (fun _ _ => True) k fun s =>
      Holds i p uid acc tok m own s ∧ Target p x uid s ∧ Carries uid acc tok s) :
    contract.Ok C i (fun _ _ => True) (save i x e k) fun s =>
      Holds i p uid acc tok m own s ∧ Target p x uid s := by
  refine .attempt ok_abandon fun s hs hP _ => ⟨hs, fun j _ => .refl, ?_⟩
  obtain ⟨hh, ht⟩ := hP
  by_cases hsame : s.rows.row x = some e
  · -- the row is the entity already
    rw [if_pos hsame]
    refine ⟨_, ⟨hh, ht, fun id r hrow huid => ?_⟩, stable_carries, hk⟩
    obtain rfl := hs.unique hrow hsame huid he.uid
    obtain rfl := Option.mem_unique hrow hsame
    exact ⟨he.account, he.token⟩
  · rw [if_neg hsame]
    refine ⟨_, ⟨hh, ht, fun r hread => ht.readBefore hs hh hread⟩, stable_read, ?_⟩
    refine .attempt ok_abandon fun s₁ hs₁ hP₁ _ => ?_
    obtain ⟨hh₁, ht₁, hread₁⟩ := hP₁
    cases hstored : stored x e (s.rows.row x) s₁ with
    | none =>
      exact ⟨hs₁, fun j _ => .refl, fun _ => True, trivial,
        .const True, ok_abandon⟩
    | some s₂ =>
      obtain ⟨hs₂, hrely, hcarries⟩ := stored_keeps he hs₁ hh₁ ht₁ hread₁ hstored
      exact ⟨hs₂, fun j _ => hrely j, _, ⟨hh₁.mono (hrely _), ht₁.mono hs₁ hh₁ (hrely none),
        hcarries⟩, stable_carries, hk⟩

/-- The rule for the part after the search: nothing is left but to link the session to the row. -/
theorem ok_link (he : Prepared uid acc tok m e) :
    contract.Ok C i (fun _ _ => True) (save i x e (finish i own)) fun s =>
      Holds i p uid acc tok m own s ∧ Target p x uid s :=
  ok_save he (ok_finish.pre fun _ hs h => h.2.2.ready hs h.1)

/-- The token is copied to the row that is linked, and the pending one deleted. -/
theorem ok_copy (he : Prepared uid acc tok m e) (hne : x ≠ p) :
    contract.Ok C i (fun _ _ => True)
      (save i x e <| .attempt .step (fun s => { s with rows := s.rows.delete fun id _ => id = p })
        (abandon i) fun _ => finish i own) fun s =>
      Holds i p uid acc tok m own s ∧ Target p x uid s := by
  refine ok_save he (.attempt ok_abandon fun s hs hP _ => ?_)
  obtain ⟨hh, ht, hcarries⟩ := hP
  obtain ⟨hinv, hrely⟩ := hs.deletePending hh ht hne
  have hready := (hcarries.ready hs hh).mono hinv (hrely none)
  exact ⟨hinv, fun j _ => hrely j, Ready uid own, hready, fun _ _ _ hs' h hr => h.mono hs' hr,
    ok_finish⟩

/-- `finalizeUpstreamSessionForOidcSession` follows the contract if its search is paired. -/
theorem ok_finalizeUpstreamSession (db : Latest)
    (hC : ∀ {s}, C (.findPending uid acc own) s →
      paired db (.findPending uid acc own) s = true) :
    contract.Ok C i (fun _ _ => True) (finalizeUpstreamSession db i m.id uid acc own)
      (Started uid m own) := by
  refine .attempt ok_abandon fun s hs hstarted hcond => ?_
  have hpaired := hC hcond
  cases hfind : findLatestPending db acc s with
  | none =>
    simp only [paired, hfind] at hpaired
    have hhold : s.hold db i uid acc = s := by simp [State.hold, hfind]
    rw [hhold]
    refine ⟨hs, fun j _ => .refl, Ready uid own, ?_,
      fun _ _ _ hs' h hr => h.mono hs' hr, ok_finish⟩
    intro login hown
    refine ⟨hstarted.signedIn login hown, fun hlast id r hrow huid => ?_⟩
    -- the login's token is linked already
    rw [hown] at hpaired
    simp only [Option.all_some, hlast, ne_eq, not_true_eq_false, decide_false, Bool.false_or,
      Option.any_eq_true, decide_eq_true_eq] at hpaired
    obtain ⟨y, hy, htoken⟩ := hpaired
    obtain ⟨hyrow, hyuid⟩ := Table.first_eq_some hy
    obtain rfl := hs.unique hrow hyrow huid (by simpa using hyuid)
    obtain rfl := Option.mem_unique hrow hyrow
    exact htoken
  | some pending =>
    simp only [paired, hfind, decide_eq_true_eq] at hpaired
    obtain ⟨hrow, hpending⟩ := Table.mem_select.mp (db.mem hfind)
    simp only [isPending, Bool.and_eq_true, decide_eq_true_eq] at hpending
    have htoken : TokenOf s.log pending.1 pending.2 := by
      rcases hs.sync hrow with ⟨-, -, h⟩ | ⟨-, m', -, -, hmodel, -⟩
      · exact h
      · exact absurd (hpending.1.2.symm.trans hmodel) (by simp)
    have hholding : (s.hold db i uid acc).holding = s.holding ++ [⟨i, uid, pending.1⟩] := by
      simp [State.hold, hfind]
    have hinv : Invariant (s.hold db i uid acc) := by
      refine hs.of_same rfl rfl rfl fun {h} hmem => ?_
      rw [hholding, List.mem_append, List.mem_singleton] at hmem
      rcases hmem with hmem | rfl
      · exact hs.holds hmem
      · exact hpaired
    refine ⟨hinv, fun j _ => .of_same rfl rfl rfl fun h _ => ?_,
      Holds i pending.1 uid pending.2.tenantUserId pending.2.upstreamIdToken m own, ?_,
      fun _ _ _ _ h hr => h.mono hr, ?_⟩
    · rw [hholding]
      exact List.mem_append_left _ h
    · exact ⟨⟨hstarted.model, hstarted.signedIn⟩, by rw [hholding]; simp, htoken⟩
    · refine .attempt ok_abandon fun s₁ hs₁ hh _ =>
        ⟨hs₁, fun j _ => .refl, ?_⟩
      have hsigned := mem_of_lastLogin (hh.last hs₁)
      have hlink : Prepared uid pending.2.tenantUserId pending.2.upstreamIdToken m
          (pending.2.link m.id uid) := ⟨rfl, rfl, rfl, rfl⟩
      cases hexisting : findByOidcSessionUid uid s₁ with
      | none =>
        have hnone := Table.first_eq_none.mp hexisting
        refine ⟨_, ⟨hh, hsigned, .inl ⟨rfl, fun {id r} hr huid => ?_⟩⟩, stable_target,
          ok_link hlink⟩
        exact absurd huid (by simpa using hnone id r hr)
      | some existing =>
        obtain ⟨herow, heuid⟩ := Table.first_eq_some hexisting
        rw [decide_eq_true_eq] at heuid
        simp only
        split_ifs with hsame
        · rcases hs₁.sync herow with ⟨hnone, -⟩ | ⟨uid', m', huid', -, -, hsigned'⟩
          · exact absurd (hnone.symm.trans heuid) (by simp)
          · obtain rfl := Option.mem_unique huid' heuid
            exact ⟨_, ⟨hh, hsigned', .inr ⟨existing.2, herow, heuid⟩⟩, stable_target,
              ok_copy ⟨heuid, rfl, rfl, rfl⟩ hsame⟩
        · rw [not_not] at hsame
          rw [hsame] at herow
          exact ⟨_, ⟨hh, hsigned, .inr ⟨existing.2, herow, heuid⟩⟩, stable_target,
            ok_link hlink⟩

/-- The handler of `session.saved`. -/
theorem ok_finalizePendingUpstreamSession (db : Latest)
    (hC : ∀ {uid acc own s}, C (.findPending uid acc own) s →
      paired db (.findPending uid acc own) s = true) :
    contract.Ok C i (fun _ _ => True) (finalizePendingUpstreamSession db i uid acc own)
      (Started uid m own) := by
  unfold finalizePendingUpstreamSession
  split_ifs with hempty
  · exact fun _ _ _ => trivial
  · refine .attempt ok_abandon fun s hs hstarted _ => ?_
    rw [hstarted.model]
    exact ⟨hs, fun j _ => .refl, _, hstarted,
      fun _ _ _ _ h hr => h.mono hr, ok_finalizeUpstreamSession db hC⟩

end Handler

/-! ## Callbacks and sessions -/

section Provider

variable {i login : ℕ} {uid : String} {s : State}

/-- A callback stages the token of its own login. -/
theorem Invariant.stage (hs : Invariant s) (hunused : Unused i s)
    (tenantUserId upstreamSubject upstreamIdToken : String) (expiresAt : Option ℕ) :
    Invariant (s.stage i tenantUserId upstreamSubject upstreamIdToken expiresAt) ∧
      ∀ o, o ≠ some i →
        Rely o s (s.stage i tenantUserId upstreamSubject upstreamIdToken expiresAt) := by
  unfold State.stage
  split
  · exact ⟨hs, fun o _ => .refl⟩
  rename_i rows hinsert
  have hsubset : s.log ⊆ s.log ++ [.staged i tenantUserId upstreamIdToken] :=
    List.subset_append_left _ _
  have hrows := Table.row_insert hinsert
  have hlinked : ∀ {id r u}, rows.row id = some r → r.oidcSessionUid = some u →
      s.rows.row id = some r := by
    intro id r u hrow hu
    rcases row_cases hrows hrow with ⟨-, rfl⟩ | ⟨-, hold⟩
    · exact absurd hu (by simp)
    · exact hold
  have hnil : ∀ u, signIns u [Event.staged i tenantUserId upstreamIdToken] = [] := fun _ => rfl
  refine ⟨⟨?_, ?_, fun u => ?_, ?_, hs.modelIds, ?_, ?_,
    fun h h' hu hu' => hs.unique (hlinked h hu) (hlinked h' hu') hu hu', ?_, fun h => ?_⟩,
    fun o ho => ⟨List.prefix_append _ _, fun h => h, fun h _ => h, ?_,
      fun hrow hu => .inl ⟨_, hlinked hrow hu, hu, rfl, rfl⟩, ?_, fun _ h _ => h⟩⟩
  · intro l a t a' t' h h'
    simp only [List.mem_append, List.mem_singleton, Event.staged.injEq] at h h'
    rcases h with h | ⟨rfl, rfl, rfl⟩ <;> rcases h' with h' | h'
    · exact hs.stagedOnce h h'
    · exact absurd (h'.1 ▸ h) (hunused.1 a t)
    · exact absurd h' (hunused.1 a' t')
    · exact ⟨h'.2.1.symm, h'.2.2.symm⟩
  · intro l u u' h h'
    exact hs.oneSession (by simpa using h) (by simpa using h')
  · change (signIns u (s.log ++ _)).Nodup
    rw [signIns_append_of_nil (hnil u)]
    exact hs.signInsNodup u
  · intro l h
    obtain ⟨u, hu⟩ := hs.finalizedSigned (show Event.finalized l ∈ s.log by simpa using h)
    exact ⟨u, hsubset hu⟩
  · intro id r hrow
    rcases row_cases hrows hrow with ⟨rfl, -⟩ | ⟨-, hold⟩
    · exact ⟨tenantUserId, upstreamIdToken, by simp⟩
    · obtain ⟨a, t, ha⟩ := hs.rowStaged hold
      exact ⟨a, t, hsubset ha⟩
  · intro id r hrow
    rcases row_cases hrows hrow with ⟨rfl, rfl⟩ | ⟨-, hold⟩
    · exact .inl ⟨rfl, rfl, by simp [TokenOf]⟩
    · exact hs.sync_mono hold hsubset fun h => h
  · intro id r u hrow hu
    exact (hs.token (hlinked hrow hu) hu).append (hnil u) (by simp)
  · change lastLogin _ (s.log ++ _) = _
    rw [lastLogin_append_of_nil (hnil _)]
    exact hs.holds h
  · intro id r u hrow hu
    refine ⟨r, ?_, hu⟩
    have hne : id ≠ i := by
      rintro rfl
      exact absurd (hrow.symm.trans (Table.row_of_insert hinsert)) (by simp)
    rw [hrows, if_neg hne, hrow]
  · intro j a t hj h
    simp only [List.mem_append, List.mem_singleton, Event.staged.injEq] at h
    rcases h with h | ⟨rfl, -, -⟩
    · exact h
    · exact absurd hj ho

/-- What the session of a login is: new, or one that exists. -/
theorem signInTo_eq_some {model : SessionModel} (h : signInTo i login uid s = some model) :
    hasSignedIn login s.log = false ∧
      (s.models uid = some model ∨ (s.models uid = none ∧ model.id = i)) := by
  unfold signInTo at h
  split_ifs at h with hsigned
  rw [Option.bind_eq_some_iff] at h
  obtain ⟨account, -, hmodel⟩ := h
  refine ⟨by simpa using hsigned, ?_⟩
  cases hcurrent : s.models uid with
  | none =>
    rw [hcurrent, signInModel] at hmodel
    exact .inr ⟨rfl, (Option.some.inj hmodel) ▸ rfl⟩
  | some current =>
    rw [hcurrent, signInModel, Option.ite_none_right_eq_some] at hmodel
    exact .inl hmodel.2

/-- Sessions that exist stay as they are, and a new one is known by the process. -/
theorem models_signInTo {model : SessionModel} (h : signInTo i login uid s = some model) :
    (∀ {u m}, s.models u = some m → Function.update s.models uid (some model) u = some m) ∧
      ∀ {u m}, Function.update s.models uid (some model) u = some m →
        s.models u = some m ∨ (u = uid ∧ m.id = i) := by
  obtain ⟨-, hmodels⟩ := signInTo_eq_some h
  constructor <;> intro u m hm <;> by_cases hu : u = uid
  · subst hu
    rw [Function.update_self]
    rcases hmodels with h | ⟨h, -⟩
    · exact h.symm.trans hm
    · exact absurd (h.symm.trans hm) (by simp)
  · rwa [Function.update_of_ne hu]
  · subst hu
    rw [Function.update_self] at hm
    obtain rfl := Option.some.inj hm
    exact hmodels.imp_right fun h => ⟨rfl, h.2⟩
  · rw [Function.update_of_ne hu] at hm
    exact .inl hm

/-- A login that had authenticated no session has authenticated one. -/
theorem Invariant.oneSession_signedIn (hs : Invariant s) (hnever : ∀ u, .signedIn login u ∉ s.log)
    {l : ℕ} {u u' : String} (h : .signedIn l u ∈ s.log ++ [.signedIn login uid])
    (h' : .signedIn l u' ∈ s.log ++ [.signedIn login uid]) : u = u' := by
  simp only [List.mem_append, List.mem_singleton, Event.signedIn.injEq] at h h'
  rcases h with h | ⟨rfl, rfl⟩ <;> rcases h' with h' | h'
  · exact hs.oneSession h h'
  · exact absurd (h'.1 ▸ h) (hnever u)
  · exact absurd h' (hnever u')
  · exact h'.2.symm

/-- A login authenticates a session for which no handler holds a row. -/
theorem Invariant.signIn (hs : Invariant s) (hunused : Unused i s)
    (hfree : ∀ h ∈ s.holding, h.uid ≠ uid) {model : SessionModel}
    (hmodel : signInTo i login uid s = some model) :
    Invariant { s with
        models := Function.update s.models uid (some model)
        log := s.log ++ [.signedIn login uid] } ∧
      ∀ o, o ≠ some i → Rely o s { s with
        models := Function.update s.models uid (some model)
        log := s.log ++ [.signedIn login uid] } := by
  have hnever := hasSignedIn_eq_false (signInTo_eq_some hmodel).1
  have hopen : .finalized login ∉ s.log := fun h =>
    (hs.finalizedSigned h).elim fun u hu => hnever u hu
  obtain ⟨hkeep, hmodels⟩ := models_signInTo hmodel
  have hsubset : s.log ⊆ s.log ++ [.signedIn login uid] := List.subset_append_left _ _
  have hstaged : ∀ {l a t}, .staged l a t ∈ s.log ++ [.signedIn login uid] →
      .staged l a t ∈ s.log := by
    intro l a t h
    simpa using h
  refine ⟨⟨fun h h' => hs.stagedOnce (hstaged h) (hstaged h'), hs.oneSession_signedIn hnever,
    fun u => nodup_signIns_signedIn hnever (hs.signInsNodup u), ?_, ?_, ?_,
    fun h => hs.sync_mono h hsubset hkeep, hs.unique, fun h hu => (hs.token h hu).signedIn hopen,
    ?_⟩,
    fun o ho => ⟨List.prefix_append _ _, hkeep, fun h _ => h, fun {id r u} hrow hu => ⟨r, hrow, hu⟩,
      fun hrow hu => .inl ⟨_, hrow, hu, rfl, rfl⟩, fun _ h => hstaged h, ?_⟩⟩
  · intro l h
    obtain ⟨u, hu⟩ := hs.finalizedSigned (show Event.finalized l ∈ s.log by simpa using h)
    exact ⟨u, hsubset hu⟩
  · intro u u' m m' hm hm' hid
    rcases hmodels hm with hold | ⟨hu, hi⟩ <;> rcases hmodels hm' with hold' | ⟨hu', hi'⟩
    · exact hs.modelIds hold hold' hid
    · exact absurd (hid.trans hi') (hunused.2 u m hold)
    · exact absurd (hid.symm.trans hi) (hunused.2 u' m' hold')
    · exact hu.trans hu'.symm
  · intro id r hrow
    obtain ⟨a, t, ha⟩ := hs.rowStaged hrow
    exact ⟨a, t, hsubset ha⟩
  · intro h hmem
    change lastLogin _ (s.log ++ _) = _
    rw [lastLogin_append_of_nil (signIns_signedIn_of_ne login (hfree h hmem))]
    exact hs.holds hmem
  · intro j u m hj hm hid
    rcases hmodels hm with hm | ⟨-, hi⟩
    · exact hm
    · exact absurd (hj.trans (congrArg some (hid.symm.trans hi))) ho

/-- Every program follows the contract in runs that are paired. -/
theorem provider_follows (db : Latest) :
    contract.Follows (provider db) fun l s => paired db l s = true := by
  refine ⟨Unused.stable, fun r i => ?_, fun g hg => by simp [provider] at hg⟩
  cases r with
  | callback tenantUserId upstreamSubject upstreamIdToken expiresAt =>
    refine .statement (fun _ _ _ _ => trivial) fun s hs hunused _ => ?_
    obtain ⟨hinv, hrely⟩ :=
      hs.stage hunused tenantUserId upstreamSubject upstreamIdToken expiresAt
    exact ⟨hinv, hrely, Contract.done⟩
  | signIn login uid =>
    refine .statement (fun _ _ _ _ => trivial) fun s hs hunused hcond => ?_
    cases hmodel : signInTo i login uid s with
    | none =>
      have hsame : s.signIn i login uid = s := by simp [State.signIn, hmodel]
      rw [hsame]
      exact ⟨hs, fun j _ => .refl, Contract.done⟩
    | some model =>
      have hfree : ∀ h ∈ s.holding, h.uid ≠ uid := by simpa [paired] using hcond
      obtain ⟨hinv, hrely⟩ := hs.signIn hunused hfree hmodel
      have hsignIn : s.signIn i login uid = { s with
          models := Function.update s.models uid (some model)
          log := s.log ++ [.signedIn login uid] } := by
        simp [State.signIn, hmodel]
      rw [hsignIn]
      refine ⟨hinv, hrely, Started uid model (some login), ⟨?_, ?_⟩,
        fun _ _ _ _ h hr => h.mono hr, ok_finalizePendingUpstreamSession db fun h => h⟩
      · exact Function.update_self ..
      · rintro l hl
        obtain rfl := Option.some.inj hl
        simp
  | saved uid =>
    refine .statement (fun _ _ _ _ => trivial) fun s hs _ _ => ?_
    refine ⟨hs, fun j _ => .refl, ?_⟩
    cases hmodel : s.models uid with
    | none => exact Contract.done
    | some model =>
      exact ⟨Started uid model none, ⟨hmodel, by simp⟩, fun _ _ _ _ h hr => h.mono hr,
        ok_finalizePendingUpstreamSession db fun h => h⟩
  | wait time =>
    refine .statement (by simp) fun s hs _ _ => ?_
    exact ⟨hs.of_same rfl rfl rfl fun h => hs.holds h,
      fun j _ => .of_same rfl rfl rfl fun h _ => h, Contract.done⟩

end Provider

theorem Invariant.empty : Invariant .empty := by
  constructor <;> simp [State.empty, signIns, Table.row]

/-! ### Main result -/

/-- A login signs in, and another one authenticates the same session again. -/
def twiceRun : List (Move Request) :=
  [.spawn (.callback "u" "sub" "A" none), .run 0, .spawn (.signIn 0 "a")] ++
    List.replicate 7 (.run 1) ++
    [.spawn (.callback "u" "sub" "B" none), .run 2, .spawn (.signIn 2 "a")] ++
    List.replicate 8 (.run 3)

/-- Two browsers of one user: both callbacks come before the first session is saved. -/
def swapRun : List (Move Request) :=
  [.spawn (.callback "u" "sub" "A" none), .run 0, .spawn (.wait 1), .run 1,
    .spawn (.callback "u" "sub" "B" none), .run 2, .spawn (.signIn 0 "a")] ++
    List.replicate 7 (.run 3)

end DigitalTrust.UpstreamTokens
