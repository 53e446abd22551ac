/-
# Switching tenants in the browser

`serialize`, `refresh` and `switchTenant` of `oidc-auth.ts`, with the interceptor of `client.ts`
that calls `refresh` after a 401.  Renewals and the store phase of a switch run one at a time, in
the order in which they were queued; the request of the switch does not wait for them.  The server
revokes the old grant at some time between receiving that request and answering it.
-/
import DigitalTrust.Transitions

namespace DigitalTrust.AuthClient

open Transitions

/-! ## State -/

inductive Tenant where
  | old
  | new
  deriving DecidableEq

/-- The tokens of a user; the serial number tells apart those of one grant. -/
structure Tokens where
  tenant : Tenant
  serial : ℕ
  deriving DecidableEq

/-- How far `signinSilent` has got. -/
inductive Renewal where
  | waiting
  /-- The refresh token of the stored user was sent. -/
  | sent (user : Option Tokens)
  | granted (user : Tokens)
  | refused
  deriving DecidableEq

/-- An operation in `tokenOps`. -/
inductive Op where
  | renew (call : ℕ) (renewal : Renewal)
  | store (user : Tokens)
  deriving DecidableEq

/-- A call of `refresh`. -/
inductive Call where
  | queued
  /-- It awaits `switchStorePending`. -/
  | awaitingStore
  | resolved (token : Option Tokens)
  deriving DecidableEq

/-- The call of `switchTenant`. -/
inductive Switch where
  | idle
  /-- The request is on its way, for the first or the second time. -/
  | posting (retried : Bool)
  /-- It was answered with 401, and waits for a `refresh`. -/
  | unauthorized (call : ℕ)
  | received
  | answered (user : Tokens)
  /-- The store phase is queued or running. -/
  | storing
  /-- The store phase is over. -/
  | stored
  | done
  | failed
  deriving DecidableEq

/-- The client, and what the server knows of the old grant. -/
structure State where
  stored : Option Tokens
  currentUser : Option Tokens
  tokenOps : List Op
  switchStorePending : Bool
  calls : List Call
  switch : Switch
  revoked : Bool
  serial : ℕ
  deriving DecidableEq

/-- A user of the old tenant is signed in. -/
def State.signedIn : State :=
  ⟨some ⟨.old, 0⟩, some ⟨.old, 0⟩, [], false, [], .idle, false, 1⟩

/-! ## Steps -/

inductive Action where
  /-- A request was answered with 401: `refresh` is called. -/
  | refresh
  /-- The first operation loads the stored user and sends its refresh token. -/
  | begin
  /-- The server grants or refuses the renewal. -/
  | serve
  /-- Its answer arrives. -/
  | deliver
  | switchTenant
  /-- The server takes the request of the switch, or answers with 401; the `refresh` that follows is
  the one in flight or a new one. -/
  | receive
  | unauthorize (inFlight : Option ℕ)
  | resume
  | revoke
  | answer
  | reject
  /-- The answer of the switch arrives. -/
  | deliverAnswer
  | runStore
  | finishSwitch
  /-- A `refresh` that has awaited the store phase resolves. -/
  | wake (call : ℕ)

/-- `refresh` queues a renewal. -/
def State.queueRenewal (s : State) : State :=
  { s with
    tokenOps := s.tokenOps ++ [.renew s.calls.length .waiting]
    calls := s.calls ++ [.queued] }

/-- The server's answer to a renewal. -/
def State.renewal (s : State) : Option Tokens → Renewal
  | none => .refused
  | some user =>
    if user.tenant = .old ∧ s.revoked then .refused else .granted ⟨user.tenant, s.serial⟩

/-- The first operation is over, and `refresh` goes on: its continuation sees `switchStorePending`
as it is when the answer arrives.  Without a token the interceptor clears the session. -/
def State.deliver (s : State) (call : ℕ) (ops : List Op) : Renewal → Option State
  | .granted user => some { s with
      stored := some user
      currentUser := some user
      tokenOps := ops
      calls := s.calls.set call (.resolved (some user)) }
  | .refused =>
    if s.switchStorePending then
      some { s with tokenOps := ops, calls := s.calls.set call .awaitingStore }
    else some { s with
      stored := none
      currentUser := none
      tokenOps := ops
      calls := s.calls.set call (.resolved none) }
  | _ => none

/-- The state after a step; `none` when it is not possible. -/
def step (s : State) : Action → Option State
  | .refresh => some s.queueRenewal
  | .begin => match s.tokenOps with
    | .renew call .waiting :: ops => some { s with tokenOps := .renew call (.sent s.stored) :: ops }
    | _ => none
  | .serve => match s.tokenOps with
    | .renew call (.sent user) :: ops => some { s with
        tokenOps := .renew call (s.renewal user) :: ops
        serial := s.serial + 1 }
    | _ => none
  | .deliver => match s.tokenOps with
    | .renew call renewal :: ops => s.deliver call ops renewal
    | _ => none
  | .switchTenant => if s.switch = .idle then some { s with switch := .posting false } else none
  | .receive => match s.switch with
    | .posting _ => some { s with switch := .received }
    | _ => none
  | .unauthorize inFlight => match s.switch with
    | .posting false => match inFlight with
      | some call =>
        if call < s.calls.length then some { s with switch := .unauthorized call } else none
      | none => some { s.queueRenewal with switch := .unauthorized s.calls.length }
    | _ => none
  | .resume => match s.switch with
    | .unauthorized call => match s.calls[call]? with
      | some (.resolved (some _)) => some { s with switch := .posting true }
      | some (.resolved none) => some { s with switch := .failed }
      | _ => none
    | _ => none
  | .revoke =>
    if s.switch = .received ∧ s.revoked = false then some { s with revoked := true } else none
  | .answer =>
    if s.switch = .received then
      some { s with switch := .answered ⟨.new, s.serial⟩, serial := s.serial + 1 }
    else none
  | .reject =>
    if s.switch = .received ∧ s.revoked = false then some { s with switch := .failed } else none
  | .deliverAnswer => match s.switch with
    | .answered user => some { s with
        tokenOps := s.tokenOps ++ [.store user]
        switchStorePending := true
        switch := .storing }
    | _ => none
  | .runStore => match s.tokenOps with
    | .store user :: ops => some { s with
        stored := some user
        currentUser := some user
        tokenOps := ops
        switch := .stored }
    | _ => none
  | .finishSwitch =>
    if s.switch = .stored then
      some { s with switchStorePending := false, switch := .done }
    else none
  | .wake call =>
    if s.calls[call]? = some .awaitingStore ∧ (s.switch = .stored ∨ s.switch = .done) then
      some { s with calls := s.calls.set call (.resolved s.currentUser) }
    else none

/-! ### What a step does -/

/-- The steps, read as rules. -/
inductive Moves (s : State) : Action → State → Prop
  | refresh : Moves s .refresh s.queueRenewal
  | begin {call : ℕ} {ops : List Op} (hops : s.tokenOps = .renew call .waiting :: ops) :
      Moves s .begin { s with tokenOps := .renew call (.sent s.stored) :: ops }
  | serve {call : ℕ} {user : Option Tokens} {ops : List Op}
      (hops : s.tokenOps = .renew call (.sent user) :: ops) :
      Moves s .serve { s with
        tokenOps := .renew call (s.renewal user) :: ops
        serial := s.serial + 1 }
  | deliver {call : ℕ} {renewal : Renewal} {ops : List Op} {s' : State}
      (hops : s.tokenOps = .renew call renewal :: ops)
      (hs' : s.deliver call ops renewal = some s') :
      Moves s .deliver s'
  | switchTenant (hswitch : s.switch = .idle) :
      Moves s .switchTenant { s with switch := .posting false }
  | receive {retried : Bool} (hswitch : s.switch = .posting retried) :
      Moves s .receive { s with switch := .received }
  | join {call : ℕ} (hswitch : s.switch = .posting false) (hcall : call < s.calls.length) :
      Moves s (.unauthorize (some call)) { s with switch := .unauthorized call }
  | unauthorize (hswitch : s.switch = .posting false) :
      Moves s (.unauthorize none) { s.queueRenewal with switch := .unauthorized s.calls.length }
  | retry {call : ℕ} {user : Tokens} (hswitch : s.switch = .unauthorized call)
      (hcall : s.calls[call]? = some (.resolved (some user))) :
      Moves s .resume { s with switch := .posting true }
  | giveUp {call : ℕ} (hswitch : s.switch = .unauthorized call)
      (hcall : s.calls[call]? = some (.resolved none)) :
      Moves s .resume { s with switch := .failed }
  | revoke (hswitch : s.switch = .received) (hrevoked : s.revoked = false) :
      Moves s .revoke { s with revoked := true }
  | answer (hswitch : s.switch = .received) :
      Moves s .answer { s with switch := .answered ⟨.new, s.serial⟩, serial := s.serial + 1 }
  | reject (hswitch : s.switch = .received) (hrevoked : s.revoked = false) :
      Moves s .reject { s with switch := .failed }
  | deliverAnswer {user : Tokens} (hswitch : s.switch = .answered user) :
      Moves s .deliverAnswer { s with
        tokenOps := s.tokenOps ++ [.store user]
        switchStorePending := true
        switch := .storing }
  | runStore {user : Tokens} {ops : List Op} (hops : s.tokenOps = .store user :: ops) :
      Moves s .runStore { s with
        stored := some user
        currentUser := some user
        tokenOps := ops
        switch := .stored }
  | finishSwitch (hswitch : s.switch = .stored) :
      Moves s .finishSwitch { s with switchStorePending := false, switch := .done }
  | wake {call : ℕ} (hcall : s.calls[call]? = some .awaitingStore)
      (hswitch : s.switch = .stored ∨ s.switch = .done) :
      Moves s (.wake call) { s with calls := s.calls.set call (.resolved s.currentUser) }

variable {a : Action} {op : Op} {user : Tokens} {ops : List Op} {r : Renewal} {i : ℕ}

/-- A guarded step was possible, and its result is the one behind the guard. -/
theorem of_guard {c : Prop} [Decidable c] {P : State → Prop} {t s' : State}
    (h : (if c then some t else none) = some s') (hP : c → P t) : P s' := by
  obtain ⟨hc, hs'⟩ := Option.ite_none_right_eq_some.mp h
  obtain rfl := Option.some.inj hs'
  exact hP hc

/-- A 401 lets the request wait for the renewal in flight or for a new one. -/
theorem moves_of_unauthorize {s s' : State} {inFlight : Option ℕ}
    (h : step s (.unauthorize inFlight) = some s') : Moves s (.unauthorize inFlight) s' := by
  simp only [step] at h
  split at h
  · cases inFlight with
    | none =>
      obtain rfl := Option.some.inj h
      exact .unauthorize ‹_›
    | some call => exact of_guard h fun hcall => .join ‹_› hcall
  · cases h

/-- The request is sent again, or given up, by what the renewal resolved to. -/
theorem moves_of_resume {s s' : State} (h : step s .resume = some s') : Moves s .resume s' := by
  simp only [step] at h
  split at h
  · split at h
    · obtain rfl := Option.some.inj h
      exact .retry ‹_› ‹_›
    · obtain rfl := Option.some.inj h
      exact .giveUp ‹_› ‹_›
    · cases h
  · cases h

/-- Every step follows a rule. -/
theorem moves_of_step {s s' : State} (h : step s a = some s') : Moves s a s' := by
  cases a with
  | unauthorize inFlight => exact moves_of_unauthorize h
  | resume => exact moves_of_resume h
  -- the steps behind a guard
  | switchTenant => exact of_guard h fun hswitch => .switchTenant hswitch
  | revoke => exact of_guard h fun hguard => .revoke hguard.1 hguard.2
  | answer => exact of_guard h fun hswitch => .answer hswitch
  | reject => exact of_guard h fun hguard => .reject hguard.1 hguard.2
  | finishSwitch => exact of_guard h fun hswitch => .finishSwitch hswitch
  | wake call => exact of_guard h fun hguard => .wake hguard.1 hguard.2
  -- the steps that read the head of the queue or the state of the switch
  | refresh =>
    obtain rfl := Option.some.inj h
    exact .refresh
  | deliver =>
    simp only [step] at h
    split at h
    · exact .deliver ‹_› h
    · cases h
  | begin | serve | receive | deliverAnswer | runStore =>
    simp only [step] at h
    split at h
    · obtain rfl := Option.some.inj h
      constructor
      assumption
    · cases h

/-- The condition on steps: a refusal arrives only while the store phase is queued. -/
def covered : Action → State → Bool
  | .deliver, s => match s.tokenOps with
    | .renew _ .refused :: _ => s.switchStorePending
    | _ => true
  | _, _ => true

/-! ## Invariant -/

/-- The server has taken the request, and nothing has gone wrong since. -/
def Switch.taken : Switch → Bool
  | .received | .answered _ | .storing | .stored | .done => true
  | _ => false

/-- The store phase is over. -/
def Switch.over : Switch → Bool
  | .stored | .done => true
  | _ => false

def Op.isStore : Op → Bool
  | .store _ => true
  | _ => false

/-- An operation that is not the first one has not begun. -/
def Op.waits : Op → Bool
  | .renew _ .waiting => true
  | .store _ => true
  | _ => false

/-- What the first operation has done so far fits the user that is stored. -/
def Op.fits (user : Tokens) (revoked : Bool) : Op → Prop
  | .renew _ (.sent u) => u = some user
  | .renew _ (.granted u) => u.tenant = user.tenant
  | .renew _ .refused => revoked = true ∧ user.tenant = .old
  | _ => True

/-- The operations: the first may have begun. -/
def QueueFits (user : Tokens) (revoked : Bool) : List Op → Prop
  | [] => True
  | op :: ops => op.fits user revoked ∧ ∀ op' ∈ ops, op'.waits = true

structure Invariant (s : State) : Prop where
  user : ∃ user, s.stored = some user ∧ s.currentUser = some user ∧
    (user.tenant = .new ↔ s.switch.over = true) ∧ QueueFits user s.revoked s.tokenOps
  revoked : s.revoked = true → s.switch.taken = true
  pending : s.switchStorePending = true ↔ s.switch = .storing ∨ s.switch = .stored
  answered : ∀ user, s.switch = .answered user → user.tenant = .new
  storeNew : ∀ user, .store user ∈ s.tokenOps → user.tenant = .new
  stores : s.tokenOps.countP Op.isStore = if s.switch = .storing then 1 else 0
  queued : ∀ i : ℕ, s.calls[i]? = some .queued → ∃ renewal, .renew i renewal ∈ s.tokenOps
  awaiting : ∀ i : ℕ, s.calls[i]? = some .awaitingStore → s.switch = .storing ∨ s.switch.over = true
  resolved : ∀ i : ℕ, s.calls[i]? ≠ some (.resolved none)
  unauthorized : ∀ i, s.switch = .unauthorized i → i < s.calls.length

/-- An operation that has not begun fits any user. -/
theorem fits_of_waits (h : op.waits = true) (user : Tokens) (revoked : Bool) :
    op.fits user revoked := by
  cases op with
  | store u => trivial
  | renew i r => cases r <;> trivial

/-- An operation at the end has not begun. -/
theorem QueueFits.append {revoked : Bool} (h : QueueFits user revoked ops) (hop : op.waits = true) :
    QueueFits user revoked (ops ++ [op]) := by
  cases ops with
  | nil =>
    exact ⟨fits_of_waits hop _ _, by simp⟩
  | cons op' ops =>
    refine ⟨h.1, fun op'' hmem => ?_⟩
    rcases List.mem_append.mp hmem with hmem | hmem
    · exact h.2 op'' hmem
    · exact List.mem_singleton.mp hmem ▸ hop

/-- When the first operation is over, no other has begun. -/
theorem QueueFits.tail {user' : Tokens} {revoked revoked' : Bool}
    (h : QueueFits user revoked (op :: ops)) : QueueFits user' revoked' ops := by
  cases ops with
  | nil => trivial
  | cons op' ops =>
    exact ⟨fits_of_waits (h.2 op' List.mem_cons_self) _ _,
      fun op'' hmem => h.2 op'' (List.mem_cons_of_mem _ hmem)⟩

/-- A renewal that is sent or granted is not touched by a revocation. -/
theorem QueueFits.revoke (h : QueueFits user false ops) : QueueFits user true ops := by
  cases ops with
  | nil => trivial
  | cons op ops =>
    refine ⟨?_, h.2⟩
    cases op with
    | store u => trivial
    | renew i r =>
      cases r with
      | refused => exact absurd h.1.1 (by simp)
      | _ => exact h.1

/-- A signed-in client meets the invariant. -/
theorem Invariant.signedIn : Invariant .signedIn where
  user := ⟨⟨.old, 0⟩, rfl, rfl, by decide, trivial⟩
  revoked h := absurd h (by decide)
  pending := by decide
  answered _ h := absurd h (by simp [State.signedIn])
  storeNew _ h := absurd h (by simp [State.signedIn])
  stores := rfl
  queued _ h := absurd h (by simp [State.signedIn])
  awaiting _ h := absurd h (by simp [State.signedIn])
  resolved _ h := absurd h (by simp [State.signedIn])
  unauthorized _ h := absurd h (by simp [State.signedIn])

/-- A new renewal at the end of the queue, for a new call. -/
theorem Invariant.queueRenewal {s : State} (hs : Invariant s) : Invariant s.queueRenewal := by
  obtain ⟨user, hstored, hcurrent, hnew, hqueue⟩ := hs.user
  have hcases : ∀ {i c}, s.queueRenewal.calls[i]? = some c →
      s.calls[i]? = some c ∨ (i = s.calls.length ∧ c = .queued) := by
    intro i c h
    change (s.calls ++ [Call.queued])[i]? = some c at h
    rcases Nat.lt_trichotomy i s.calls.length with hlt | heq | hgt
    · exact .inl (by rwa [List.getElem?_append_left hlt] at h)
    · subst heq
      exact .inr ⟨rfl, by simpa [eq_comm] using h⟩
    · rw [List.getElem?_append_right hgt.le, List.getElem?_singleton, if_neg (by omega)] at h
      exact absurd h (by simp)
  refine ⟨⟨user, hstored, hcurrent, hnew, hqueue.append rfl⟩, hs.revoked, hs.pending, hs.answered,
    fun u hu => hs.storeNew u (by simpa [State.queueRenewal] using hu), ?_, fun i hi => ?_,
    fun i hi => ?_, fun i hi => ?_, fun i hi => ?_⟩
  · change (s.tokenOps ++ [Op.renew s.calls.length .waiting]).countP Op.isStore = _
    rw [List.countP_append, hs.stores]
    rfl
  · rcases hcases hi with h | ⟨rfl, -⟩
    · obtain ⟨r, hr⟩ := hs.queued i h
      exact ⟨r, List.mem_append_left _ hr⟩
    · exact ⟨.waiting, List.mem_append_right _ (by simp)⟩
  · rcases hcases hi with h | ⟨-, h⟩
    · exact hs.awaiting i h
    · exact absurd h (by simp)
  · rcases hcases hi with h | ⟨-, h⟩
    · exact hs.resolved i h
    · exact absurd h (by simp)
  · have hlt := hs.unauthorized i hi
    simp only [State.queueRenewal, List.length_append, List.length_singleton]
    omega

/-! ## One step -/

section Steps

variable {s s' : State}

/-- Before the store phase no call awaits it. -/
theorem Invariant.not_awaiting (hs : Invariant s) (hover : s.switch.over = false)
    (hstoring : s.switch ≠ .storing) (i : ℕ) : s.calls[i]? ≠ some .awaitingStore := by
  intro h
  rcases hs.awaiting i h with h | h
  · exact hstoring h
  · exact absurd (hover.symm.trans h) (by simp)

/-- The switch goes on, before the store phase. -/
theorem Invariant.setSwitch (hs : Invariant s) (hover : s.switch.over = false)
    (hstoring : s.switch ≠ .storing) {w : Switch} (serial : ℕ) (hover' : w.over = false)
    (hstoring' : w ≠ .storing) (htaken : s.revoked = true → w.taken = true)
    (hanswered : ∀ user, w = .answered user → user.tenant = .new)
    (hunauthorized : ∀ i, w = .unauthorized i → i < s.calls.length) :
    Invariant { s with switch := w, serial } := by
  obtain ⟨user, hstored, hcurrent, hnew, hqueue⟩ := hs.user
  have hstored' : ∀ {v : Switch}, v.over = false → v ≠ .stored := by
    rintro v hv rfl
    simp [Switch.over] at hv
  refine ⟨⟨user, hstored, hcurrent, ?_, hqueue⟩, htaken, ?_, hanswered, hs.storeNew, ?_, hs.queued,
    fun i hi => absurd hi (hs.not_awaiting hover hstoring i), hs.resolved, hunauthorized⟩
  · rw [hnew, hover, hover']
  · rw [hs.pending]
    simp [hstoring, hstoring', hstored' hover, hstored' hover']
  · rw [hs.stores, if_neg hstoring, if_neg hstoring']

/-- The first operation goes on. -/
theorem Invariant.setHead (hs : Invariant s) {call : ℕ} {r' : Renewal}
    (hops : s.tokenOps = .renew call r :: ops) (serial : ℕ)
    (hfits : ∀ user, s.stored = some user → (Op.renew call r').fits user s.revoked) :
    Invariant { s with tokenOps := .renew call r' :: ops, serial } := by
  obtain ⟨user, hstored, hcurrent, hnew, hqueue⟩ := hs.user
  have hstores := hs.stores
  rw [hops] at hqueue hstores
  refine ⟨⟨user, hstored, hcurrent, hnew, hfits user hstored, hqueue.2⟩, hs.revoked, hs.pending,
    hs.answered, fun u hu => hs.storeNew u ?_, hstores, fun i hi => ?_, hs.awaiting, hs.resolved,
    hs.unauthorized⟩
  · rw [hops]
    simpa using hu
  · obtain ⟨r'', hr''⟩ := hs.queued i hi
    rw [hops, List.mem_cons] at hr''
    rcases hr'' with heq | hmem
    · exact ⟨r', by rw [(Op.renew.inj heq).1]; exact List.mem_cons_self⟩
    · exact ⟨r'', List.mem_cons_of_mem _ hmem⟩

/-- A call after one of them was set. -/
theorem getElem?_set_cases {calls : List Call} {call : ℕ} {c c' : Call}
    (h : (calls.set call c)[i]? = some c') : (i ≠ call ∧ calls[i]? = some c') ∨ c' = c := by
  rw [List.getElem?_set] at h
  split_ifs at h with hcall hlt
  · exact .inr (Option.some.inj h).symm
  · exact .inl ⟨fun heq => hcall heq.symm, h⟩

/-- The first operation is a renewal and is over; its call resolves or awaits the store phase. -/
theorem Invariant.pop (hs : Invariant s) {call : ℕ} (hops : s.tokenOps = .renew call r :: ops)
    {stored currentUser : Option Tokens} (hstored : stored = some user)
    (hcurrent : currentUser = some user) (hnew : user.tenant = .new ↔ s.switch.over = true)
    {c : Call} (hqueued : c ≠ .queued) (hresolved : c ≠ .resolved none)
    (hawaiting : c = .awaitingStore → s.switch = .storing ∨ s.switch.over = true) :
    Invariant { s with stored, currentUser, tokenOps := ops, calls := s.calls.set call c } := by
  obtain ⟨user', -, -, -, hqueue⟩ := hs.user
  have hstores := hs.stores
  rw [hops] at hqueue hstores
  refine ⟨⟨user, hstored, hcurrent, hnew, hqueue.tail⟩, hs.revoked, hs.pending, hs.answered,
    fun u hu => hs.storeNew u (hops ▸ List.mem_cons_of_mem _ hu), ?_, fun i hi => ?_,
    fun i hi => ?_, fun i hi => ?_, fun i hi => ?_⟩
  · simpa [Op.isStore] using hstores
  · rcases getElem?_set_cases hi with ⟨hne, hold⟩ | h
    · obtain ⟨r', hr'⟩ := hs.queued i hold
      rw [hops, List.mem_cons] at hr'
      rcases hr' with heq | hmem
      · exact absurd (Op.renew.inj heq).1 hne
      · exact ⟨r', hmem⟩
    · exact absurd h.symm hqueued
  · rcases getElem?_set_cases hi with ⟨-, hold⟩ | h
    · exact hs.awaiting i hold
    · exact hawaiting h.symm
  · rcases getElem?_set_cases hi with ⟨-, hold⟩ | h
    · exact hs.resolved i hold
    · exact hresolved h.symm
  · have hlt := hs.unauthorized i hi
    simpa using hlt

/-- The answer of a renewal arrives. -/
theorem Invariant.deliver (hs : Invariant s) (hcovered : covered .deliver s = true) {call : ℕ}
    (hops : s.tokenOps = .renew call r :: ops) (hs' : s.deliver call ops r = some s') :
    Invariant s' := by
  obtain ⟨user, hstored, hcurrent, hnew, hqueue⟩ := hs.user
  rw [hops] at hqueue
  cases r with
  | waiting => exact absurd hs' (by simp [State.deliver])
  | sent u => exact absurd hs' (by simp [State.deliver])
  | granted u =>
    obtain rfl := Option.some.inj hs'
    have htenant : u.tenant = user.tenant := hqueue.1
    exact hs.pop hops rfl rfl (by rw [htenant, hnew]) (by simp) (by simp) (by simp)
  | refused =>
    -- the store phase is queued, so that the call awaits it
    have hpending : s.switchStorePending = true := by
      simpa [covered, hops] using hcovered
    rw [State.deliver, if_pos hpending] at hs'
    obtain rfl := Option.some.inj hs'
    refine hs.pop (c := .awaitingStore) hops hstored hcurrent hnew (by simp) (by simp) fun _ => ?_
    rcases hs.pending.mp hpending with h | h
    · exact .inl h
    · exact .inr (by rw [h]; rfl)

/-- The server revokes the old grant. -/
theorem Invariant.revoke (hs : Invariant s) (hswitch : s.switch = .received)
    (hrevoked : s.revoked = false) : Invariant { s with revoked := true } := by
  obtain ⟨user, hstored, hcurrent, hnew, hqueue⟩ := hs.user
  rw [hrevoked] at hqueue
  exact ⟨⟨user, hstored, hcurrent, hnew, hqueue.revoke⟩, fun _ => by rw [hswitch]; rfl, hs.pending,
    hs.answered, hs.storeNew, hs.stores, hs.queued, hs.awaiting, hs.resolved, hs.unauthorized⟩

/-- The answer of the switch arrives, and its store phase is queued. -/
theorem Invariant.deliverAnswer (hs : Invariant s) (hswitch : s.switch = .answered user) :
    Invariant { s with
      tokenOps := s.tokenOps ++ [.store user]
      switchStorePending := true
      switch := .storing } := by
  obtain ⟨user', hstored, hcurrent, hnew, hqueue⟩ := hs.user
  rw [hswitch] at hnew
  refine ⟨⟨user', hstored, hcurrent, hnew, hqueue.append rfl⟩, fun _ => rfl, by simp, by simp,
    fun u hu => ?_, ?_, fun i hi => ?_, fun _ _ => .inl rfl, hs.resolved, by simp⟩
  · rcases List.mem_append.mp hu with hmem | hmem
    · exact hs.storeNew u hmem
    · obtain rfl : u = user := by simpa using hmem
      exact hs.answered u hswitch
  · simp [hs.stores, hswitch, Op.isStore]
  · obtain ⟨r, hr⟩ := hs.queued i hi
    exact ⟨r, List.mem_append_left _ hr⟩

/-- While its store phase is queued, the switch is there. -/
theorem Invariant.storing (hs : Invariant s) (hops : s.tokenOps = .store user :: ops) :
    s.switch = .storing := by
  by_contra hne
  have hstores := hs.stores
  rw [hops, if_neg hne] at hstores
  simp [Op.isStore] at hstores

/-- The store phase runs. -/
theorem Invariant.runStore (hs : Invariant s) (hops : s.tokenOps = .store user :: ops) :
    Invariant { s with
      stored := some user
      currentUser := some user
      tokenOps := ops
      switch := .stored } := by
  obtain ⟨user', -, -, -, hqueue⟩ := hs.user
  have hswitch := hs.storing hops
  have hstores := hs.stores
  rw [hops] at hqueue hstores
  have htenant : user.tenant = .new := hs.storeNew user (by simp [hops])
  refine ⟨⟨user, rfl, rfl, by simp [htenant, Switch.over], hqueue.tail⟩, fun _ => rfl, ?_, by simp,
    fun u hu => hs.storeNew u (hops ▸ List.mem_cons_of_mem _ hu), ?_, fun i hi => ?_,
    fun _ _ => .inr rfl, hs.resolved, by simp⟩
  · simp [hs.pending, hswitch]
  · rw [List.countP_cons_of_pos rfl, if_pos hswitch] at hstores
    rw [if_neg (by simp)]
    exact Nat.succ.inj hstores
  · obtain ⟨r, hr⟩ := hs.queued i hi
    rw [hops, List.mem_cons] at hr
    exact ⟨r, hr.resolve_left (by simp)⟩

/-- The switch is over. -/
theorem Invariant.finishSwitch (hs : Invariant s) (hswitch : s.switch = .stored) :
    Invariant { s with switchStorePending := false, switch := .done } := by
  obtain ⟨user, hstored, hcurrent, hnew, hqueue⟩ := hs.user
  rw [hswitch] at hnew
  exact ⟨⟨user, hstored, hcurrent, hnew, hqueue⟩, fun _ => rfl, by simp, by simp, hs.storeNew,
    by simp [hs.stores, hswitch], hs.queued, fun _ _ => .inr rfl, hs.resolved, by simp⟩

/-- A call that has awaited the store phase resolves to the current user. -/
theorem Invariant.wake (hs : Invariant s) (call : ℕ) :
    Invariant { s with calls := s.calls.set call (.resolved s.currentUser) } := by
  obtain ⟨user, hstored, hcurrent, hnew, hqueue⟩ := hs.user
  refine ⟨⟨user, hstored, hcurrent, hnew, hqueue⟩, hs.revoked, hs.pending, hs.answered, hs.storeNew,
    hs.stores, fun i hi => ?_, fun i hi => ?_, fun i hi => ?_, fun i hi => ?_⟩
  · exact hs.queued i ((getElem?_set_cases hi).resolve_right (by simp)).2
  · exact hs.awaiting i ((getElem?_set_cases hi).resolve_right (by simp)).2
  · rcases getElem?_set_cases hi with ⟨-, hold⟩ | h
    · exact hs.resolved i hold
    · exact absurd h (by simp [hcurrent])
  · simpa using hs.unauthorized i hi

/-- The server's answer fits the user whose refresh token was sent. -/
theorem fits_renewal (call : ℕ) (user : Tokens) :
    (Op.renew call (s.renewal (some user))).fits user s.revoked := by
  rw [State.renewal]
  split_ifs with h
  · exact ⟨h.2, h.1⟩
  · exact rfl

/-- Every covered step keeps the invariant. -/
theorem Invariant.of_moves (hs : Invariant s) (hcovered : covered a s = true) (h : Moves s a s') :
    Invariant s' := by
  cases h with
  | refresh => exact hs.queueRenewal
  | begin hops => exact hs.setHead hops s.serial fun _ hstored => hstored
  | serve hops =>
    obtain ⟨user, hstored, -, -, hqueue⟩ := hs.user
    rw [hops] at hqueue
    obtain rfl : _ = some user := hqueue.1
    refine hs.setHead hops _ fun user' hstored' => ?_
    obtain rfl := Option.mem_unique hstored hstored'
    exact fits_renewal _ _
  | deliver hops hs' => exact hs.deliver hcovered hops hs'
  | switchTenant hswitch =>
    refine hs.setSwitch (by rw [hswitch]; rfl) (by simp [hswitch]) s.serial rfl (by simp)
      (fun h => ?_) (by simp) (by simp)
    exact absurd (hs.revoked h) (by simp [hswitch, Switch.taken])
  | receive hswitch =>
    exact hs.setSwitch (by rw [hswitch]; rfl) (by simp [hswitch]) s.serial rfl (by simp)
      (fun _ => rfl) (by simp) (by simp)
  | join hswitch hcall =>
    refine hs.setSwitch (by rw [hswitch]; rfl) (by simp [hswitch]) s.serial rfl (by simp)
      (fun h => ?_) (by simp) fun i hi => ?_
    · exact absurd (hs.revoked h) (by simp [hswitch, Switch.taken])
    · exact Switch.unauthorized.inj hi ▸ hcall
  | unauthorize hswitch =>
    refine hs.queueRenewal.setSwitch (by change s.switch.over = _; rw [hswitch]; rfl)
      (by change s.switch ≠ _; simp [hswitch]) s.serial rfl (by simp) (fun h => ?_) (by simp)
      fun i hi => ?_
    · exact absurd (hs.revoked h) (by simp [hswitch, Switch.taken])
    · obtain rfl := Switch.unauthorized.inj hi
      simp [State.queueRenewal]
  | retry hswitch _ =>
    refine hs.setSwitch (by rw [hswitch]; rfl) (by simp [hswitch]) s.serial rfl (by simp)
      (fun h => ?_) (by simp) (by simp)
    exact absurd (hs.revoked h) (by simp [hswitch, Switch.taken])
  | giveUp _ hcall => exact absurd hcall (hs.resolved _)
  | revoke hswitch hrevoked => exact hs.revoke hswitch hrevoked
  | answer hswitch =>
    refine hs.setSwitch (by rw [hswitch]; rfl) (by simp [hswitch]) _ rfl (by simp) (fun _ => rfl)
      (fun user hu => ?_) (by simp)
    rw [← Switch.answered.inj hu]
  | reject hswitch hrevoked =>
    exact hs.setSwitch (by rw [hswitch]; rfl) (by simp [hswitch]) s.serial rfl (by simp)
      (fun h => absurd (hrevoked.symm.trans h) (by simp)) (by simp) (by simp)
  | deliverAnswer hswitch => exact hs.deliverAnswer hswitch
  | runStore hops => exact hs.runStore hops
  | finishSwitch hswitch => exact hs.finishSwitch hswitch
  | wake _ _ => exact hs.wake _

end Steps

/-! ## Every call comes to its end -/

/-- The user has called; every other step goes on with what was called. -/
def Action.isCall : Action → Bool
  | .refresh | .switchTenant => true
  | _ => false

/-- The covered steps that go on with what was called. -/
def goesOn (a : Action) (s : State) : Bool :=
  !a.isCall && covered a s

/-- Nothing is left to do. -/
def Settled (s : State) : Prop :=
  s.tokenOps = [] ∧ (∀ call ∈ s.calls, ∃ token, call = .resolved token) ∧
    (s.switch = .idle ∨ s.switch = .done ∨ s.switch = .failed)

instance : DecidablePred fun call : Call => ∃ token, call = .resolved token
  | .queued => isFalse (by simp)
  | .awaitingStore => isFalse (by simp)
  | .resolved token => isTrue ⟨token, rfl⟩

instance : DecidablePred Settled := fun _ => inferInstanceAs (Decidable (_ ∧ _ ∧ _))

/-- The steps that an operation has ahead of it, and one for its call. -/
def Op.rank : Op → ℕ
  | .renew _ .waiting => 5
  | .renew _ (.sent _) => 4
  | .renew _ _ => 3
  | .store _ => 2

/-- A bound on the steps that the switch has ahead of it, with those of what it queues. -/
def Switch.rank (revoked : Bool) : Switch → ℕ
  | .posting false => 20
  | .unauthorized _ => 14
  | .posting true => 12
  | .received => if revoked then 9 else 10
  | .answered _ => 8
  | .storing => 4
  | .stored => 3
  | .idle | .done | .failed => 0

/-- A bound on the steps ahead. -/
def State.rank (s : State) : ℕ :=
  (s.tokenOps.map Op.rank).sum + s.calls.count .awaitingStore + s.switch.rank s.revoked

section Progress

variable {s s' : State}

/-- The first operation goes on, if its answer may arrive. -/
theorem Invariant.exists_step_of_head (hs : Invariant s) (hops : s.tokenOps = op :: ops) :
    ∃ a, goesOn a s = true ∧ (step s a).isSome = true := by
  obtain ⟨user, -, -, hnew, hqueue⟩ := hs.user
  rw [hops] at hqueue
  cases op with
  | store u => exact ⟨.runStore, rfl, by simp [step, hops]⟩
  | renew call r =>
    cases r with
    | waiting => exact ⟨.begin, rfl, by simp [step, hops]⟩
    | sent u => exact ⟨.serve, rfl, by simp [step, hops]⟩
    | granted u =>
      exact ⟨.deliver, by simp [goesOn, Action.isCall, covered, hops],
        by simp [step, State.deliver, hops]⟩
    | refused =>
      -- the old grant is revoked, so that the switch is on its way or its store phase queued
      obtain ⟨hrevoked, hold⟩ : s.revoked = true ∧ user.tenant = .old := hqueue.1
      have hover : ¬ s.switch.over = true := fun h => by simp [hnew.mpr h] at hold
      have htaken := hs.revoked hrevoked
      cases hswitch : s.switch with
      | received => exact ⟨.answer, rfl, by simp [step, hswitch]⟩
      | answered u => exact ⟨.deliverAnswer, rfl, by simp [step, hswitch]⟩
      | storing =>
        have hpending := hs.pending.mpr (.inl hswitch)
        exact ⟨.deliver, by simp [goesOn, Action.isCall, covered, hops, hpending],
          by simp [step, State.deliver, hops, hpending]⟩
      | _ => simp [hswitch, Switch.taken, Switch.over] at htaken hover

/-- Without an operation in the queue a call is resolved, or awaits a store phase that is over. -/
theorem Invariant.call_of_nil (hs : Invariant s) (hops : s.tokenOps = []) {call : Call}
    (hcall : s.calls[i]? = some call) :
    (∃ user, call = .resolved (some user)) ∨ (call = .awaitingStore ∧ s.switch.over = true) := by
  cases call with
  | queued =>
    obtain ⟨r, hr⟩ := hs.queued i hcall
    simp [hops] at hr
  | awaitingStore =>
    refine .inr ⟨rfl, (hs.awaiting i hcall).resolve_left fun hswitch => ?_⟩
    have hstores := hs.stores
    simp [hops, hswitch] at hstores
  | resolved token =>
    cases token with
    | none => exact absurd hcall (hs.resolved i)
    | some user => exact .inl ⟨user, rfl⟩

/-- If nothing but a call is left, it has awaited the store phase. -/
theorem Invariant.exists_wake (hs : Invariant s) (hops : s.tokenOps = []) (hsettled : ¬ Settled s)
    (hswitch : s.switch = .idle ∨ s.switch = .done ∨ s.switch = .failed) :
    ∃ a, goesOn a s = true ∧ (step s a).isSome = true := by
  have hcalls : ¬ ∀ call ∈ s.calls, ∃ token, call = .resolved token := fun h =>
    hsettled ⟨hops, h, hswitch⟩
  push Not at hcalls
  obtain ⟨call, hmem, hcall⟩ := hcalls
  obtain ⟨i, hi⟩ := List.mem_iff_getElem?.mp hmem
  rcases hs.call_of_nil hops hi with ⟨user, huser⟩ | ⟨hawaits, hover⟩
  · exact absurd huser (hcall _)
  · have hdone : s.switch = .done := by
      rcases hswitch with h | h | h
      · simp [h, Switch.over] at hover
      · exact h
      · simp [h, Switch.over] at hover
    exact ⟨.wake i, rfl, by simp [step, hdone, hi, hawaits]⟩

/-- Until everything is settled, a step is possible. -/
theorem Invariant.exists_step (hs : Invariant s) (hsettled : ¬ Settled s) :
    ∃ a, goesOn a s = true ∧ (step s a).isSome = true := by
  cases hops : s.tokenOps with
  | cons op ops => exact hs.exists_step_of_head hops
  | nil =>
    cases hswitch : s.switch with
    | posting b => exact ⟨.receive, rfl, by simp [step, hswitch]⟩
    | received => exact ⟨.answer, rfl, by simp [step, hswitch]⟩
    | answered u => exact ⟨.deliverAnswer, rfl, by simp [step, hswitch]⟩
    | stored => exact ⟨.finishSwitch, rfl, by simp [step, hswitch]⟩
    | storing =>
      have hstores := hs.stores
      simp [hops, hswitch] at hstores
    | unauthorized i =>
      have hcall := List.getElem?_eq_getElem (hs.unauthorized i hswitch)
      rcases hs.call_of_nil hops hcall with ⟨user, huser⟩ | ⟨-, hover⟩
      · rw [huser] at hcall
        exact ⟨.resume, rfl, by simp [step, hswitch, hcall]⟩
      · simp [hswitch, Switch.over] at hover
    | idle => exact hs.exists_wake hops hsettled (.inl hswitch)
    | done => exact hs.exists_wake hops hsettled (.inr (.inl hswitch))
    | failed => exact hs.exists_wake hops hsettled (.inr (.inr hswitch))

/-! ### The rank -/

/-- Setting a call adds at most one to those that await. -/
theorem count_set_le (calls : List Call) (i : ℕ) (c : Call) :
    (calls.set i c).count .awaitingStore ≤ calls.count .awaitingStore + 1 := by
  by_cases hi : i < calls.length
  · rw [List.count_set hi]
    split_ifs <;> omega
  · rw [List.set_eq_of_length_le (by omega)]
    omega

/-- A call that awaits is one less when it resolves. -/
theorem count_set_resolved {calls : List Call} (hcall : calls[i]? = some .awaitingStore)
    (token : Option Tokens) :
    (calls.set i (.resolved token)).count .awaitingStore < calls.count .awaitingStore := by
  obtain ⟨hi, hget⟩ := List.getElem?_eq_some_iff.mp hcall
  have hpos : 0 < calls.count .awaitingStore :=
    List.count_pos_iff.mpr (List.mem_of_getElem? hcall)
  rw [List.count_set hi, hget]
  simp only [beq_self_eq_true, if_true, reduceCtorEq, beq_iff_eq, if_false]
  omega

/-- The answer of a renewal, granted or refused. -/
theorem rank_renewal (call : ℕ) (user : Option Tokens) :
    (Op.renew call (s.renewal user)).rank = 3 := by
  cases user with
  | none => rfl
  | some user =>
    rw [State.renewal]
    split_ifs <;> rfl

/-- The end of the first operation takes three and adds at most one. -/
theorem rank_deliver {call : ℕ} (hops : s.tokenOps = .renew call r :: ops)
    (hs' : s.deliver call ops r = some s') : s'.rank < s.rank := by
  have hcount := count_set_le s.calls call
  cases r with
  | waiting => exact absurd hs' (by simp [State.deliver])
  | sent u => exact absurd hs' (by simp [State.deliver])
  | granted u =>
    obtain rfl := Option.some.inj hs'
    have hle := hcount (.resolved (some u))
    simp only [State.rank, hops, List.map_cons, List.sum_cons, Op.rank]
    omega
  | refused =>
    rw [State.deliver] at hs'
    split_ifs at hs' with hpending
    · obtain rfl := Option.some.inj hs'
      have hle := hcount .awaitingStore
      simp only [State.rank, hops, List.map_cons, List.sum_cons, Op.rank]
      omega
    · obtain rfl := Option.some.inj hs'
      have hle := hcount (.resolved none)
      simp only [State.rank, hops, List.map_cons, List.sum_cons, Op.rank]
      omega

/-- Every step that goes on with what was called lowers the rank. -/
theorem Invariant.rank_lt (hs : Invariant s) (hcall : a.isCall = false) (h : Moves s a s') :
    s'.rank < s.rank := by
  cases h with
  | refresh => simp [Action.isCall] at hcall
  | switchTenant _ => simp [Action.isCall] at hcall
  | begin hops => simp [State.rank, hops, Op.rank]
  | @serve call user ops hops =>
    have hsent : (Op.renew call (.sent user)).rank = 4 := rfl
    simp only [State.rank, hops, List.map_cons, List.sum_cons, rank_renewal, hsent]
    omega
  | deliver hops hs' => exact rank_deliver hops hs'
  | @receive retried hswitch =>
    simp only [State.rank, hswitch]
    cases retried <;> cases s.revoked <;> simp [Switch.rank]
  | join hswitch _ => simp [State.rank, hswitch, Switch.rank]
  | unauthorize hswitch =>
    simp only [State.rank, State.queueRenewal, hswitch, List.map_append, List.sum_append,
      List.count_append, List.map_singleton, List.sum_singleton, Op.rank, Switch.rank]
    rw [List.count_eq_zero_of_not_mem (l := [Call.queued]) (by simp)]
    omega
  | retry hswitch _ => simp [State.rank, hswitch, Switch.rank]
  | giveUp hswitch _ => simp [State.rank, hswitch, Switch.rank]
  | revoke hswitch hrevoked => simp [State.rank, hswitch, hrevoked, Switch.rank]
  | answer hswitch =>
    simp only [State.rank, hswitch]
    cases s.revoked <;> simp [Switch.rank]
  | reject hswitch hrevoked => simp [State.rank, hswitch, hrevoked, Switch.rank]
  | deliverAnswer hswitch =>
    simp only [State.rank, hswitch, List.map_append, List.sum_append, List.map_singleton,
      List.sum_singleton, Op.rank, Switch.rank]
    omega
  | runStore hops =>
    simp only [State.rank, hs.storing hops, hops, List.map_cons, List.sum_cons, Op.rank,
      Switch.rank]
    omega
  | finishSwitch hswitch => simp [State.rank, hswitch, Switch.rank]
  | wake hawaits _ =>
    have hlt := count_set_resolved hawaits s.currentUser
    simp only [State.rank]
    omega

/-- A step that goes on with what was called keeps the invariant and lowers the rank. -/
theorem Invariant.of_goesOn (hs : Invariant s) (hgoes : goesOn a s = true)
    (hstep : step s a = some s') : Invariant s' ∧ s'.rank < s.rank := by
  obtain ⟨hcall, hcovered⟩ : a.isCall = false ∧ covered a s = true := by
    simpa [goesOn] using hgoes
  have hmoves := moves_of_step hstep
  exact ⟨hs.of_moves hcovered hmoves, hs.rank_lt hcall hmoves⟩

end Progress

/-! ## Main results -/

/-- In every run in which a refusal arrives only while the store phase of the switch is queued, no
`refresh` resolves to none; after a switch that succeeded, everything settles with tokens of the new
tenant; and what was called goes on until then, for no more steps than the rank says. -/
theorem switch_keeps_session {s : State}
    (h : Reach step (fun a s => covered a s = true) .signedIn s) :
    (∀ i : ℕ, s.calls[i]? ≠ some (.resolved none)) ∧
    (Settled s → s.switch = .done → ∃ user : Tokens, s.stored = some user ∧
      s.currentUser = some user ∧ user.tenant = .new) ∧
    (∀ as s', run step goesOn s as = some s' → as.length ≤ s.rank ∧
      (Settled s' ∨ ∃ a, goesOn a s' = true ∧ (step s' a).isSome = true)) := by
  have hs : Invariant s := h.invariant .signedIn fun s a s' hs hC hstep =>
    hs.of_moves hC (moves_of_step hstep)
  refine ⟨hs.resolved, fun _ hdone => ?_, fun as s' hrun => ?_⟩
  · obtain ⟨user, hstored, hcurrent, hnew, -⟩ := hs.user
    exact ⟨user, hstored, hcurrent, hnew.mpr (by rw [hdone]; rfl)⟩
  · obtain ⟨hs', hle⟩ := length_le_of_run (fun _ _ _ hs => hs.of_goesOn) hs hrun
    refine ⟨hle, ?_⟩
    by_cases hsettled : Settled s'
    · exact .inl hsettled
    · exact .inr (hs'.exists_step hsettled)

/-- A renewal meets the revocation, and its refusal arrives while the store phase is queued; the
call then resolves to the tokens of the switch, and a later one renews these. -/
def refusedInTime : List Action :=
  [.switchTenant, .receive, .refresh, .begin, .revoke, .serve, .answer, .deliverAnswer, .deliver,
    .runStore, .wake 0, .finishSwitch, .refresh, .begin, .serve, .deliver]

def switched : State :=
  ⟨some ⟨.new, 3⟩, some ⟨.new, 3⟩, [], false,
    [.resolved (some ⟨.new, 2⟩), .resolved (some ⟨.new, 3⟩)], .done, true, 4⟩

theorem switch_keeps_session_refused :
    Reach step (fun a s => covered a s = true) .signedIn switched ∧ Settled switched ∧
    (∀ i : ℕ, switched.calls[i]? ≠ some (.resolved none)) ∧
    (Settled switched → switched.switch = .done → ∃ user : Tokens, switched.stored = some user ∧
      switched.currentUser = some user ∧ user.tenant = .new) ∧
    (∀ as s', run step goesOn switched as = some s' → as.length ≤ switched.rank ∧
      (Settled s' ∨ ∃ a, goesOn a s' = true ∧ (step s' a).isSome = true)) :=
  have h : Reach step (fun a s => covered a s = true) .signedIn switched :=
    Reach.run refusedInTime .init (by decide +kernel)
  ⟨h, by decide +kernel, switch_keeps_session h⟩

/-- The refusal arrives before the answer of the switch does: `refresh` resolves to none and the
session is cleared while the switch is in flight, although the switch then succeeds. -/
theorem refresh_ends_session :
    ∃ s s', Reach step (fun _ _ => True) .signedIn s ∧ s.switch = .received ∧
      s.calls = [.resolved none] ∧ s.stored = none ∧ s.currentUser = none ∧
      run step (fun _ _ => true) s [.answer, .deliverAnswer, .runStore, .finishSwitch] = some s' ∧
      Settled s' ∧ s'.switch = .done ∧ s'.calls = [.resolved none] := by
  have hrun : run step (fun _ _ => true) .signedIn
      [.switchTenant, .receive, .refresh, .begin, .revoke, .serve, .deliver] =
      some ⟨none, none, [], false, [.resolved none], .received, true, 2⟩ := by
    decide +kernel
  refine ⟨_, ⟨some ⟨.new, 2⟩, some ⟨.new, 2⟩, [], false, [.resolved none], .done, true, 3⟩,
    by simpa using Reach.run _ .init hrun, rfl, rfl, rfl, rfl, ?_, ?_, rfl, rfl⟩
  · decide +kernel
  · decide +kernel

end DigitalTrust.AuthClient
