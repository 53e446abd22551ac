/-
# The status of a tenant

Concurrent calls of `updateStatus`, next to everything else that `Tenants` lets happen.  The call
checks the transition on the row it has read before its transaction, so what it commits is a legal
step only if the row still has that status when it is written.
-/
import DigitalTrust.Tenants

namespace DigitalTrust.Tenancy

open Interleaving ReadCommitted

/-! ## Legal commits -/

def statusOf (p : Committed) (t : Uuid) : Option TenantStatus :=
  (p.row (.tenant t)).map Tenant.status

def Event.isFor (t : Uuid) : Event → Bool
  | .statusChange t' _ _ => t' = t

/-- What may happen to the status of a tenant in a commit with the given events: nothing, or an
allowed transition that the one job for the tenant names. -/
inductive StatusStep (t : Uuid) (events : List Event) :
    Option TenantStatus → Option TenantStatus → Prop
  | kept {s : Option TenantStatus} (h : events.filter (Event.isFor t) = []) :
      StatusStep t events s s
  | moved {previous status : TenantStatus}
      (h : events.filter (Event.isFor t) = [.statusChange t previous status])
      (hallowed : status ∈ allowedStatusTransitions previous) :
      StatusStep t events (some previous) (some status)

/-- A step of the committed database in which every status moves as it may. -/
def LegalCommit (p p' : Committed) : Prop :=
  ∃ events, p'.trace = p.trace ++ events ∧ ∀ t, StatusStep t events (statusOf p t) (statusOf p' t)

/-- A tenant has a date of deactivation exactly if it is deactivated. -/
def DatesMatch (p : Committed) : Prop :=
  ∀ t (v : Tenant), p.row (.tenant t) = some v →
    (v.deactivatedAt.isSome = true ↔ v.status = .deactivated)

theorem LegalCommit.refl (p : Committed) : LegalCommit p p :=
  ⟨[], (List.append_nil _).symm, fun _ => .kept rfl⟩

/-- A tenant does not vanish. -/
theorem LegalCommit.exists {p p' : Committed} (h : LegalCommit p p') {t : Uuid}
    (ht : statusOf p t ≠ none) : statusOf p' t ≠ none := by
  obtain ⟨events, -, hsteps⟩ := h
  have hstep := hsteps t
  generalize statusOf p t = a at hstep ht
  generalize statusOf p' t = b at hstep
  cases hstep with
  | kept _ => exact ht
  | moved _ _ => exact Option.some_ne_none _

def statusContract : StoreContract Key Row Event where
  inv := DatesMatch
  rely _ := LegalCommit
  start _ _ := True
  refl _ := LegalCommit.refl
  start_stable _ _ _ _ _ _ _ := trivial

def tenantExists (i : ℕ) (t : Uuid) : statusContract.Assert i where
  holds p := statusOf p t ≠ none
  stable _ _ _ _ h hr := hr.exists h

/-! ## Commits that leave every status alone -/

section Steps

variable {i : ℕ} {p : Committed} {t : Tx Key Row Event} {post : Committed → Prop}

theorem trace_of_no_events (h : t.events = []) : (p.commit i t).trace = p.trace ++ [] := by
  rw [Pub.trace_commit, h]

/-- Each tenant that is written keeps status and date. -/
theorem step_of_kept (hinv : DatesMatch p) (hevents : t.events = [])
    (hrows : ∀ id w, t.writes (.tenant id) = some w → ∃ v v' : Tenant, p.row (.tenant id) = some v ∧
      w = some v' ∧ v'.status = v.status ∧ v'.deactivatedAt = v.deactivatedAt) :
    DatesMatch (p.commit i t) ∧ LegalCommit p (p.commit i t) := by
  refine ⟨fun id x hx => ?_, [], trace_of_no_events hevents, fun id => ?_⟩
  · cases hw : t.writes (.tenant id) with
    | none =>
      refine hinv id x ?_
      simpa [Pub.commit, hw] using hx
    | some w =>
      obtain ⟨v, v', hv, rfl, hstatus, hdate⟩ := hrows id w hw
      obtain rfl : v' = x := by simpa [Pub.commit, hw] using hx
      rw [hstatus, hdate]
      exact hinv id v hv
  · have hsame : statusOf (p.commit i t) id = statusOf p id := by
      cases hw : t.writes (.tenant id) with
      | none => simp [statusOf, Pub.commit, hw]
      | some w =>
        obtain ⟨v, v', hv, rfl, hstatus, -⟩ := hrows id w hw
        simp [statusOf, Pub.commit, hw, hv, hstatus]
    rw [hsame]
    exact .kept rfl

end Steps

variable {id : Uuid}

section Programs

variable {env : Surroundings} {C : Label → Db → Prop} {i : ℕ} {φ : statusContract.Assert i}

/-- A transaction that keeps statuses respects the contract. -/
theorem statusContract_step {m : Mine Key Row Event} {l : Label} {s : Db}
    (hs : At statusContract index C i φ m l s) (hevents : m.tx.events = [])
    (hrows : ∀ id w, m.tx.writes (.tenant id) = some w → ∃ v v' : Tenant,
      s.pub.row (.tenant id) = some v ∧ w = some v' ∧ v'.status = v.status ∧
        v'.deactivatedAt = v.deactivatedAt) :
    statusContract.Step i m.tx s.pub φ.holds := by
  obtain ⟨hinv, hlegal⟩ := step_of_kept (i := i) hs.inv hevents hrows
  exact ⟨hinv, fun _ _ => hlegal, φ.stable _ _ hs.inv hinv hs.holds hlegal⟩

/-- Tame transactions leave every status alone. -/
theorem status_tameStep (env : Surroundings) : TameStep env statusContract := by
  intro C i φ m l s hm hs
  refine ⟨fun _ => trivial, statusContract_step hs hm.events fun id w hw => ?_⟩
  obtain ⟨v, v', hv, rfl, hstatus, hdate, -⟩ := hm.tenants id w hw
  exact ⟨v, v', hs.held hv, rfl, hstatus, hdate⟩

/-- A transaction that writes no tenant and sends nothing. -/
theorem keeps_of_no_tenants {α : Type} {l : Label} {p : Service α}
    (h : Body statusContract index C i φ Mine.idle p fun _ m =>
      m.tx.events = [] ∧ ∀ id, m.tx.writes (.tenant id) = none) :
    Keeps statusContract index C i φ (transaction l i p) := by
  refine Run.transaction (Body.post h fun _ m hm s hs => ⟨φ, ?_, rfl, rfl⟩) fun _ => rfl
  refine statusContract_step hs hm.1 fun id w hw => ?_
  rw [hm.2 id] at hw
  exact absurd hw (by simp)

theorem deleteUnlessDefault_keeps_status {t : Uuid} {id : String} :
    Keeps statusContract index C i φ (deleteUnlessDefault env i t id) := by
  refine keeps_of_no_tenants (Body.seq (body_findByIdForUpdate (Body.pure ⟨rfl, fun _ => rfl⟩)
    fun s v hs hv => ?_))
  dsimp only
  split_ifs
  · exact Body.pure ⟨rfl, fun _ => rfl⟩
  · refine Body.seq (body_castUuid fun c _ => Body.seq (Body.delete
      (fun _ _ _ => Body.pure ⟨rfl, fun _ => rfl⟩) fun s' x hs' _ _ =>
        Body.pure ⟨rfl, fun id => ?_⟩))
    exact Mine.write_of_ne _ _ (by simp) _

theorem discardConnector_keeps_status :
    Keeps statusContract index C i φ (discardConnector i id) := by
  refine Keeps.tryCatch (Keeps.bind (keeps_of_no_tenants (Body.delete
    (fun _ _ _ => ⟨rfl, fun _ => rfl⟩) fun s' x hs' _ _ => ⟨rfl, fun id => ?_⟩)) fun _ =>
      Keeps.pure)
    fun _ => Keeps.pure
  exact Mine.write_of_ne _ _ (by simp) _

end Programs

/-! ## `updateStatus` -/

/-- The save of `updateStatus` finds the status and the date that the call has read. -/
def statusAsRead : Label → Db → Bool
  | .reloadForStatus t read, s | .saveStatus t read, s =>
    (s.pub.row (.tenant t)).all fun (v : Tenant) =>
      v.status = read.status && v.deactivatedAt = read.deactivatedAt
  | _, _ => true

theorem not_allowed_self (s : TenantStatus) : s ∉ allowedStatusTransitions s := by
  cases s <;> decide

section Status

variable {i : ℕ}

/-- The commit of a legal transition. -/
theorem status_step {p : Committed} {t : Tx Key Row Event} {v v' : Tenant} {status : TenantStatus}
    (now : ℕ) (hinv : DatesMatch p) (hv : p.row (.tenant id) = some v)
    (hallowed : status ∈ allowedStatusTransitions v.status)
    (hw : t.writes (.tenant id) = some (some v')) (hstatus : v'.status = status)
    (hdate : v'.deactivatedAt = if status = .deactivated then some now else none)
    (hothers : ∀ id', id' ≠ id → t.writes (.tenant id') = none)
    (hevents : t.events = [.statusChange id v.status status]) :
    DatesMatch (p.commit i t) ∧ LegalCommit p (p.commit i t) := by
  refine ⟨fun id' x hx => ?_, _, Pub.trace_commit i t p, fun id' => ?_⟩
  · by_cases hid : id' = id
    · subst hid
      obtain rfl : v' = x := by simpa [Pub.commit, hw] using hx
      rw [hdate, hstatus]
      split_ifs with hd <;> simp [hd]
    · refine hinv id' x ?_
      simpa [Pub.commit, hothers id' hid] using hx
  · by_cases hid : id' = id
    · subst hid
      have hbefore : statusOf p id' = some v.status := by simp [statusOf, hv]
      have hafter : statusOf (p.commit i t) id' = some status := by
        simp [statusOf, Pub.commit, hw, hstatus]
      rw [hbefore, hafter, hevents]
      exact .moved (by simp [Event.isFor]) hallowed
    · have hsame : statusOf (p.commit i t) id' = statusOf p id' := by
        simp [statusOf, Pub.commit, hothers id' hid]
      rw [hsame, hevents]
      exact .kept (by simpa [Event.isFor] using Ne.symm hid)

/-- The transaction of `updateStatus`. -/
theorem commitStatus_run {tenant : Tenant} {status : TenantStatus} {now : ℕ}
    (hallowed : status ∈ allowedStatusTransitions tenant.status) :
    Run statusContract index (fun l s => statusAsRead l s = true) i (tenantExists i id)
      (commitStatus i id tenant status now) fun _ _ => True := by
  refine Run.transaction (Body.seq ?_) fun _ => trivial
  -- the save reads the row again
  refine Body.seq (Body.selectIn fun s hs => ?_)
  obtain ⟨r, hr⟩ : ∃ r : Tenant, s.pub.row (.tenant id) = some r := by
    have := hs.holds
    simpa [tenantExists, statusOf, Option.ne_none_iff_exists'] using this
  have hview : (s.view i).row (.tenant id) = some r := by
    rw [hs.view]
    exact hr
  have hread : r.status = tenant.status ∧ r.deactivatedAt = tenant.deactivatedAt := by
    have := hs.cond
    simpa [statusAsRead, hr] using this
  have hne : status ≠ r.status := by
    rintro rfl
    rw [hread.1] at hallowed
    exact not_allowed_self _ hallowed
  rw [hview, storeRow]
  rw [if_neg fun h => hne (congrArg Tenant.status ((Tenant.save_self _ _).symm.trans h))]
  refine Body.seq (Body.update (fun s' hs' hno => ?_) fun s' v hs' hv _ => Body.pure ?_)
  · -- the row has not vanished in between
    obtain ⟨v, hv⟩ : ∃ v : Tenant, s'.pub.row (.tenant id) = some v := by
      have := hs'.holds
      simpa [tenantExists, statusOf, Option.ne_none_iff_exists'] using this
    have := hno v (by rw [hs'.view]; exact hv)
    simp at this
  · have hrow : s'.pub.row (.tenant id) = some v := hs'.row rfl hv
    have hfound : v.status = tenant.status ∧ v.deactivatedAt = tenant.deactivatedAt := by
      have := hs'.cond
      simpa [statusAsRead, hrow] using this
    rw [hrow]
    refine Body.emit fun s₂ hs₂ => ⟨tenantExists i id, ?_, trivial, trivial⟩
    have hv₂ : s₂.pub.row (.tenant id) = some v := hs₂.held (by simp)
    rw [← hfound.1] at hallowed
    have hstatus : ((tenant.withStatus status now).save r v).status = status := by
      simp [Tenant.save, Tenant.withStatus, saveColumn, hne]
    have hdate : ((tenant.withStatus status now).save r v).deactivatedAt =
        if status = .deactivated then some now else none := by
      simp only [Tenant.save, Tenant.withStatus]
      rw [hfound.2, ← hread.2, saveColumn_self]
    have hstep := status_step (i := i) (t := (((Mine.idle.hold (.tenant id) (some v)).write
      (.tenant id) (some ((tenant.withStatus status now).save r v))).push
        (.statusChange id tenant.status status)).tx) now hs₂.inv hv₂ hallowed
          (by simp) hstatus hdate
      (fun id' hid => by simp [Mine.write_of_ne, hid]) (by simp [hfound.1])
    exact ⟨hstep.1, fun _ _ => hstep.2, hstep.2.exists hs₂.holds⟩

end Status

/-! ## Every run -/

/-- Every request follows the contract. -/
theorem handler_serves_status (env : Surroundings) :
    statusContract.Serves index (fun l s => statusAsRead l s = true) (handler env) := by
  intro r i
  cases r with
  | updateStatus id status now =>
    exact updateStatus_of_commitStatus (ψ := tenantExists i id)
      (fun _ h => by simpa [tenantExists, statusOf] using h) fun _ => commitStatus_run
  | update id dto auth =>
    exact Run.post (updateTenant_keeps (status_tameStep env)) fun _ _ _ => trivial
  | updateConfig id dto auth =>
    exact Run.post (updateConfig_keeps (status_tameStep env)) fun _ _ _ => trivial
  | setDefaultConnectorIfUnset t id auth =>
    exact Run.post (Keeps.bind (setDefaultConnectorIfUnset_keeps (status_tameStep env))
      fun _ => Keeps.pure) fun _ _ _ => trivial
  | delete id now =>
    exact Run.post (deleteTenant_keeps (status_tameStep env)) fun _ _ _ => trivial
  | restore id =>
    exact Run.post (restoreTenant_keeps (status_tameStep env)) fun _ _ _ => trivial
  | deleteConnector t id auth hasDependents =>
    exact Run.post (deleteConnector_keeps (status_tameStep env)
      deleteUnlessDefault_keeps_status) fun _ _ _ => trivial
  | createConnector t id auth registration =>
    exact Run.post (createConnector_keeps (status_tameStep env)
      discardConnector_keeps_status) fun _ _ _ => trivial

/-- A database in which the dates match. -/
structure StatusStart (keys : List Key) (p : Committed) : Prop where
  keys : ∀ k, p.row k ≠ none → k ∈ keys
  dates : DatesMatch p

theorem index_respected (row : (k : Key) → Option (Row k)) : index.Respected row :=
  fun _ _ _ _ _ _ _ => rfl

/-- **Status changes are legal** in every run in which each save of `updateStatus` finds the status
and date as read: a tenant has a date exactly if it is deactivated, and every step moves each status
along an allowed transition, with the one job that names both. -/
theorem status_changes_legal (env : Surroundings) {keys : List Key} {p₀ : Committed}
    (h₀ : StatusStart keys p₀) {c : Config Db Label}
    (hc : Reach (service true (handler env)) (fun l s => statusAsRead l s = true)
      (Store.initial keys p₀) c) :
    DatesMatch c.state.pub ∧
      ∀ (m : Move Request) (c' : Config Db Label), Meets (fun l s => statusAsRead l s = true) c m →
        (service true (handler env)).apply c m = some c' →
        LegalCommit c.state.pub c'.state.pub := by
  have hserves := handler_serves_status env
  refine ⟨?_, fun m c' hm ha => ?_⟩
  · exact (StoreContract.sound hserves h₀.keys (index_respected _) h₀.dates (fun _ => trivial) hc).2
  · exact StoreContract.sound_step hserves h₀.keys (index_respected _) h₀.dates (fun _ => trivial)
      hc hm ha

/-- Surroundings in which no text is an id. -/
def plainSurroundings : Surroundings := ⟨fun _ => none, fun _ => "", 1⟩

def activeTenant : Tenant where
  name := "tenant"
  description := none
  status := .active
  config := ⟨none, none, none, ""⟩
  deactivatedAt := none
  deletedAt := none

def oneTenant : List ((k : Key) × Row k) := [⟨.tenant 1, activeTenant⟩]

def oneTenantConfig : Config Db Label :=
  ⟨Store.initial (oneTenant.map Sigma.fst) (Pub.ofRows oneTenant), []⟩

theorem oneTenant_start : StatusStart (oneTenant.map Sigma.fst) (Pub.ofRows oneTenant) where
  keys _ hk := Pub.keys_ofRows hk
  dates t v hv := by
    have hmem : (⟨.tenant t, v⟩ : (k : Key) × Row k) ∈ oneTenant := Pub.mem_of_ofRows hv
    have hall : ∀ r ∈ oneTenant, ∀ (t : Uuid) (v : Tenant), r = ⟨.tenant t, v⟩ →
        (v.deactivatedAt.isSome = true ↔ v.status = .deactivated) := by
      simp only [oneTenant, List.forall_mem_cons]
      simp [activeTenant]
    exact hall _ hmem t v rfl

def deactivateThenActivate : List (Move Request) :=
  .spawn (.updateStatus 1 .deactivated 100) :: List.replicate 6 (.run 0) ++
    .spawn (.updateStatus 1 .active 200) :: List.replicate 6 (.run 1)

/-- Calls that do not overlap: the status goes back and forth, with a job for each change. -/
theorem status_changes_legal_sequential :
    ∃ c, (service true (handler plainSurroundings)).execIf statusAsRead oneTenantConfig
        deactivateThenActivate = some c ∧
      c.state.pub.trace = [.statusChange 1 .active .deactivated,
        .statusChange 1 .deactivated .active] ∧
      DatesMatch c.state.pub := by
  have hresult : ((service true (handler plainSurroundings)).execIf statusAsRead oneTenantConfig
      deactivateThenActivate).map (fun c => c.state.pub.trace) =
        some [.statusChange 1 .active .deactivated, .statusChange 1 .deactivated .active] := by
    decide +kernel
  obtain ⟨c, hexec, htrace⟩ := Option.map_eq_some_iff.mp hresult
  exact ⟨c, hexec, htrace, (status_changes_legal plainSurroundings oneTenant_start
    (reach_execIf hexec)).1⟩

/-- Two calls read the active tenant; one deactivates it, then the other is about to commit a
suspension. -/
def overlappingCalls : List (Move Request) :=
  [.spawn (.updateStatus 1 .deactivated 100), .spawn (.updateStatus 1 .suspended 101),
    .run 0, .run 1] ++
    List.replicate 5 (.run 0) ++ List.replicate 3 (.run 1)

/-- The commit of the second call takes a deactivated tenant to suspended and sends a job that
says it was active. -/
theorem suspension_overwrites :
    ∃ c c', Reach (service true (handler plainSurroundings)) Always
        (Store.initial (oneTenant.map Sigma.fst) (Pub.ofRows oneTenant)) c ∧
      (service true (handler plainSurroundings)).apply c (.run 1) = some c' ∧
      ¬LegalCommit c.state.pub c'.state.pub := by
  have hresult : ((service true (handler plainSurroundings)).exec oneTenantConfig
      overlappingCalls).bind (fun c => ((service true (handler plainSurroundings)).apply c
        (.run 1)).map fun c' => (statusOf c.state.pub 1, statusOf c'.state.pub 1,
          c.state.pub.trace, c'.state.pub.trace)) =
      some (some .deactivated, some .suspended, [.statusChange 1 .active .deactivated],
        [.statusChange 1 .active .deactivated, .statusChange 1 .active .suspended]) := by
    decide +kernel
  obtain ⟨c, hexec, hstep⟩ := Option.bind_eq_some_iff.mp hresult
  obtain ⟨c', happly, hvalues⟩ := Option.map_eq_some_iff.mp hstep
  simp only [Prod.mk.injEq] at hvalues
  obtain ⟨hbefore, hafter, htrace, htrace'⟩ := hvalues
  refine ⟨c, c', reach_exec hexec, happly, ?_⟩
  rintro ⟨events, hevents, hsteps⟩
  rw [htrace, htrace'] at hevents
  obtain rfl : [.statusChange 1 .active .suspended] = events := by simpa using hevents
  have hillegal := hsteps 1
  rw [hbefore, hafter] at hillegal
  cases hillegal with
  | moved h _ => simp [Event.isFor] at h

end DigitalTrust.Tenancy
