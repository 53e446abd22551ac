/-
# The cascade of a status change

`tenant-status-change.worker.ts`: each committed status change enqueues a job.  The worker revokes
the tenant's clients, deactivates its connectors and abandons its connections, or restores the
clients, each by one `UPDATE ... WHERE`.  Jobs are delivered at least once, to several workers, with
retries, and the handler goes by the status in the job, not by the tenant's.
-/
import DigitalTrust.TenantStatusChanges
import DigitalTrust.OAuthClients

namespace DigitalTrust.Tenancy

open Relational

/-! ## Jobs -/

/-- `TenantStatusChangeJobData`, of one tenant. -/
structure StatusJob where
  previousStatus : TenantStatus
  status : TenantStatus
  deriving DecidableEq

inductive Cascade where
  | revokeAllForTenant
  | deactivateAllForTenant
  | abandonAllForTenant
  | restoreAllForTenant
  deriving DecidableEq

/-- `handle`: the statements that a worker runs for a job, in any order. -/
def handle (job : StatusJob) : List Cascade :=
  if job.status = .deactivated then
    [.revokeAllForTenant, .deactivateAllForTenant, .abandonAllForTenant]
  else if job.previousStatus = .deactivated ∧ job.status = .active then [.restoreAllForTenant]
  else []

/-! ## The rows of a tenant -/

/-- Everything that the cascade touches. -/
structure TenantRows where
  clients : Table Uuid OAuthClient
  connectors : Table Uuid Connector
  connections : Table Uuid Connection

section Statements

variable (t : Uuid)

/-- `{ tenantId, revokedAt: IsNull() }`. -/
def revocable (c : OAuthClient) : Bool := c.tenantId = t && c.revokedAt.isNone

/-- `{ tenantId, revokedReason: TENANT_DEACTIVATION }`. -/
def restorable (c : OAuthClient) : Bool :=
  c.tenantId = t && c.revokedReason = some .tenantDeactivation

/-- `{ tenantId, active: true }`. -/
def deactivatable (c : Connector) : Bool := c.tenantId = t && c.active

/-- `{ tenantId, state: Not(In([COMPLETED, ABANDONED])) }`. -/
def abandonable (c : Connection) : Bool :=
  c.tenantId = t && !decide (c.state ∈ [ConnectionState.completed, ConnectionState.abandoned])

/-- The rows that a statement chooses when it begins. -/
def TenantRows.matching (rows : TenantRows) : Cascade → List Uuid
  | .revokeAllForTenant => rows.clients.keys (revocable t)
  | .deactivateAllForTenant => rows.connectors.keys (deactivatable t)
  | .abandonAllForTenant => rows.connections.keys (abandonable t)
  | .restoreAllForTenant => rows.clients.keys (restorable t)

/-- What a statement writes when it ends. -/
def TenantRows.apply (rows : TenantRows) (now : ℕ) (chosen : List Uuid) : Cascade → TenantRows
  | .revokeAllForTenant =>
    let revoke c := { c with revokedAt := some now, revokedReason := some .tenantDeactivation }
    { rows with clients := rows.clients.updateChosen chosen (revocable t) revoke }
  | .deactivateAllForTenant =>
    let deactivate c := { c with active := false }
    { rows with connectors := rows.connectors.updateChosen chosen (deactivatable t) deactivate }
  | .abandonAllForTenant =>
    let abandon c := { c with state := .abandoned }
    { rows with connections := rows.connections.updateChosen chosen (abandonable t) abandon }
  | .restoreAllForTenant =>
    let restore c := { c with revokedAt := none, revokedReason := none }
    { rows with clients := rows.clients.updateChosen chosen (restorable t) restore }

variable {t} {rows : TenantRows} {now : ℕ} {chosen : List Uuid} {id : Uuid}

/-- A statement leaves none of the rows it has chosen. -/
theorem mem_matching_apply (c : Cascade) (h : id ∈ (rows.apply t now chosen c).matching t c) :
    id ∈ rows.matching t c ∧ id ∉ chosen := by
  cases c with
  | revokeAllForTenant => exact Table.mem_keys_updateChosen (fun a => by simp [revocable]) h
  | deactivateAllForTenant => exact Table.mem_keys_updateChosen (fun a => by simp [deactivatable]) h
  | abandonAllForTenant => exact Table.mem_keys_updateChosen (fun a => by simp [abandonable]) h
  | restoreAllForTenant => exact Table.mem_keys_updateChosen (fun a => by simp [restorable]) h

/-- The statements of one job make no work for each other: two different ones are on different
tables. -/
theorem mem_matching_of_apply {job : StatusJob} {c c' : Cascade} (hc : c ∈ handle job)
    (hc' : c' ∈ handle job) (h : id ∈ (rows.apply t now chosen c).matching t c') :
    id ∈ rows.matching t c' := by
  by_cases heq : c = c'
  · subst heq
    exact (mem_matching_apply c h).1
  · have hframe : (rows.apply t now chosen c).matching t c' = rows.matching t c' := by
      unfold handle at hc hc'
      split_ifs at hc hc' with h₁ h₂
      · cases c <;> cases c' <;>
          first | rfl | exact absurd rfl heq | exact absurd hc (by decide) |
            exact absurd hc' (by decide)
      · simp only [List.mem_singleton] at hc hc'
        exact absurd (hc.trans hc'.symm) heq
      · simp at hc
    rwa [hframe] at h

end Statements

/-! ## The queue and its workers -/

/-- A statement that has begun: its job, what it does, the time it writes and the rows that it
has chosen. -/
structure Running where
  job : ℕ
  cascade : Cascade
  now : ℕ
  chosen : List Uuid

/-- The status of the tenant, its rows, the jobs in the order of their commits, the statements
that have begun and those that have ended. -/
structure CascadeState where
  status : TenantStatus
  rows : TenantRows
  jobs : List StatusJob
  running : List Running
  ended : List (ℕ × Cascade)

/-- A status change is committed, a statement begins for a job, or one that has begun ends or fails.
A job may be taken again, by several workers at once. -/
inductive CascadeStep where
  | commit (job : StatusJob)
  | begin (job : ℕ) (cascade : Cascade) (now : ℕ)
  | finish (n : ℕ)
  | fail (n : ℕ)

variable {s s' s₀ : CascadeState} {x : CascadeStep}

section Runs

variable (t : Uuid)

/-- One step; `none` when it is not possible.  A change is checked against the status that it
has read, which need not be the one it replaces. -/
def CascadeState.step (s : CascadeState) : CascadeStep → Option CascadeState
  | .commit job =>
    if job.status ∈ allowedStatusTransitions job.previousStatus then
      some { s with status := job.status, jobs := s.jobs ++ [job] }
    else none
  | .begin j c now => (s.jobs[j]?).bind fun job =>
    if c ∈ handle job then
      some { s with running := s.running ++ [⟨j, c, now, s.rows.matching t c⟩] }
    else none
  | .finish n => (s.running[n]?).map fun r =>
    { s with
      rows := s.rows.apply t r.now r.chosen r.cascade
      running := s.running.eraseIdx n
      ended := s.ended ++ [(r.job, r.cascade)] }
  | .fail n => (s.running[n]?).map fun _ => { s with running := s.running.eraseIdx n }

def CascadeState.run (s : CascadeState) : List CascadeStep → Option CascadeState
  | [] => some s
  | x :: xs => (s.step t x).bind fun s' => s'.run xs

/-- Every job has been handled: each of its statements has ended, and none is running. -/
def CascadeState.AllHandled (s : CascadeState) : Prop :=
  s.running = [] ∧ ∀ j job, s.jobs[j]? = some job → ∀ c ∈ handle job, (j, c) ∈ s.ended

/-- The cascade agrees with the status of the tenant. -/
structure CascadeState.Agrees (s : CascadeState) : Prop where
  clientsRevoked : s.status = .deactivated → ∀ id c, s.rows.clients.row id = some c →
    c.tenantId = t → c.revokedAt ≠ none
  connectorsInactive : s.status = .deactivated → ∀ id c, s.rows.connectors.row id = some c →
    c.tenantId = t → c.active = false
  connectionsOver : s.status = .deactivated → ∀ id c, s.rows.connections.row id = some c →
    c.tenantId = t → c.state = .completed ∨ c.state = .abandoned
  clientsRestored : s.status = .active → ∀ id c, s.rows.clients.row id = some c →
    c.tenantId = t → c.revokedReason ≠ some .tenantDeactivation

/-- Before the first status change: the cascade agrees with the status, and a client carries
the tag of a deactivation only while the tenant is deactivated. -/
structure CascadeState.Fresh (s : CascadeState) : Prop where
  agrees : s.Agrees t
  untagged : s.status ≠ .deactivated → ∀ id c, s.rows.clients.row id = some c →
    c.tenantId = t → c.revokedReason ≠ some .tenantDeactivation
  jobs : s.jobs = []
  running : s.running = []

variable {t}

/-- What a step does. -/
theorem step_cases (h : s.step t x = some s') :
    (∃ job, x = .commit job ∧ job.status ∈ allowedStatusTransitions job.previousStatus ∧
      s' = { s with status := job.status, jobs := s.jobs ++ [job] }) ∨
    (∃ j c now job, x = .begin j c now ∧ s.jobs[j]? = some job ∧ c ∈ handle job ∧
      s' = { s with running := s.running ++ [⟨j, c, now, s.rows.matching t c⟩] }) ∨
    (∃ n r, x = .finish n ∧ s.running[n]? = some r ∧
      s' = { s with
        rows := s.rows.apply t r.now r.chosen r.cascade
        running := s.running.eraseIdx n
        ended := s.ended ++ [(r.job, r.cascade)] }) ∨
    (∃ n r, x = .fail n ∧ s.running[n]? = some r ∧
      s' = { s with running := s.running.eraseIdx n }) := by
  cases x with
  | commit job =>
    simp only [CascadeState.step] at h
    split_ifs at h with hallowed
    exact .inl ⟨job, rfl, hallowed, (Option.some.inj h).symm⟩
  | begin j c now =>
    obtain ⟨job, hjob, h⟩ := Option.bind_eq_some_iff.mp h
    split_ifs at h with hc
    exact .inr (.inl ⟨j, c, now, job, rfl, hjob, hc, (Option.some.inj h).symm⟩)
  | finish n =>
    obtain ⟨r, hr, rfl⟩ := Option.map_eq_some_iff.mp h
    exact .inr (.inr (.inl ⟨n, r, rfl, hr, rfl⟩))
  | fail n =>
    obtain ⟨r, hr, rfl⟩ := Option.map_eq_some_iff.mp h
    exact .inr (.inr (.inr ⟨n, r, rfl, hr, rfl⟩))

/-- What each step keeps, a run keeps. -/
theorem run_induction {P : CascadeState → Prop} {xs : List CascadeStep}
    (hstep : ∀ x ∈ xs, ∀ s s', P s → s.step t x = some s' → P s') :
    ∀ {s s' : CascadeState}, P s → s.run t xs = some s' → P s' := by
  induction xs with
  | nil =>
    intro s s' hs hrun
    exact Option.some.inj hrun ▸ hs
  | cons x xs ih =>
    intro s s' hs hrun
    obtain ⟨s₁, hx, hrun⟩ := Option.bind_eq_some_iff.mp hrun
    exact ih (fun y hy => hstep y (List.mem_cons_of_mem _ hy))
      (hstep x List.mem_cons_self s s₁ hs hx) hrun

theorem run_append (xs ys : List CascadeStep) (s : CascadeState) :
    s.run t (xs ++ ys) = (s.run t xs).bind fun s' => s'.run t ys := by
  induction xs generalizing s with
  | nil => rfl
  | cons x xs ih =>
    rw [List.cons_append, CascadeState.run, CascadeState.run, Option.bind_assoc]
    exact Option.bind_congr fun s' _ => ih s'

/-- Jobs are only added. -/
theorem jobs_prefix_step (h : s.step t x = some s') : s.jobs <+: s'.jobs := by
  obtain ⟨job, -, -, rfl⟩ | ⟨j, c, now, job, -, -, -, rfl⟩ | ⟨n, r, -, -, rfl⟩ |
      ⟨n, r, -, -, rfl⟩ :=
    step_cases h
  · exact List.prefix_append _ _
  all_goals exact List.prefix_rfl

theorem jobs_prefix_run {xs : List CascadeStep} (h : s.run t xs = some s') : s.jobs <+: s'.jobs :=
  run_induction (P := fun s' => s.jobs <+: s'.jobs)
    (fun _ _ _ _ hp hx => hp.trans (jobs_prefix_step hx)) List.prefix_rfl h

end Runs

/-! ## What the last job leads to -/

/-- Whether a tenant is deactivated after some jobs, given whether it was before. -/
def deactivatedAfter (before : Bool) (jobs : List StatusJob) : Bool :=
  jobs.foldl (fun b job => if job.status = .deactivated then true
    else if job.previousStatus = .deactivated ∧ job.status = .active then false else b) before

/-- Jobs without a cascade neither deactivate nor reactivate. -/
theorem deactivatedAfter_of_no_cascade {jobs : List StatusJob} (h : ∀ job ∈ jobs, handle job = [])
    (b : Bool) : deactivatedAfter b jobs = b := by
  induction jobs with
  | nil => rfl
  | cons job jobs ih =>
    have hjob := h job List.mem_cons_self
    unfold handle at hjob
    split_ifs at hjob with h₁ h₂
    rw [deactivatedAfter, List.foldl_cons, if_neg h₁, if_neg h₂]
    exact ih fun x hx => h x (List.mem_cons_of_mem _ hx)

/-- The last job with a cascade decides. -/
theorem deactivatedAfter_eq {pre post : List StatusJob} {job : StatusJob} (hjob : handle job ≠ [])
    (hpost : ∀ x ∈ post, handle x = []) (b : Bool) :
    deactivatedAfter b (pre ++ job :: post) = decide (job.status = .deactivated) := by
  have hsplit : deactivatedAfter b (pre ++ job :: post) =
      deactivatedAfter (deactivatedAfter (deactivatedAfter b pre) [job]) post := by
    simp [deactivatedAfter, List.foldl_append]
  rw [hsplit, deactivatedAfter_of_no_cascade hpost]
  unfold handle at hjob
  simp only [deactivatedAfter, List.foldl_cons, List.foldl_nil]
  split_ifs at hjob ⊢ with h₁ h₂
  · exact (decide_eq_true h₁).symm
  · exact (decide_eq_false h₁).symm
  · exact absurd rfl hjob

/-- An allowed change has a job that says whether the tenant is deactivated after it. -/
theorem deactivatedAfter_allowed {job : StatusJob}
    (h : job.status ∈ allowedStatusTransitions job.previousStatus) :
    deactivatedAfter (decide (job.previousStatus = .deactivated)) [job] =
      decide (job.status = .deactivated) := by
  obtain ⟨previous, status⟩ := job
  revert h
  cases previous <;> cases status <;> decide

section Convergence

variable {t : Uuid}

/-- A step that commits a change replaces the status that its job names. -/
def namesStatus (s : CascadeState) : CascadeStep → Bool
  | .commit job => job.previousStatus = s.status
  | _ => true

/-- Every change replaces the status that its job names. -/
def commitsNamed (t : Uuid) (s : CascadeState) : List CascadeStep → Bool
  | [] => true
  | x :: xs => namesStatus s x && ((s.step t x).all fun s' => commitsNamed t s' xs)

/-- The status is what the jobs say. -/
theorem deactivated_step {b : Bool}
    (hs : decide (s.status = .deactivated) = deactivatedAfter b s.jobs)
    (hx : namesStatus s x = true) (h : s.step t x = some s') :
    decide (s'.status = .deactivated) = deactivatedAfter b s'.jobs := by
  obtain ⟨job, rfl, hallowed, rfl⟩ | ⟨j, c, now, job, -, -, -, rfl⟩ | ⟨n, r, -, -, rfl⟩ |
    ⟨n, r, -, -, rfl⟩ := step_cases h
  · have hnamed : job.previousStatus = s.status := of_decide_eq_true hx
    have hsplit : deactivatedAfter b (s.jobs ++ [job]) =
        deactivatedAfter (deactivatedAfter b s.jobs) [job] := List.foldl_append
    rw [hsplit, ← hs, ← hnamed, deactivatedAfter_allowed hallowed]
  all_goals exact hs

/-- The status follows the jobs over a run. -/
theorem deactivated_run {b : Bool} (xs : List CascadeStep) :
    ∀ {s s' : CascadeState}, decide (s.status = .deactivated) = deactivatedAfter b s.jobs →
      commitsNamed t s xs = true → s.run t xs = some s' →
      decide (s'.status = .deactivated) = deactivatedAfter b s'.jobs := by
  induction xs with
  | nil =>
    intro s s' hs _ hrun
    exact Option.some.inj hrun ▸ hs
  | cons x xs ih =>
    intro s s' hs hnamed hrun
    obtain ⟨s₁, hx, hrun⟩ := Option.bind_eq_some_iff.mp hrun
    rw [commitsNamed, hx, Option.all_some, Bool.and_eq_true] at hnamed
    exact ih (deactivated_step hs hnamed.1 hx) hnamed.2 hrun

/-! ## The last handling -/

/-- Only statements of job `j` begin. -/
def onlyJob (j : ℕ) : CascadeStep → Bool
  | .begin j' _ _ => j' = j
  | _ => true

/-- While only statements of one job run: what is running has chosen every row that still needs
it, and what has ended since the first `n` has left none. -/
structure Settling (t : Uuid) (j : ℕ) (job : StatusJob) (n : ℕ) (s : CascadeState) : Prop where
  enqueued : s.jobs[j]? = some job
  cascades : ∀ r ∈ s.running, r.cascade ∈ handle job
  covers : ∀ r ∈ s.running, ∀ id ∈ s.rows.matching t r.cascade, id ∈ r.chosen
  length : n ≤ s.ended.length
  ended : ∀ x ∈ s.ended.drop n, x.2 ∈ handle job ∧ s.rows.matching t x.2 = []

/-- A statement that ends has left no row, and has made no work for the others. -/
theorem Settling.finish {j n k : ℕ} {job : StatusJob} {r : Running} (h : Settling t j job n s)
    (hr : s.running[k]? = some r) :
    Settling t j job n { s with
      rows := s.rows.apply t r.now r.chosen r.cascade
      running := s.running.eraseIdx k
      ended := s.ended ++ [(r.job, r.cascade)] } := by
  have hmem : r ∈ s.running := List.mem_of_getElem? hr
  have hrc := h.cascades r hmem
  refine ⟨h.enqueued, fun r' hr' => h.cascades r' (List.mem_of_mem_eraseIdx hr'),
    fun r' hr' id hid => ?_, ?_, fun x hx => ?_⟩
  · have hr'' := List.mem_of_mem_eraseIdx hr'
    exact h.covers r' hr'' id (mem_matching_of_apply hrc (h.cascades r' hr'') hid)
  · simpa using Nat.le_succ_of_le h.length
  · rw [List.drop_append_of_le_length h.length] at hx
    rcases List.mem_append.mp hx with hx | hx
    · obtain ⟨hc, hnone⟩ := h.ended x hx
      refine ⟨hc, List.eq_nil_iff_forall_not_mem.mpr fun id hid => ?_⟩
      have hbefore := mem_matching_of_apply hrc hc hid
      rw [hnone] at hbefore
      exact List.not_mem_nil hbefore
    · obtain rfl := List.mem_singleton.mp hx
      refine ⟨hrc, List.eq_nil_iff_forall_not_mem.mpr fun id hid => ?_⟩
      -- what still needed the statement had been chosen by it
      obtain ⟨hbefore, hnot⟩ := mem_matching_apply r.cascade hid
      exact hnot (h.covers r hmem id hbefore)

/-- A step of that job keeps it settling. -/
theorem settling_step {j n : ℕ} {job : StatusJob} (h : Settling t j job n s)
    (hx : onlyJob j x = true) (hstep : s.step t x = some s') : Settling t j job n s' := by
  obtain ⟨job', rfl, -, rfl⟩ | ⟨j', c, now, job', rfl, hjob', hc, rfl⟩ | ⟨k, r, rfl, hr, rfl⟩ |
    ⟨k, r, rfl, -, rfl⟩ := step_cases hstep
  · refine ⟨?_, h.cascades, h.covers, h.length, h.ended⟩
    rw [← h.enqueued]
    exact List.getElem?_append_left (List.getElem?_eq_some_iff.mp h.enqueued).1
  · obtain rfl : j' = j := of_decide_eq_true hx
    obtain rfl : job' = job := Option.mem_unique hjob' h.enqueued
    refine ⟨h.enqueued, fun r hr => ?_, fun r hr id hid => ?_, h.length, h.ended⟩
    · rcases List.mem_append.mp hr with hr | hr
      · exact h.cascades r hr
      · exact List.mem_singleton.mp hr ▸ hc
    · rcases List.mem_append.mp hr with hr | hr
      · exact h.covers r hr id hid
      · obtain rfl := List.mem_singleton.mp hr
        exact hid
  · exact h.finish hr
  · exact ⟨h.enqueued, fun r' hr' => h.cascades r' (List.mem_of_mem_eraseIdx hr'),
      fun r' hr' => h.covers r' (List.mem_of_mem_eraseIdx hr'), h.length, h.ended⟩

/-- A cascade that has left nothing to do agrees with the status it is about. -/
theorem agrees_of_matching {job : StatusJob} (hjob : handle job ≠ [])
    (hstatus : s.status = .deactivated ↔ job.status = .deactivated)
    (hdone : ∀ c ∈ handle job, s.rows.matching t c = []) : s.Agrees t := by
  unfold handle at hjob hdone
  split_ifs at hjob hdone with h₁ h₂
  · have hs : s.status = .deactivated := hstatus.mpr h₁
    refine ⟨fun _ id c hc ht => ?_, fun _ id c hc ht => ?_, fun _ id c hc ht => ?_, fun ha => ?_⟩
    · have := Table.keys_eq_nil (hdone .revokeAllForTenant (by simp)) hc
      simpa [revocable, ht, Option.isSome_iff_ne_none] using this
    · have := Table.keys_eq_nil (hdone .deactivateAllForTenant (by simp)) hc
      simpa [deactivatable, ht] using this
    · have := Table.keys_eq_nil (hdone .abandonAllForTenant (by simp)) hc
      simpa [abandonable, ht, or_iff_not_imp_left] using this
    · rw [hs] at ha
      exact absurd ha (by decide)
  · have hs : s.status ≠ .deactivated := fun hd => h₁ (hstatus.mp hd)
    refine ⟨fun hd => absurd hd hs, fun hd => absurd hd hs, fun hd => absurd hd hs,
      fun _ id c hc ht => ?_⟩
    have := Table.keys_eq_nil (hdone .restoreAllForTenant (by simp)) hc
    simpa [restorable, ht] using this
  · exact absurd rfl hjob

/-! ## Every run -/

/-- The last job with a cascade is handled after everything else: from a moment on at which
nothing is running only its statements begin, and each of them ends. -/
def LastHandledLast (t : Uuid) (s₀ : CascadeState) (steps : List CascadeStep) : Prop :=
  ∃ before later s₁ s pre job post, steps = before ++ later ∧
    s₀.run t before = some s₁ ∧ s₁.running = [] ∧ s₁.run t later = some s ∧
    s.jobs = pre ++ job :: post ∧ handle job ≠ [] ∧ (∀ x ∈ post, handle x = []) ∧
    pre.length < s₁.jobs.length ∧ (∀ x ∈ later, onlyJob pre.length x = true) ∧
    ∀ c ∈ handle job, c ∈ (s.ended.drop s₁.ended.length).map Prod.snd

def NoCascade (t : Uuid) (s₀ : CascadeState) (steps : List CascadeStep) : Prop :=
  ∃ s, s₀.run t steps = some s ∧ ∀ job ∈ s.jobs, handle job = []

/-- No job with a cascade, so no statement: the rows stay as they were. -/
theorem rows_of_no_cascade (xs : List CascadeStep) (hrunning : s.running = [])
    (hrun : s.run t xs = some s') (hjobs : ∀ job ∈ s'.jobs, handle job = []) :
    s'.rows = s.rows := by
  induction xs generalizing s with
  | nil => exact congrArg CascadeState.rows (Option.some.inj hrun).symm
  | cons x xs ih =>
    obtain ⟨s₁, hx, hrun⟩ := Option.bind_eq_some_iff.mp hrun
    have hgrown := (jobs_prefix_step hx).trans (jobs_prefix_run hrun)
    obtain ⟨job, -, -, rfl⟩ | ⟨j, c, now, job, -, hjob, hc, -⟩ | ⟨n, r, -, hr, -⟩ |
      ⟨n, r, -, hr, -⟩ := step_cases hx
    · exact ih (s := { s with status := job.status, jobs := s.jobs ++ [job] }) hrunning hrun
    · rw [hjobs job (hgrown.mem (List.mem_of_getElem? hjob))] at hc
      exact absurd hc List.not_mem_nil
    all_goals simp [hrunning] at hr

/-- Once the last handling is over, its statements have left nothing to do. -/
theorem agrees_of_handledLast {steps : List CascadeStep} (h₀ : s₀.Fresh t)
    (hrun : s₀.run t steps = some s) (hnamed : commitsNamed t s₀ steps = true)
    (hlast : LastHandledLast t s₀ steps) : s.Agrees t := by
  obtain ⟨before, later, s₁, s', pre, job, post, rfl, hbefore, hidle, hlater, hjobs, hjob, hpost,
    hlt, honly, hended⟩ := hlast
  obtain rfl : s' = s := by
    rw [run_append, hbefore, Option.bind_some, hlater] at hrun
    exact Option.some.inj hrun
  have hat : s₁.jobs[pre.length]? = some job := by
    have hp := (jobs_prefix_run hlater).getElem hlt
    rw [List.getElem?_eq_getElem hlt, hp]
    simp [hjobs]
  have hstart : Settling t pre.length job s₁.ended.length s₁ :=
    ⟨hat, by simp [hidle], by simp [hidle], le_rfl, by simp⟩
  have hsettled := run_induction
    (fun x hx _ _ hs hstep => settling_step hs (honly x hx) hstep) hstart hlater
  have hstatus := deactivated_run (b := decide (s₀.status = .deactivated)) _
    (by rw [h₀.jobs]; rfl) hnamed hrun
  rw [hjobs, deactivatedAfter_eq hjob hpost] at hstatus
  refine agrees_of_matching hjob (by simpa using hstatus) fun c hc => ?_
  obtain ⟨x, hx, rfl⟩ := List.mem_map.mp (hended c hc)
  exact (hsettled.ended x hx).2

/-- Without a cascade the rows agree as they did. -/
theorem agrees_of_noCascade {steps : List CascadeStep} (h₀ : s₀.Fresh t)
    (hrun : s₀.run t steps = some s) (hnamed : commitsNamed t s₀ steps = true)
    (hnone : NoCascade t s₀ steps) : s.Agrees t := by
  obtain ⟨s', hrun', hjobs⟩ := hnone
  obtain rfl := Option.mem_unique hrun' hrun
  have hrows := rows_of_no_cascade steps h₀.running hrun hjobs
  have hstatus := deactivated_run (b := decide (s₀.status = .deactivated)) _
    (by rw [h₀.jobs]; rfl) hnamed hrun
  rw [deactivatedAfter_of_no_cascade hjobs, decide_eq_decide] at hstatus
  refine ⟨fun hd => ?_, fun hd => ?_, fun hd => ?_, fun ha => ?_⟩
  · exact hrows ▸ h₀.agrees.clientsRevoked (hstatus.mp hd)
  · exact hrows ▸ h₀.agrees.connectorsInactive (hstatus.mp hd)
  · exact hrows ▸ h₀.agrees.connectionsOver (hstatus.mp hd)
  · have hs₀ : s₀.status ≠ .deactivated := fun hd => by
      rw [hstatus.mpr hd] at ha
      exact absurd ha (by decide)
    exact hrows ▸ h₀.untagged hs₀

/-- **The cascade agrees with the final status**, for every sequence of status changes that name the
status they replace, if the last job with a cascade comes last. -/
theorem cascade_agrees {s₀ s : CascadeState} {steps : List CascadeStep} (h₀ : s₀.Fresh t)
    (hrun : s₀.run t steps = some s) (hnamed : commitsNamed t s₀ steps = true)
    (hlast : LastHandledLast t s₀ steps ∨ NoCascade t s₀ steps) : s.Agrees t :=
  hlast.elim (agrees_of_handledLast h₀ hrun hnamed) (agrees_of_noCascade h₀ hrun hnamed)

end Convergence

/-! ## The jobs that `updateStatus` sends -/

section Sent

open Interleaving ReadCommitted

/-- The data of the job that an event stands for. -/
def Event.job : Event → StatusJob
  | .statusChange _ previousStatus status => ⟨previousStatus, status⟩

/-- The commits of a tenant's status changes, as the trace has them. -/
def commitsOf (t : Uuid) (trace : List Event) : List CascadeStep :=
  (trace.filter (Event.isFor t)).map fun e => .commit e.job

variable {t : Uuid}

/-- Two runs with named commits compose. -/
theorem commitsNamed_append (xs ys : List CascadeStep) (hrun : s.run t xs = some s')
    (hxs : commitsNamed t s xs = true) (hys : commitsNamed t s' ys = true) :
    commitsNamed t s (xs ++ ys) = true := by
  induction xs generalizing s with
  | nil => exact Option.some.inj hrun ▸ hys
  | cons x xs ih =>
    obtain ⟨s₁, hx, hrun⟩ := Option.bind_eq_some_iff.mp hrun
    rw [commitsNamed, hx, Option.all_some, Bool.and_eq_true] at hxs
    rw [List.cons_append, commitsNamed, hx, Option.all_some, Bool.and_eq_true]
    exact ⟨hxs.1, ih hrun hxs.2⟩

/-- A commit of the database is one of the cascade, or none. -/
theorem commitsOf_legalCommit {p p' : Committed} (h : LegalCommit p p')
    (hs : statusOf p t = some s.status) :
    ∃ xs s', commitsOf t p'.trace = commitsOf t p.trace ++ xs ∧ s.run t xs = some s' ∧
      commitsNamed t s xs = true ∧ statusOf p' t = some s'.status := by
  obtain ⟨events, htrace, hsteps⟩ := h
  have hstep := hsteps t
  rw [htrace]
  simp only [commitsOf, List.filter_append, List.map_append, List.append_cancel_left_eq]
  rw [hs] at hstep
  generalize statusOf p' t = after at hstep
  cases hstep with
  | kept hnone => exact ⟨_, s, rfl, by rw [hnone]; rfl, by rw [hnone]; rfl, rfl⟩
  | moved hone hallowed =>
    rename_i status
    rw [hone]
    refine ⟨_, { s with status := status, jobs := s.jobs ++ [⟨s.status, status⟩] }, rfl,
      ?_, ?_, rfl⟩
    · exact Option.bind_eq_some_iff.mpr ⟨_, if_pos hallowed, rfl⟩
    · simp [commitsNamed, namesStatus, Event.job, CascadeState.step, hallowed]

/-- **What `updateStatus` commits is what the cascade starts from**: as long as each save finds the
status as read, the jobs of a tenant are changes that each name the status they replace, and lead to
the committed one. -/
theorem commitsOf_reach (env : Surroundings) {keys : List Key} {p₀ : Committed}
    (h₀ : StatusStart keys p₀) (htrace : p₀.trace = []) {c : Config Db Label}
    (hc : Reach (service true (handler env)) (fun l s => statusAsRead l s = true)
      (Store.initial keys p₀) c) (hs₀ : statusOf p₀ t = some s₀.status) :
    ∃ s, s₀.run t (commitsOf t c.state.pub.trace) = some s ∧
      commitsNamed t s₀ (commitsOf t c.state.pub.trace) = true ∧
      statusOf c.state.pub t = some s.status := by
  induction hc with
  | init =>
    refine ⟨s₀, ?_, ?_, hs₀⟩ <;>
    · simp only [Store.initial, htrace]
      rfl
  | step m hc hm ha ih =>
    obtain ⟨s, hrun, hnamed, hs⟩ := ih
    have hlegal := StoreContract.sound_step (handler_serves_status env) h₀.keys
      (index_respected _) h₀.dates (fun _ => trivial) hc hm ha
    obtain ⟨xs, s', hxs, hrun', hnamed', hs'⟩ := commitsOf_legalCommit hlegal hs
    refine ⟨s', ?_, ?_, hs'⟩
    · rw [hxs, run_append, hrun, Option.bind_some, hrun']
    · rw [hxs]
      exact commitsNamed_append _ _ hrun hnamed hnamed'

end Sent

/-! ## A deactivation that is handled late -/

def openClient : OAuthClient where
  tenantId := 1
  clientId := "client"
  clientSecretHash := none
  isPublic := true
  name := "client"
  scopes := []
  roles := []
  redirectUris := []
  grantTypes := []
  refreshTokenTtlSeconds := none
  createdBy := none
  revokedAt := none
  revokedReason := none

def openConnection : Connection where
  tenantId := 1
  externalConnectionId := some "connection"
  theirLabel := none
  theirDid := none
  state := .active
  connectorId := none
  protocol := .didcommV1
  metadata := ⟨none, none, none⟩

/-- An active tenant with a client, a connector and a connection. -/
def activeTenantRows : CascadeState where
  status := .active
  rows :=
    { clients := ⟨[(10, openClient)], by decide⟩
      connectors := ⟨[(20, ⟨1, true, 1⟩)], by decide⟩
      connections := ⟨[(30, openConnection)], by decide⟩ }
  jobs := []
  running := []
  ended := []

theorem activeTenantRows_untagged (id : Uuid) (c : OAuthClient)
    (h : activeTenantRows.rows.clients.row id = some c) :
    c.revokedReason ≠ some .tenantDeactivation := by
  obtain ⟨-, rfl⟩ : id = 10 ∧ c = openClient := by
    simpa [activeTenantRows] using Table.row_eq_some.mp h
  decide

theorem activeTenantRows_fresh : activeTenantRows.Fresh 1 where
  agrees := ⟨fun h => absurd h (by decide), fun h => absurd h (by decide),
    fun h => absurd h (by decide), fun _ id c hc _ => activeTenantRows_untagged id c hc⟩
  untagged _ id c hc _ := activeTenantRows_untagged id c hc
  jobs := rfl
  running := rfl

/-- The first handling of a deactivation, whose statements overlap. -/
def handleDeactivation : List CascadeStep :=
  [.begin 0 .revokeAllForTenant 5, .begin 0 .deactivateAllForTenant 5,
    .begin 0 .abandonAllForTenant 5, .finish 2, .finish 0, .finish 0]

def deactivation : StatusJob := ⟨.active, .deactivated⟩

def reactivation : StatusJob := ⟨.deactivated, .active⟩

/-- A deactivation whose job is handled twice, and a reactivation. -/
def deactivatedTwice : List CascadeStep :=
  .commit deactivation :: handleDeactivation ++ handleDeactivation ++ [.commit reactivation]

def handleReactivation : List CascadeStep := [.begin 1 .restoreAllForTenant 9, .finish 0]

/-- Jobs that are handled one after the other, the first of them twice. -/
theorem cascade_agrees_in_order :
    ∃ s, activeTenantRows.run 1 (deactivatedTwice ++ handleReactivation) = some s ∧
      s.status = .active ∧ s.Agrees 1 := by
  have hresult : ((activeTenantRows.run 1 deactivatedTwice).bind fun s₁ =>
      (s₁.run 1 handleReactivation).map fun s => decide (s₁.running = [] ∧ s₁.jobs.length = 2 ∧
        s.status = .active ∧ s.jobs = [deactivation, reactivation] ∧
        (s.ended.drop s₁.ended.length).map Prod.snd = [.restoreAllForTenant])) = some true := by
    decide +kernel
  obtain ⟨s₁, hbefore, hresult⟩ := Option.bind_eq_some_iff.mp hresult
  obtain ⟨s, hlater, hvalues⟩ := Option.map_eq_some_iff.mp hresult
  obtain ⟨hidle, hlength, hstatus, hjobs, hended⟩ := of_decide_eq_true hvalues
  have hrun : activeTenantRows.run 1 (deactivatedTwice ++ handleReactivation) = some s := by
    rw [run_append, hbefore, Option.bind_some, hlater]
  refine ⟨s, hrun, hstatus,
    cascade_agrees activeTenantRows_fresh hrun (by decide +kernel) (.inl ?_)⟩
  refine ⟨deactivatedTwice, handleReactivation, s₁, s, [deactivation], reactivation, [], rfl,
    hbefore,
    hidle, hlater, hjobs, by decide, by simp, by simp [hlength], by decide, ?_⟩
  rw [hended]
  decide

/-- The deactivation is handled after the reactivation, as a retry would be. -/
def lateDeactivation : List CascadeStep :=
  .commit deactivation :: .commit reactivation :: handleReactivation ++ handleDeactivation

/-- The tenant is active, every job has been handled, and its client is still revoked. -/
theorem late_deactivation :
    ∃ s, activeTenantRows.Fresh 1 ∧ commitsNamed 1 activeTenantRows lateDeactivation = true ∧
      activeTenantRows.run 1 lateDeactivation = some s ∧ s.AllHandled ∧ ¬s.Agrees 1 := by
  have hresult : ((activeTenantRows.run 1 lateDeactivation).map fun s => decide (s.running = [] ∧
      s.jobs = [deactivation, reactivation] ∧
      s.ended = [(1, .restoreAllForTenant), (0, .abandonAllForTenant), (0, .revokeAllForTenant),
        (0, .deactivateAllForTenant)] ∧
      s.status = .active ∧ s.rows.clients.row 10 = some { openClient with
        revokedAt := some 5, revokedReason := some .tenantDeactivation })) = some true := by
    decide +kernel
  obtain ⟨s, hrun, hvalues⟩ := Option.map_eq_some_iff.mp hresult
  obtain ⟨hidle, hjobs, hended, hstatus, hclient⟩ := of_decide_eq_true hvalues
  refine ⟨s, activeTenantRows_fresh, by decide +kernel, hrun, ⟨hidle, fun j job hj c hc => ?_⟩,
    fun h => h.clientsRestored hstatus 10 _ hclient rfl rfl⟩
  rw [hjobs] at hj
  rw [hended]
  match j with
  | 0 =>
    obtain rfl : deactivation = job := Option.some.inj hj
    revert c
    decide
  | 1 =>
    obtain rfl : reactivation = job := Option.some.inj hj
    revert c
    decide
  | j + 2 => simp at hj

open Interleaving ReadCommitted in
/-- A deactivation and a reactivation that do not overlap, as changes of the cascade. -/
theorem commitsOf_reach_sequential :
    ∃ c, (service true (handler plainSurroundings)).execIf statusAsRead oneTenantConfig
        deactivateThenActivate = some c ∧
      ∃ s, activeTenantRows.run 1 (commitsOf 1 c.state.pub.trace) = some s ∧
        commitsNamed 1 activeTenantRows (commitsOf 1 c.state.pub.trace) = true ∧
        statusOf c.state.pub 1 = some s.status := by
  have hends : ((service true (handler plainSurroundings)).execIf statusAsRead oneTenantConfig
      deactivateThenActivate).isSome = true := by decide +kernel
  obtain ⟨c, hexec⟩ := Option.isSome_iff_exists.mp hends
  exact ⟨c, hexec, commitsOf_reach plainSurroundings oneTenant_start rfl
    (reach_execIf hexec) rfl⟩

end DigitalTrust.Tenancy
