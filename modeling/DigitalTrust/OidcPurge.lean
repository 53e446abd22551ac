/-
# Purging expired OIDC records

`oidc-purge.service.ts` and the queries under it: in rounds, the job logs out expired sessions
upstream and deletes a batch of each of three kinds of expired rows, until a round finds no expired
`oidc_model` row or the cap on rounds is reached.  Each query reads the clock for itself, and among
rows that are equal in its order any may come first.
-/
import DigitalTrust.Batches
import DigitalTrust.Table

namespace DigitalTrust.OidcPurge

open Relational Batches

/-! ## Rows -/

/-- A row of `oidc_model`, under its id. -/
structure OidcModel where
  modelName : String
  expiresAt : Option ℤ
  deriving DecidableEq

/-- A row of `oidc_upstream_session`; it is pending as long as it names no model. -/
structure OidcUpstreamSession where
  oidcModelId : Option ℕ
  createdAt : ℤ
  expiresAt : Option ℤ
  deriving DecidableEq

/-- A row of `oidc_upstream_interaction`. -/
structure OidcUpstreamInteraction where
  expiresAt : ℤ
  deriving DecidableEq

/-- The tables that the job works on. -/
structure Tables where
  oidcModel : Table ℕ OidcModel
  oidcUpstreamSession : Table ℕ OidcUpstreamSession
  oidcUpstreamInteraction : Table ℕ OidcUpstreamInteraction

/-- `expires_at IS NOT NULL AND expires_at < now()`. -/
def expiredAt (now : ℤ) : Option ℤ → Bool
  | some e => e < now
  | none => false

def expiredModel (now : ℤ) (x : ℕ × OidcModel) : Bool := expiredAt now x.2.expiresAt

def expiredPending (now : ℤ) (x : ℕ × OidcUpstreamSession) : Bool :=
  decide (x.2.oidcModelId = none) && expiredAt now x.2.expiresAt

def expiredInteraction (now : ℤ) (x : ℕ × OidcUpstreamInteraction) : Bool := x.2.expiresAt < now

/-- `ORDER BY expires_at` of models. -/
def modelKey (x : ℕ × OidcModel) : ℤ := x.2.expiresAt.getD 0

/-- `ORDER BY created_at` of pending sessions. -/
def pendingKey (x : ℕ × OidcUpstreamSession) : ℤ := x.2.createdAt

/-- `ORDER BY expires_at` of interactions. -/
def interactionKey (x : ℕ × OidcUpstreamInteraction) : ℤ := x.2.expiresAt

/-- `Math.max(1, Math.floor(limit))`. -/
def safeLimit (limit : ℕ) : ℕ := max 1 limit

/-- `LIMIT` of every query: `BATCH_SIZE`, clamped. -/
def batchSize : ℕ := safeLimit 500

def maxBatchesPerRun : ℕ := 50

/-! ## The environment of a run -/

/-- The readings of the database's clock, one after another. -/
structure Clock where
  now : ℕ → ℤ
  mono : Monotone now

/-- How the four ordered and limited queries are answered. -/
structure Database where
  candidates : Picker modelKey batchSize
  pending : Picker pendingKey batchSize
  models : Picker modelKey batchSize
  interactions : Picker interactionKey batchSize

def Database.sorted : Database :=
  ⟨.sorted _ _, .sorted _ _, .sorted _ _, .sorted _ _⟩

inductive Event where
  /-- `logoutUpstreamSessionForOidcSession` was called for the session. -/
  | logout (oidcModelId : ℕ)
  /-- The model was deleted; `linked` if it was a session with an upstream session. -/
  | deleted (oidcModelId : ℕ) (linked : Bool)
  deriving DecidableEq

/-- The tables, and what the run has done so far. -/
structure State where
  tables : Tables
  log : List Event

/-! ## Queries -/

def linked (t : Tables) (oidcModelId : ℕ) : Bool :=
  t.oidcUpstreamSession.rows.any fun x => x.2.oidcModelId = some oidcModelId

/-- The expired sessions that have an upstream session; `uq_oidc_upstream_session_model` allows one
each. -/
def expiredLinked (now : ℤ) (t : Tables) : List (ℕ × OidcModel) :=
  t.oidcModel.rows.filter fun x =>
    x.2.modelName = "Session" && linked t x.1 && expiredModel now x

def getExpiredSessionsWithUpstreamCleanup (db : Database) (j : ℕ) (now : ℤ) (t : Tables) :
    List (ℕ × OidcModel) :=
  db.candidates.pick j (expiredLinked now t)

/-- `logoutUpstreamSessionForOidcSession`: the upstream session is deleted if the end-session
request is accepted. -/
def logoutUpstreamSession (accepted : Bool) (oidcModelId : ℕ) (t : Tables) : Tables :=
  match t.oidcUpstreamSession.first fun _ r => r.oidcModelId = some oidcModelId with
  | none => t
  | some x =>
    if accepted then
      { t with oidcUpstreamSession := t.oidcUpstreamSession.delete fun id _ => id = x.1 }
    else t

/-- The loop over the sessions to clean up; a failed logout is only logged. -/
def logoutAll (accepted : ℕ → Bool) (sessions : List (ℕ × OidcModel)) (s : State) : State :=
  sessions.foldl (fun s x =>
    ⟨logoutUpstreamSession (accepted x.1) x.1 s.tables, s.log ++ [.logout x.1]⟩) s

/-- `DELETE ... WHERE id IN (...)`. -/
def deleteIds {ρ : Type} (t : Table ℕ ρ) (chosen : List (ℕ × ρ)) : Table ℕ ρ :=
  t.delete fun id _ => id ∈ chosen.map Prod.fst

def deleteExpiredPendingBatch (db : Database) (j : ℕ) (now : ℤ) (t : Tables) : Tables :=
  { t with
    oidcUpstreamSession := deleteIds t.oidcUpstreamSession
      (db.pending.pick j (t.oidcUpstreamSession.rows.filter (expiredPending now))) }

/-- The models that `purgeExpiredBatch` deletes. -/
def modelBatch (db : Database) (j : ℕ) (now : ℤ) (t : Tables) : List (ℕ × OidcModel) :=
  db.models.pick j (t.oidcModel.rows.filter (expiredModel now))

/-- `COUNT(*) ... GROUP BY model_name`. -/
def countsByModel (deleted : List (ℕ × OidcModel)) : List (String × ℕ) :=
  let names := deleted.map fun x => x.2.modelName
  names.dedup.map fun name => (name, names.count name)

/-- `purgeExpiredBatch`; the upstream sessions of deleted models go with them. -/
def purgeExpiredBatch (db : Database) (j : ℕ) (now : ℤ) (s : State) :
    State × List (String × ℕ) :=
  let deleted := modelBatch db j now s.tables
  ({ tables := { s.tables with
       oidcModel := deleteIds s.tables.oidcModel deleted
       oidcUpstreamSession := s.tables.oidcUpstreamSession.delete fun _ r =>
         r.oidcModelId.any (· ∈ deleted.map Prod.fst) }
     log := s.log ++ deleted.map fun x =>
       .deleted x.1 (x.2.modelName = "Session" && linked s.tables x.1) },
   countsByModel deleted)

def purgeExpiredUpstreamInteractionsBatch (db : Database) (j : ℕ) (now : ℤ) (t : Tables) :
    Tables :=
  { t with
    oidcUpstreamInteraction := deleteIds t.oidcUpstreamInteraction
      (db.interactions.pick j (t.oidcUpstreamInteraction.rows.filter (expiredInteraction now))) }

/-! ## The job -/

section Job

-- the clock, the answers of the database, and which logouts are accepted in each round
variable (clock : Clock) (db : Database) (accepted : ℕ → ℕ → Bool)

/-- One round of the loop, with the counts of the models it has deleted. -/
def round (j : ℕ) (s : State) : State × List (String × ℕ) :=
  let sessions := getExpiredSessionsWithUpstreamCleanup db j (clock.now (4 * j)) s.tables
  let s := logoutAll (accepted j) sessions s
  let s := { s with tables := deleteExpiredPendingBatch db j (clock.now (4 * j + 1)) s.tables }
  let r := purgeExpiredBatch db j (clock.now (4 * j + 2)) s
  ({ r.1 with
     tables := purgeExpiredUpstreamInteractionsBatch db j (clock.now (4 * j + 3)) r.1.tables }, r.2)

/-- `batch.reduce((sum, entry) => sum + entry.count, 0)`. -/
def batchCount (batch : List (String × ℕ)) : ℕ := (batch.map Prod.snd).sum

/-- The loop: rounds from the `j`-th on, at most as many as `fuel` says; the number of rounds made
in all, and the state they end in. -/
def purgeLoop : (fuel j : ℕ) → State → ℕ × State
  | 0, j, s => (j, s)
  | fuel + 1, j, s =>
    let r := round clock db accepted j s
    if 0 < batchCount r.2 ∧ 0 < fuel then purgeLoop fuel (j + 1) r.1 else (j + 1, r.1)

/-- `purgeExpiredModels`: the number of batches and the state at the end. -/
def purgeExpiredModels (t : Tables) : ℕ × State :=
  purgeLoop clock db accepted maxBatchesPerRun 0 ⟨t, []⟩

/-- The state before a round, if the loop gets there. -/
def before (t : Tables) : ℕ → State
  | 0 => ⟨t, []⟩
  | j + 1 => (round clock db accepted j (before t j)).1

/-- The number of models that a round deletes. -/
def countAt (t : Tables) (j : ℕ) : ℕ :=
  batchCount (round clock db accepted j (before clock db accepted t j)).2

/-- The loop ends with the first round that deletes no model, or with its last one. -/
theorem purgeLoop_eq (t : Tables) (fuel j : ℕ) :
    ∃ k, j ≤ k ∧ k < j + (fuel + 1) ∧
      purgeLoop clock db accepted (fuel + 1) j (before clock db accepted t j) =
        (k + 1, before clock db accepted t (k + 1)) ∧
      (∀ i, j ≤ i → i < k → 0 < countAt clock db accepted t i) ∧
      (countAt clock db accepted t k = 0 ∨ k = j + fuel) := by
  induction fuel generalizing j with
  | zero =>
    refine ⟨j, le_rfl, by omega, ?_, by omega, .inr rfl⟩
    rw [purgeLoop, if_neg (by omega)]
    rfl
  | succ fuel ih =>
    by_cases hcount : 0 < countAt clock db accepted t j
    · obtain ⟨k, hjk, hk, heq, hpos, hend⟩ := ih (j + 1)
      refine ⟨k, by omega, by omega, ?_, fun i hi hik => ?_, ?_⟩
      · rw [purgeLoop, if_pos ⟨hcount, Nat.succ_pos fuel⟩]
        exact heq
      · rcases Nat.eq_or_lt_of_le hi with rfl | hlt
        · exact hcount
        · exact hpos i hlt hik
      · rcases hend with h | h
        · exact .inl h
        · exact .inr (by omega)
    · refine ⟨j, le_rfl, by omega, ?_, by omega, .inl (by omega)⟩
      rw [purgeLoop, if_neg (fun h => hcount h.1)]
      rfl

end Job

/-! ## What a round does to each table -/

variable {ρ : Type} {id k : ℕ} {t : Tables}

theorem rows_nodup (t : Table ℕ ρ) : t.rows.Nodup := List.Nodup.of_map _ t.nodup

/-- Deleting rows by their ids takes away these rows. -/
theorem rows_deleteIds [DecidableEq ρ] {t : Table ℕ ρ} {chosen : List (ℕ × ρ)}
    (h : chosen ⊆ t.rows) : (deleteIds t chosen).rows = remove t.rows chosen := by
  refine List.filter_congr fun x hx => ?_
  have hiff : x.1 ∈ chosen.map Prod.fst ↔ x ∈ chosen := by
    rw [List.mem_map]
    constructor
    · rintro ⟨y, hy, heq⟩
      exact List.inj_on_of_nodup_map t.nodup (h hy) hx heq ▸ hy
    · exact fun hmem => ⟨x, hmem, rfl⟩
  simp [hiff]

/-- What a picker returns are rows of the table. -/
theorem pick_subset {key : ℕ × ρ → ℤ} {n : ℕ} (P : Picker key n) (t : Table ℕ ρ) (j : ℕ)
    (q : ℕ × ρ → Bool) : P.pick j (t.rows.filter q) ⊆ t.rows := fun _ hx =>
  List.mem_of_mem_filter ((P.isBatch j ((rows_nodup t).filter q)).subset hx)

/-- The counts of a batch sum up to its length. -/
theorem batchCount_countsByModel (deleted : List (ℕ × OidcModel)) :
    batchCount (countsByModel deleted) = deleted.length := by
  rw [batchCount, countsByModel, List.map_map]
  refine (List.sum_map_count_dedup_eq_length _).trans ?_
  rw [List.length_map]

def pendingRows (t : Tables) : List (ℕ × OidcUpstreamSession) :=
  t.oidcUpstreamSession.rows.filter fun x => x.2.oidcModelId = none

/-- Deleting linked sessions keeps the pending ones. -/
theorem pending_delete {t : Table ℕ OidcUpstreamSession} {p : ℕ → OidcUpstreamSession → Bool}
    (h : ∀ x ∈ t.rows, x.2.oidcModelId = none → p x.1 x.2 = false) :
    ((t.delete p).rows.filter fun x => x.2.oidcModelId = none) =
      t.rows.filter fun x => x.2.oidcModelId = none := by
  rw [Table.delete, List.filter_filter]
  refine List.filter_congr fun x hx => ?_
  by_cases hnone : x.2.oidcModelId = none
  · simp [hnone, h x hx hnone]
  · simp [hnone]

/-- A session that is left was linked before. -/
theorem linked_of_subset {t' : Tables}
    (h : t'.oidcUpstreamSession.rows ⊆ t.oidcUpstreamSession.rows) (hid : linked t' id = true) :
    linked t id = true := by
  rw [linked, List.any_eq_true] at hid ⊢
  obtain ⟨x, hx, hid⟩ := hid
  exact ⟨x, h hx, hid⟩

/-- What logouts do to the tables: they take links away, and nothing else. -/
structure Unlinks (t t' : Tables) : Prop where
  models : t'.oidcModel = t.oidcModel
  interactions : t'.oidcUpstreamInteraction = t.oidcUpstreamInteraction
  pending : pendingRows t' = pendingRows t
  links : ∀ {id}, linked t' id = true → linked t id = true

theorem Unlinks.refl (t : Tables) : Unlinks t t := ⟨rfl, rfl, rfl, fun h => h⟩

theorem Unlinks.trans {t' t'' : Tables} (h : Unlinks t t') (h' : Unlinks t' t'') : Unlinks t t'' :=
  ⟨h'.models.trans h.models, h'.interactions.trans h.interactions, h'.pending.trans h.pending,
    fun hid => h.links (h'.links hid)⟩

/-- One logout. -/
theorem unlinks_logoutUpstreamSession (ok : Bool) (id : ℕ) (t : Tables) :
    Unlinks t (logoutUpstreamSession ok id t) := by
  unfold logoutUpstreamSession
  split
  · exact .refl t
  · rename_i x hfirst
    split
    · obtain ⟨hrow, hlinked⟩ := Table.first_eq_some hfirst
      have hx := Table.row_eq_some.mp hrow
      refine ⟨rfl, rfl, pending_delete fun y hy hnone => ?_,
        linked_of_subset fun _ => List.mem_of_mem_filter⟩
      -- the row that goes is linked, so it is none of the pending ones
      refine decide_eq_false fun heq => ?_
      have hsame : y = x := List.inj_on_of_nodup_map t.oidcUpstreamSession.nodup hy hx heq
      rw [← hsame] at hlinked
      simp [hnone] at hlinked
    · exact .refl t

/-- The logouts of a round. -/
theorem unlinks_logoutAll (ok : ℕ → Bool) (sessions : List (ℕ × OidcModel)) (s : State) :
    Unlinks s.tables (logoutAll ok sessions s).tables := by
  induction sessions generalizing s with
  | nil => exact .refl _
  | cons x sessions ih =>
    exact (unlinks_logoutUpstreamSession (ok x.1) x.1 s.tables).trans
      (ih ⟨_, s.log ++ [.logout x.1]⟩)

/-- Each of them is noted. -/
theorem log_logoutAll (ok : ℕ → Bool) (sessions : List (ℕ × OidcModel)) (s : State) :
    (logoutAll ok sessions s).log = s.log ++ sessions.map (fun x => .logout x.1) := by
  induction sessions generalizing s with
  | nil => simp [logoutAll]
  | cons x sessions ih =>
    refine (ih ⟨logoutUpstreamSession (ok x.1) x.1 s.tables, s.log ++ [.logout x.1]⟩).trans ?_
    simp

theorem filter_expiredPending (now : ℤ) (t : Tables) :
    t.oidcUpstreamSession.rows.filter (expiredPending now) =
      (pendingRows t).filter (expiredPending now) := by
  rw [pendingRows, List.filter_filter]
  refine List.filter_congr fun x _ => ?_
  by_cases h : x.2.oidcModelId = none <;> simp [expiredPending, h]

/-! ### Rounds -/

section Rounds

variable (clock : Clock) (db : Database) (accepted : ℕ → ℕ → Bool)

def dueModel (j : ℕ) : ℕ × OidcModel → Bool := expiredModel (clock.now (4 * j + 2))

def duePending (j : ℕ) : ℕ × OidcUpstreamSession → Bool := expiredPending (clock.now (4 * j + 1))

def dueInteraction (j : ℕ) : ℕ × OidcUpstreamInteraction → Bool :=
  expiredInteraction (clock.now (4 * j + 3))

/-- One round on the models. -/
theorem models_round (j : ℕ) (s : State) :
    (round clock db accepted j s).1.tables.oidcModel.rows =
      remove s.tables.oidcModel.rows
        (db.models.pick j (s.tables.oidcModel.rows.filter (dueModel clock j))) := by
  simp only [round, purgeExpiredUpstreamInteractionsBatch, purgeExpiredBatch,
    deleteExpiredPendingBatch, modelBatch, (unlinks_logoutAll _ _ s).models]
  exact rows_deleteIds (pick_subset db.models s.tables.oidcModel j _)

/-- One round on the interactions. -/
theorem interactions_round (j : ℕ) (s : State) :
    (round clock db accepted j s).1.tables.oidcUpstreamInteraction.rows =
      remove s.tables.oidcUpstreamInteraction.rows
        (db.interactions.pick j
          (s.tables.oidcUpstreamInteraction.rows.filter (dueInteraction clock j))) := by
  simp only [round, purgeExpiredUpstreamInteractionsBatch, purgeExpiredBatch,
    deleteExpiredPendingBatch, (unlinks_logoutAll _ _ s).interactions]
  exact rows_deleteIds (pick_subset db.interactions s.tables.oidcUpstreamInteraction j _)

/-- One round on the pending sessions. -/
theorem pending_round (j : ℕ) (s : State) :
    pendingRows (round clock db accepted j s).1.tables =
      remove (pendingRows s.tables)
        (db.pending.pick j ((pendingRows s.tables).filter (duePending clock j))) := by
  set s' := logoutAll (accepted j)
    (getExpiredSessionsWithUpstreamCleanup db j (clock.now (4 * j)) s.tables) s with hs'
  have hpending : pendingRows s'.tables = pendingRows s.tables := (unlinks_logoutAll _ _ s).pending
  set chosen := db.pending.pick j ((pendingRows s.tables).filter (duePending clock j)) with hchosen
  have hpick : db.pending.pick j
      (s'.tables.oidcUpstreamSession.rows.filter (expiredPending (clock.now (4 * j + 1)))) =
        chosen := by
    rw [filter_expiredPending, hpending, hchosen]
    rfl
  have hsub : chosen ⊆ s'.tables.oidcUpstreamSession.rows := by
    rw [← hpick]
    exact pick_subset db.pending s'.tables.oidcUpstreamSession j _
  -- a cascade takes linked sessions only
  have hcascade : ∀ (ids : List ℕ) (t : Table ℕ OidcUpstreamSession),
      ((t.delete fun _ r => r.oidcModelId.any (· ∈ ids)).rows.filter fun x =>
        x.2.oidcModelId = none) = t.rows.filter fun x => x.2.oidcModelId = none := by
    intro ids t
    refine pending_delete fun x _ hnone => ?_
    rw [hnone, Option.any_none]
  simp only [pendingRows, round, purgeExpiredUpstreamInteractionsBatch, purgeExpiredBatch,
    deleteExpiredPendingBatch, ← hs', hpick]
  rw [hcascade, rows_deleteIds hsub, remove, List.filter_comm, ← pendingRows, hpending]
  rfl

/-- The models before a round. -/
theorem models_before (t : Tables) (j : ℕ) :
    (before clock db accepted t j).tables.oidcModel.rows =
      rest db.models (dueModel clock) t.oidcModel.rows j := by
  induction j with
  | zero => rfl
  | succ j ih => rw [before, models_round, ih, rest]

/-- The interactions before a round. -/
theorem interactions_before (t : Tables) (j : ℕ) :
    (before clock db accepted t j).tables.oidcUpstreamInteraction.rows =
      rest db.interactions (dueInteraction clock) t.oidcUpstreamInteraction.rows j := by
  induction j with
  | zero => rfl
  | succ j ih => rw [before, interactions_round, ih, rest]

/-- The pending sessions before a round. -/
theorem pending_before (t : Tables) (j : ℕ) :
    pendingRows (before clock db accepted t j).tables =
      rest db.pending (duePending clock) (pendingRows t) j := by
  induction j with
  | zero => rfl
  | succ j ih => rw [before, pending_round, ih, rest]

/-- A round counts the models of its batch. -/
theorem countAt_eq (t : Tables) (j : ℕ) :
    countAt clock db accepted t j =
      (batch db.models (dueModel clock) t.oidcModel.rows j).length := by
  simp only [countAt, round, purgeExpiredBatch, deleteExpiredPendingBatch, modelBatch,
    (unlinks_logoutAll _ _ (before clock db accepted t j)).models, batchCount_countsByModel]
  rw [models_before]
  rfl

/-! ## Draining the backlog -/

/-- No row of the three kinds that had expired by the given time is left. -/
structure Drained (start : ℤ) (t : Tables) : Prop where
  models : ∀ x ∈ t.oidcModel.rows, expiredModel start x = false
  interactions : ∀ x ∈ t.oidcUpstreamInteraction.rows, expiredInteraction start x = false
  pending : ∀ x ∈ t.oidcUpstreamSession.rows, expiredPending start x = false

/-- The number of models that have expired by the time a round deletes models. -/
def expiredModels (t : Tables) (j : ℕ) : ℕ := t.oidcModel.rows.countP (dueModel clock j)

/-- The first round by which all models that have expired are deleted. -/
def LastRound (t : Tables) (k : ℕ) : Prop :=
  expiredModels clock t k = taken batchSize (expiredModels clock t) k ∧
  ∀ i < k, expiredModels clock t i ≠ taken batchSize (expiredModels clock t) i

/-- The interactions fit in the rounds that the models need, and each pending session gets its turn
in one of them, with all that may come before it. -/
def DrainsInTime (t : Tables) : Prop :=
  ∀ k, k + 1 < maxBatchesPerRun → LastRound clock t k →
    t.oidcUpstreamInteraction.rows.countP (expiredInteraction (clock.now 0)) ≤
      batchSize * (k + 1) ∧
    ∀ x ∈ pendingRows t, expiredPending (clock.now 0) x = true →
      ∃ i ≤ k, (pendingRows t).countP (upTo pendingKey (duePending clock) x i) ≤
        batchSize * (i + 1)

variable {now' : ℤ}

/-! ### Expiry -/

/-- What has expired stays expired. -/
theorem expiredAt_mono {now : ℤ} (h : now ≤ now') {e : Option ℤ} (he : expiredAt now e = true) :
    expiredAt now' e = true := by
  cases e with
  | none => exact he
  | some e =>
    simp only [expiredAt, decide_eq_true_eq] at he ⊢
    omega

theorem expiredModel_mono {now : ℤ} (h : now ≤ now') {x : ℕ × OidcModel}
    (hx : expiredModel now x = true) : expiredModel now' x = true := expiredAt_mono h hx

theorem expiredPending_mono {now : ℤ} (h : now ≤ now') {x : ℕ × OidcUpstreamSession}
    (hx : expiredPending now x = true) : expiredPending now' x = true := by
  simp only [expiredPending, Bool.and_eq_true] at hx ⊢
  exact ⟨hx.1, expiredAt_mono h hx.2⟩

theorem expiredInteraction_mono {now : ℤ} (h : now ≤ now') {x : ℕ × OidcUpstreamInteraction}
    (hx : expiredInteraction now x = true) : expiredInteraction now' x = true := by
  simp only [expiredInteraction, decide_eq_true_eq] at hx ⊢
  omega

/-- What is due stays due. -/
theorem dueModel_mono (x : ℕ × OidcModel) : Monotone fun j => dueModel clock j x :=
  fun _ _ hij => Bool.le_iff_imp.mpr (expiredModel_mono (clock.mono (by omega)))

theorem duePending_mono (x : ℕ × OidcUpstreamSession) : Monotone fun j => duePending clock j x :=
  fun _ _ hij => Bool.le_iff_imp.mpr (expiredPending_mono (clock.mono (by omega)))

/-- A round deletes no model if and only if all that have expired are gone. -/
theorem countAt_eq_zero_iff (t : Tables) (j : ℕ) :
    countAt clock db accepted t j = 0 ↔
      expiredModels clock t j = taken batchSize (expiredModels clock t) j := by
  have hcount := countP_due_rest db.models (dueModel clock) (rows_nodup t.oidcModel)
    (dueModel_mono clock) (le_refl j)
  have hsize : 0 < batchSize := by decide
  rw [countAt_eq, length_batch db.models (dueModel clock) (rows_nodup t.oidcModel)]
  change _ + taken batchSize (expiredModels clock t) j = expiredModels clock t j at hcount
  omega

/-- A run ends with the first round before which all models that have expired are deleted, or at
the cap. -/
theorem purgeExpiredModels_eq (t : Tables) :
    ∃ k, k + 1 ≤ maxBatchesPerRun ∧
      purgeExpiredModels clock db accepted t = (k + 1, before clock db accepted t (k + 1)) ∧
      (∀ i < k, expiredModels clock t i ≠ taken batchSize (expiredModels clock t) i) ∧
      (k + 1 < maxBatchesPerRun → LastRound clock t k) := by
  obtain ⟨k, -, hk, heq, hpos, hend⟩ := purgeLoop_eq clock db accepted t 49 0
  have hbefore : ∀ i < k, expiredModels clock t i ≠ taken batchSize (expiredModels clock t) i := by
    intro i hi hall
    have hzero := (countAt_eq_zero_iff clock db accepted t i).mpr hall
    exact absurd hzero (hpos i (Nat.zero_le i) hi).ne'
  simp only [maxBatchesPerRun]
  refine ⟨k, by omega, heq, hbefore, fun hlt => ⟨?_, hbefore⟩⟩
  have hcount : countAt clock db accepted t k = 0 := hend.resolve_right (by omega)
  exact (countAt_eq_zero_iff clock db accepted t k).mp hcount

/-- A run that has its last round below the cap ends there. -/
theorem purgeExpiredModels_of_lastRound (hk : k + 1 < maxBatchesPerRun)
    (hlast : LastRound clock t k) :
    purgeExpiredModels clock db accepted t = (k + 1, before clock db accepted t (k + 1)) := by
  obtain ⟨k', -, heq, hbefore, hlast'⟩ := purgeExpiredModels_eq clock db accepted t
  rcases lt_trichotomy k k' with hlt | rfl | hgt
  · exact absurd hlast.1 (hbefore k hlt)
  · exact heq
  · exact absurd (hlast' (by omega)).1 (hlast.2 k' hgt)

/-- After the last round no model is left that had expired when the run started. -/
theorem models_drained (hlast : LastRound clock t k) :
    ∀ x ∈ (before clock db accepted t (k + 1)).tables.oidcModel.rows,
      expiredModel (clock.now 0) x = false := by
  intro x hx
  rw [models_before] at hx
  have hcount := countP_due_rest db.models (dueModel clock) (rows_nodup t.oidcModel)
    (dueModel_mono clock) (le_refl k)
  have hzero :
      (rest db.models (dueModel clock) t.oidcModel.rows k).countP (dueModel clock k) = 0 := by
    have := hlast.1
    change _ + taken batchSize (expiredModels clock t) k = expiredModels clock t k at hcount
    omega
  have hnot := List.countP_eq_zero.mp hzero x (rest_subset db.models _ (Nat.le_succ k) hx)
  rw [← Bool.not_eq_true]
  exact fun hstart => hnot (expiredModel_mono (clock.mono (Nat.zero_le _)) hstart)

/-- How many interactions that had expired when the run started are left before a round. -/
theorem interactions_left (t : Tables) (j : ℕ) :
    (before clock db accepted t j).tables.oidcUpstreamInteraction.rows.countP
        (expiredInteraction (clock.now 0)) =
      t.oidcUpstreamInteraction.rows.countP (expiredInteraction (clock.now 0)) -
        batchSize * j := by
  rw [interactions_before]
  refine countP_first_rest db.interactions _ (rows_nodup t.oidcUpstreamInteraction) ?_ ?_ j
  · exact fun i x hx => expiredInteraction_mono (clock.mono (Nat.zero_le _)) hx
  · intro a b ha hb
    simp only [expiredInteraction, decide_eq_true_eq, decide_eq_false_iff_not] at ha hb
    simp only [interactionKey]
    omega

/-- When no expired interaction is left. -/
theorem interactions_drained_iff (t : Tables) (j : ℕ) :
    (∀ x ∈ (before clock db accepted t j).tables.oidcUpstreamInteraction.rows,
        expiredInteraction (clock.now 0) x = false) ↔
      t.oidcUpstreamInteraction.rows.countP (expiredInteraction (clock.now 0)) ≤
        batchSize * j := by
  have hleft := interactions_left clock db accepted t j
  rw [← Nat.sub_eq_zero_iff_le, ← hleft, List.countP_eq_zero]
  simp only [Bool.not_eq_true]

/-- A pending session that had expired is a pending session. -/
theorem pending_drained_iff (start : ℤ) (t : Tables) :
    (∀ x ∈ t.oidcUpstreamSession.rows, expiredPending start x = false) ↔
      ∀ x ∈ pendingRows t, expiredPending start x = false := by
  constructor
  · exact fun h x hx => h x (List.mem_of_mem_filter hx)
  · intro h x hx
    by_cases hnone : x.2.oidcModelId = none
    · exact h x (List.mem_filter.mpr ⟨hx, by simpa using hnone⟩)
    · simp [expiredPending, hnone]

/-- One batch of interactions and one of pending sessions are always drained. -/
theorem drainsInTime_of_le (hinteractions : t.oidcUpstreamInteraction.rows.length ≤ batchSize)
    (hpending : t.oidcUpstreamSession.rows.length ≤ batchSize) : DrainsInTime clock t := by
  intro k _ _
  refine ⟨?_, fun x _ _ => ⟨0, Nat.zero_le k, ?_⟩⟩
  · calc _ ≤ t.oidcUpstreamInteraction.rows.length := List.countP_le_length
      _ ≤ batchSize := hinteractions
      _ ≤ batchSize * (k + 1) := Nat.le_mul_of_pos_right _ (Nat.succ_pos k)
  · calc _ ≤ (pendingRows t).length := List.countP_le_length
      _ ≤ t.oidcUpstreamSession.rows.length := List.length_filter_le _ _
      _ ≤ batchSize * (0 + 1) := by omega

/-- **When a run drains its backlog.** However the database orders equal rows, a run makes no more
batches than the cap, and one that makes fewer leaves no row that had expired at its start, if and
only if interactions and pending sessions need no more rounds than the models. -/
theorem purge_drains_iff (t : Tables) :
    (∀ (db : Database) (accepted : ℕ → ℕ → Bool),
      (purgeExpiredModels clock db accepted t).1 ≤ maxBatchesPerRun ∧
      ((purgeExpiredModels clock db accepted t).1 < maxBatchesPerRun →
        Drained (clock.now 0) (purgeExpiredModels clock db accepted t).2.tables)) ↔
      DrainsInTime clock t := by
  constructor
  · intro hdrains k hk hlast
    -- below the cap every answer of the database leads to the same last round
    have hend : ∀ (db : Database) (accepted : ℕ → ℕ → Bool),
        Drained (clock.now 0) (before clock db accepted t (k + 1)).tables := by
      intro db accepted
      have heq := purgeExpiredModels_of_lastRound clock db accepted hk hlast
      have h := (hdrains db accepted).2
      rw [heq] at h
      exact h hk
    refine ⟨?_, fun x hx hstart => ?_⟩
    · exact (interactions_drained_iff clock Database.sorted (fun _ _ => true) t (k + 1)).mp
        (hend _ _).interactions
    · by_contra hnever
      push Not at hnever
      -- the answers that put `x` last among its equals leave it behind
      obtain ⟨P, hP⟩ := exists_mem_rest (duePending clock)
        ((rows_nodup t.oidcUpstreamSession).filter _) pendingKey batchSize hx
      have hleft := hP (k + 1) fun j hj => hnever j (Nat.lt_succ_iff.mp hj)
      have hdrained := (pending_drained_iff _ _).mp
        (hend { Database.sorted with pending := P } fun _ _ => true).pending
      rw [pending_before] at hdrained
      exact absurd (hdrained x hleft) (by simp [hstart])
  · intro htime db accepted
    obtain ⟨k, hcap, heq, -, hlast⟩ := purgeExpiredModels_eq clock db accepted t
    rw [heq]
    refine ⟨hcap, fun hk => ?_⟩
    obtain ⟨hinteractions, hpending⟩ := htime k hk (hlast hk)
    refine ⟨models_drained clock db accepted (hlast hk),
      (interactions_drained_iff clock db accepted t (k + 1)).mpr hinteractions,
      (pending_drained_iff _ _).mpr fun x hx => ?_⟩
    rw [pending_before] at hx
    rw [← Bool.not_eq_true]
    intro hstart
    have hrows : (pendingRows t).Nodup := (rows_nodup t.oidcUpstreamSession).filter _
    obtain ⟨i, hik, hfew⟩ := hpending x (rest_subset _ _ (Nat.zero_le _) hx) hstart
    have hdue : duePending clock 0 x = true :=
      expiredPending_mono (clock.mono (Nat.zero_le _)) hstart
    have hmany := lt_countP_of_mem_rest db.pending _ hrows (duePending_mono clock) hdue
      (rest_subset db.pending _ (Nat.succ_le_succ hik) hx)
    omega

end Rounds

/-! ### Runs -/

def Clock.still (now : ℤ) : Clock := ⟨fun _ => now, fun _ _ _ => le_rfl⟩

def oneOfEach : Tables where
  oidcModel := ⟨[(0, ⟨"AccessToken", some 0⟩)], by decide⟩
  oidcUpstreamSession := ⟨[(0, ⟨none, 0, some 0⟩)], by decide⟩
  oidcUpstreamInteraction := ⟨[(0, ⟨0⟩)], by decide⟩

theorem purge_drains_oneOfEach :
    DrainsInTime (.still 1) oneOfEach ∧
    ∀ (db : Database) (accepted : ℕ → ℕ → Bool),
      (purgeExpiredModels (.still 1) db accepted oneOfEach).1 ≤ maxBatchesPerRun ∧
      ((purgeExpiredModels (.still 1) db accepted oneOfEach).1 < maxBatchesPerRun →
        Drained 1 (purgeExpiredModels (.still 1) db accepted oneOfEach).2.tables) :=
  have htime : DrainsInTime (.still 1) oneOfEach :=
    drainsInTime_of_le (.still 1) (by decide) (by decide)
  ⟨htime, (purge_drains_iff (.still 1) oneOfEach).mpr htime⟩

/-- Interactions that expired at `0`, and no other rows. -/
def interactionBacklog (n : ℕ) : Tables where
  oidcModel := ⟨[], List.nodup_nil⟩
  oidcUpstreamSession := ⟨[], List.nodup_nil⟩
  oidcUpstreamInteraction := ⟨(List.range n).map fun i => (i, ⟨0⟩), by
    rw [List.map_map]
    exact (List.nodup_range).map fun _ _ h => h⟩

theorem countP_interactionBacklog (n : ℕ) :
    (interactionBacklog n).oidcUpstreamInteraction.rows.countP (expiredInteraction 1) = n := by
  have hall : ∀ x ∈ (interactionBacklog n).oidcUpstreamInteraction.rows,
      expiredInteraction 1 x = true := by
    intro x hx
    obtain ⟨i, -, rfl⟩ := List.mem_map.mp hx
    rfl
  rw [List.countP_eq_length.mpr hall]
  simp [interactionBacklog]

/-- Without expired models a run is over after one batch, and one of 501 interactions stays. -/
theorem purge_leaves_interactions :
    (purgeExpiredModels (.still 1) .sorted (fun _ _ => true) (interactionBacklog 501)).1 = 1 ∧
    ¬ Drained 1
      (purgeExpiredModels (.still 1) .sorted (fun _ _ => true)
        (interactionBacklog 501)).2.tables := by
  have hlast : LastRound (.still 1) (interactionBacklog 501) 0 := ⟨rfl, by omega⟩
  rw [purgeExpiredModels_of_lastRound (.still 1) .sorted (fun _ _ => true) (by decide) hlast]
  refine ⟨rfl, fun hdrained => ?_⟩
  have hfits := (interactions_drained_iff (.still 1) .sorted (fun _ _ => true) _ (0 + 1)).mp
    hdrained.interactions
  have hcount := countP_interactionBacklog 501
  rw [Clock.still, hcount] at hfits
  exact absurd hfits (by decide)

/-! ## Logging out before deleting -/

/-- No session is deleted with its upstream session before a logout was attempted. -/
def LogoutFirst (log : List Event) : Prop :=
  ∀ before after id, log = before ++ .deleted id true :: after → .logout id ∈ before

theorem LogoutFirst.of_append {log more : List Event} (h : LogoutFirst (log ++ more)) :
    LogoutFirst log := by
  rintro before after id rfl
  exact h before (after ++ more) id (by simp)

/-- Events that bring no deletion of a linked session too early. -/
theorem LogoutFirst.append {log more : List Event} (h : LogoutFirst log)
    (hmore : ∀ id, .deleted id true ∈ more → .logout id ∈ log) : LogoutFirst (log ++ more) := by
  intro before after id heq
  rcases List.append_eq_append_iff.mp heq with ⟨l, rfl, hl⟩ | ⟨l, rfl, hl⟩
  · exact List.mem_append_left _ (hmore id (hl ▸ by simp))
  · cases l with
    | nil =>
      rw [List.nil_append] at hl
      simpa using hmore id (hl ▸ List.mem_cons_self)
    | cons e l =>
      obtain ⟨rfl, -⟩ := List.cons.inj hl
      exact h before l id rfl

section Logouts

variable (clock : Clock) (db : Database) (accepted : ℕ → ℕ → Bool)

/-- Before a round, every linked session that will have expired when the round deletes models
* has been logged out by this run before, or
* has expired when the round chooses the sessions to log out, and all that may be chosen before it
  fit in one batch with it, or
* has a full batch of models before it, so that it is not deleted. -/
def Covered (j : ℕ) (s : State) : Prop :=
  ∀ x ∈ s.tables.oidcModel.rows, x.2.modelName = "Session" → linked s.tables x.1 = true →
    dueModel clock j x = true →
    .logout x.1 ∈ s.log ∨
    (expiredModel (clock.now (4 * j)) x = true ∧
      (expiredLinked (clock.now (4 * j)) s.tables).countP (fun y => modelKey y ≤ modelKey x) ≤
        batchSize) ∨
    batchSize ≤ (s.tables.oidcModel.rows.filter (dueModel clock j)).countP fun y =>
      modelKey y < modelKey x

/-- The tables when a round deletes models. -/
def atDelete (j : ℕ) (s : State) : Tables :=
  deleteExpiredPendingBatch db j (clock.now (4 * j + 1))
    (logoutAll (accepted j)
      (getExpiredSessionsWithUpstreamCleanup db j (clock.now (4 * j)) s.tables) s).tables

/-- What a round adds to the log. -/
theorem log_round (j : ℕ) (s : State) :
    (round clock db accepted j s).1.log =
      (s.log ++ (getExpiredSessionsWithUpstreamCleanup db j (clock.now (4 * j)) s.tables).map
        fun x => .logout x.1) ++
      (modelBatch db j (clock.now (4 * j + 2)) s.tables).map fun x =>
        .deleted x.1
          (x.2.modelName = "Session" && linked (atDelete clock db accepted j s) x.1) := by
  simp only [round, purgeExpiredBatch, modelBatch, atDelete, deleteExpiredPendingBatch,
    log_logoutAll, (unlinks_logoutAll _ _ s).models]

variable {j : ℕ} {s : State}

/-- What is linked when the round deletes models was linked before the round. -/
theorem linked_of_atDelete (h : linked (atDelete clock db accepted j s) id = true) :
    linked s.tables id = true :=
  (unlinks_logoutAll _ _ s).links (linked_of_subset (fun _ => List.mem_of_mem_filter) h)

theorem mem_expiredLinked {now : ℤ} {x : ℕ × OidcModel} :
    x ∈ expiredLinked now t ↔ x ∈ t.oidcModel.rows ∧ x.2.modelName = "Session" ∧
      linked t x.1 = true ∧ expiredModel now x = true := by
  simp [expiredLinked, and_assoc]

theorem expiredLinked_nodup (now : ℤ) (t : Tables) : (expiredLinked now t).Nodup :=
  (rows_nodup t.oidcModel).filter _

/-- A covered round keeps the order of logouts and deletions. -/
theorem logoutFirst_round (hcovered : Covered clock j s) (h : LogoutFirst s.log) :
    LogoutFirst (round clock db accepted j s).1.log := by
  rw [log_round]
  refine (h.append fun id hid => ?_).append fun id hid => ?_
  · simp at hid
  · obtain ⟨x, hx, heq⟩ := List.mem_map.mp hid
    simp only [Event.deleted.injEq, Bool.and_eq_true, decide_eq_true_eq] at heq
    obtain ⟨rfl, hname, hlinked⟩ := heq
    have hlinked' := linked_of_atDelete clock db accepted hlinked
    have hnodup : (s.tables.oidcModel.rows.filter (dueModel clock j)).Nodup :=
      (rows_nodup s.tables.oidcModel).filter _
    have hbatch := db.models.isBatch j hnodup
    obtain ⟨hrow, hdue⟩ := List.mem_filter.mp (hbatch.subset hx)
    rcases hcovered x hrow hname hlinked' hdue with hdone | ⟨hexpired, hfew⟩ | hmany
    · exact List.mem_append_left _ hdone
    · have hmem := (db.candidates.isBatch j (expiredLinked_nodup _ s.tables)).mem_of_countP_le
        (mem_expiredLinked.mpr ⟨hrow, hname, hlinked', hexpired⟩) hfew
      exact List.mem_append_right _ (List.mem_map.mpr ⟨x, hmem, rfl⟩)
    · exact absurd hx (hbatch.not_mem_of_le_countP hnodup hmany)

/-- Rounds that are all covered keep it. -/
theorem logoutFirst_before (hcovered : ∀ j < k, Covered clock j (before clock db accepted t j)) :
    LogoutFirst (before clock db accepted t k).log := by
  induction k with
  | zero => exact fun before after id heq => by simp [OidcPurge.before] at heq
  | succ k ih =>
    exact logoutFirst_round clock db accepted (hcovered k (Nat.lt_succ_self k))
      (ih fun j hj => hcovered j (Nat.lt_succ_of_lt hj))

/-! ### A round that is not covered -/

/-- A logout of another session leaves a link alone. -/
theorem linked_logoutUpstreamSession {ok : Bool} {id' : ℕ} (hne : id' ≠ id)
    (h : linked t id' = true) : linked (logoutUpstreamSession ok id t) id' = true := by
  unfold logoutUpstreamSession
  split
  · exact h
  · rename_i x hfirst
    split
    · obtain ⟨hrow, hx⟩ := Table.first_eq_some hfirst
      rw [linked, List.any_eq_true] at h ⊢
      obtain ⟨y, hy, hid⟩ := h
      refine ⟨y, List.mem_filter.mpr ⟨hy, ?_⟩, hid⟩
      simp only [decide_eq_true_eq] at hid hx
      have hother : y.1 ≠ x.1 := by
        intro heq
        have hsame : y = x := List.inj_on_of_nodup_map t.oidcUpstreamSession.nodup hy
          (Table.row_eq_some.mp hrow) heq
        rw [hsame, hx] at hid
        exact hne (Option.some.inj hid).symm
      simp [hother]
    · exact h

/-- Another session's link survives the logouts. -/
theorem linked_logoutAll {ok : ℕ → Bool} {sessions : List (ℕ × OidcModel)}
    (hid : id ∉ sessions.map Prod.fst) (h : linked s.tables id = true) :
    linked (logoutAll ok sessions s).tables id = true := by
  induction sessions generalizing s with
  | nil => exact h
  | cons x sessions ih =>
    rw [List.map_cons, List.mem_cons, not_or] at hid
    exact ih hid.2 (linked_logoutUpstreamSession hid.1 h)

/-- A session that is not logged out is still linked when the round deletes models. -/
theorem linked_atDelete
    (hid : id ∉ (getExpiredSessionsWithUpstreamCleanup db j (clock.now (4 * j)) s.tables).map
      Prod.fst) (h : linked s.tables id = true) :
    linked (atDelete clock db accepted j s) id = true := by
  have hlinked : linked (logoutAll (accepted j) _ s).tables id = true := linked_logoutAll hid h
  rw [linked, List.any_eq_true] at hlinked ⊢
  obtain ⟨y, hy, hlink⟩ := hlinked
  refine ⟨y, ?_, hlink⟩
  simp only [decide_eq_true_eq] at hlink
  rw [atDelete, deleteExpiredPendingBatch, rows_deleteIds (pick_subset _ _ _ _)]
  refine mem_remove.mpr ⟨hy, fun hpicked => ?_⟩
  -- what this batch takes is pending
  have hpending := (List.mem_filter.mp
    ((db.pending.isBatch j ((rows_nodup _).filter _)).subset hpicked)).2
  simp [expiredPending, hlink] at hpending

/-- The answers that in one round put a model last among its equals for the logouts, and first for
the deletion. -/
def Database.against (j : ℕ) (x : ℕ × OidcModel) : Database :=
  { db with
    candidates := db.candidates.replace j (.last modelKey batchSize x)
    models := db.models.replace j (.first modelKey batchSize x) }

/-- The rounds before that one are the same. -/
theorem before_against (t : Tables) (x : ℕ × OidcModel) {i : ℕ} (hij : i ≤ j) :
    before clock (db.against j x) accepted t i = before clock db accepted t i := by
  induction i with
  | zero => rfl
  | succ i ih =>
    have hne : i ≠ j := by omega
    rw [before, before, ih (by omega)]
    simp only [round, getExpiredSessionsWithUpstreamCleanup, deleteExpiredPendingBatch,
      purgeExpiredBatch, modelBatch, purgeExpiredUpstreamInteractionsBatch, Database.against,
      Picker.replace_pick_of_ne _ _ hne]
    rfl

/-- From a state that is not covered, some answers lead to a deletion without a logout. -/
theorem covered_of_logoutFirst
    (h : ∀ x, LogoutFirst (round clock (db.against j x) accepted j s).1.log) :
    Covered clock j s := by
  intro x hrow hname hlinked hdue
  by_contra hnone
  push Not at hnone
  obtain ⟨hlog, hcandidate, hmodel⟩ := hnone
  set sessions := getExpiredSessionsWithUpstreamCleanup (db.against j x) j (clock.now (4 * j))
    s.tables with hsessions
  have hsessionsRows : sessions ⊆ s.tables.oidcModel.rows := fun y hy =>
    (mem_expiredLinked.mp (((db.against j x).candidates.isBatch j
      (expiredLinked_nodup _ s.tables)).subset hy)).1
  -- it is not chosen for a logout
  have hnot : x ∉ sessions := by
    intro hx
    have hmem := ((db.against j x).candidates.isBatch j (expiredLinked_nodup _ s.tables)).subset hx
    have hmany := hcandidate (mem_expiredLinked.mp hmem).2.2.2
    refine Picker.not_mem_last (expiredLinked_nodup _ s.tables) j hmany ?_
    simpa [hsessions, getExpiredSessionsWithUpstreamCleanup, Database.against] using hx
  have hid : x.1 ∉ sessions.map Prod.fst := by
    rintro hmem
    obtain ⟨y, hy, heq⟩ := List.mem_map.mp hmem
    have hsame : y = x :=
      List.inj_on_of_nodup_map s.tables.oidcModel.nodup (hsessionsRows hy) hrow heq
    exact hnot (hsame ▸ hy)
  -- and it is chosen for deletion
  have hdeleted : x ∈ modelBatch (db.against j x) j (clock.now (4 * j + 2)) s.tables := by
    have hmem := Picker.mem_first ((rows_nodup s.tables.oidcModel).filter (dueModel clock j)) j
      (List.mem_filter.mpr ⟨hrow, hdue⟩) hmodel
    simpa [modelBatch, Database.against, dueModel] using hmem
  have hstill := linked_atDelete clock (db.against j x) accepted hid hlinked
  have hfirst := h x
  rw [log_round, ← hsessions] at hfirst
  obtain ⟨l, l', hsplit⟩ := List.append_of_mem hdeleted
  rw [hsplit, List.map_append, List.map_cons, ← List.append_assoc] at hfirst
  have hmem := hfirst _ _ x.1 (by rw [hname, hstill]; rfl)
  simp only [List.mem_append, List.mem_map, reduceCtorEq, and_false, exists_false, or_false,
    Event.logout.injEq] at hmem
  rcases hmem with hdone | hchosen
  · exact hlog hdone
  · exact hid (List.mem_map.mpr hchosen)

/-- The number of batches does not depend on the answers. -/
theorem batches_eq (db' : Database) (accepted' : ℕ → ℕ → Bool) (t : Tables) :
    (purgeExpiredModels clock db accepted t).1 = (purgeExpiredModels clock db' accepted' t).1 := by
  obtain ⟨k, hcap, heq, hbefore, hlast⟩ := purgeExpiredModels_eq clock db accepted t
  obtain ⟨k', hcap', heq', hbefore', hlast'⟩ := purgeExpiredModels_eq clock db' accepted' t
  rw [heq, heq']
  rcases lt_trichotomy k k' with hlt | rfl | hgt
  · exact absurd (hlast (by omega)).1 (hbefore' k hlt)
  · rfl
  · exact absurd (hlast' (by omega)).1 (hbefore k' hgt)

/-- The log only grows. -/
theorem log_before (hjk : j ≤ k) :
    ∃ more, (before clock db accepted t k).log = (before clock db accepted t j).log ++ more := by
  induction k, hjk using Nat.le_induction with
  | base => exact ⟨[], (List.append_nil _).symm⟩
  | succ k _ ih =>
    obtain ⟨more, hmore⟩ := ih
    rw [before, log_round, hmore, List.append_assoc, List.append_assoc]
    exact ⟨_, rfl⟩

/-- **When logouts come first.** However the database orders equal rows, no session is deleted with
its upstream session before this run has attempted to log it out, if and only if each round is
covered. -/
theorem purge_logs_out_first_iff (t : Tables) :
    (∀ (db : Database) (accepted : ℕ → ℕ → Bool),
      LogoutFirst (purgeExpiredModels clock db accepted t).2.log) ↔
      ∀ (db : Database) (accepted : ℕ → ℕ → Bool),
        ∀ j < (purgeExpiredModels clock db accepted t).1,
          Covered clock j (before clock db accepted t j) := by
  constructor
  · intro hfirst db accepted j hj
    refine covered_of_logoutFirst clock db accepted fun x => ?_
    have hj' : j < (purgeExpiredModels clock (db.against j x) accepted t).1 := by
      rwa [batches_eq clock _ accepted db accepted]
    have hlog := hfirst (db.against j x) accepted
    obtain ⟨k, -, heq, -⟩ := purgeExpiredModels_eq clock (db.against j x) accepted t
    rw [heq] at hlog hj'
    obtain ⟨more, hmore⟩ := log_before clock (db.against j x) accepted (t := t)
      (Nat.succ_le_of_lt hj')
    rw [hmore] at hlog
    have hround := hlog.of_append
    rwa [before, before_against clock db accepted t x (le_refl j)] at hround
  · intro hcovered db accepted
    obtain ⟨k, -, heq, -⟩ := purgeExpiredModels_eq clock db accepted t
    have h := hcovered db accepted
    rw [heq] at h ⊢
    exact logoutFirst_before clock db accepted h

end Logouts

/-- One batch of models is covered if nothing expires between the two queries. -/
theorem covered_before_of_le {clock : Clock} (hfew : t.oidcModel.rows.length ≤ batchSize)
    (hstill : ∀ j, clock.now (4 * j + 2) = clock.now (4 * j)) (db : Database)
    (accepted : ℕ → ℕ → Bool) (j : ℕ) : Covered clock j (before clock db accepted t j) := by
  intro x _ _ _ hdue
  refine .inr (.inl ⟨?_, ?_⟩)
  · rwa [dueModel, hstill] at hdue
  · have hrows := models_before clock db accepted t j
    have hnodup := rest_nodup db.models (dueModel clock) (rows_nodup t.oidcModel) j
    have hsubset : rest db.models (dueModel clock) t.oidcModel.rows j ⊆ t.oidcModel.rows :=
      rest_subset db.models (dueModel clock) (Nat.zero_le j)
    calc _ ≤ (expiredLinked _ _).length := List.countP_le_length
      _ ≤ (before clock db accepted t j).tables.oidcModel.rows.length := List.length_filter_le _ _
      _ ≤ t.oidcModel.rows.length :=
        hrows ▸ (List.subperm_of_subset hnodup hsubset).length_le
      _ ≤ batchSize := hfew

/-- A session that expires at the given time, with its upstream session. -/
def oneSession (expiresAt : ℤ) : Tables where
  oidcModel := ⟨[(0, ⟨"Session", some expiresAt⟩)], by simp⟩
  oidcUpstreamSession := ⟨[(0, ⟨some 0, 0, none⟩)], by simp⟩
  oidcUpstreamInteraction := ⟨[], List.nodup_nil⟩

theorem purge_logs_out_oneSession :
    (∀ (db : Database) (accepted : ℕ → ℕ → Bool),
      ∀ j < (purgeExpiredModels (.still 1) db accepted (oneSession 0)).1,
        Covered (.still 1) j (before (.still 1) db accepted (oneSession 0) j)) ∧
    ∀ (db : Database) (accepted : ℕ → ℕ → Bool),
      LogoutFirst (purgeExpiredModels (.still 1) db accepted (oneSession 0)).2.log :=
  have hcovered : ∀ (db : Database) (accepted : ℕ → ℕ → Bool),
      ∀ j < (purgeExpiredModels (.still 1) db accepted (oneSession 0)).1,
        Covered (.still 1) j (before (.still 1) db accepted (oneSession 0) j) :=
    fun db accepted j _ => covered_before_of_le (by decide) (fun _ => rfl) db accepted j
  ⟨hcovered, (purge_logs_out_first_iff (.still 1) (oneSession 0)).mpr hcovered⟩

/-- A clock that moves once, after its first reading. -/
def Clock.tick (first later : ℤ) (h : first ≤ later) : Clock where
  now
    | 0 => first
    | _ + 1 => later
  mono := monotone_nat_of_le_succ fun j => by
    cases j with
    | zero => exact h
    | succ j => exact le_rfl

/-- The session expires after the sessions to log out are chosen and before models are deleted. -/
theorem session_deleted_without_logout :
    (purgeExpiredModels (.tick 1 3 (by decide)) .sorted (fun _ _ => true) (oneSession 2)).2.log =
      [.deleted 0 true] ∧
    ¬ LogoutFirst
      (purgeExpiredModels (.tick 1 3 (by decide)) .sorted (fun _ _ => true)
        (oneSession 2)).2.log := by
  have hlog : (purgeExpiredModels (.tick 1 3 (by decide)) .sorted (fun _ _ => true)
      (oneSession 2)).2.log = [.deleted 0 true] := by
    decide +kernel
  refine ⟨hlog, fun hfirst => ?_⟩
  rw [hlog] at hfirst
  exact absurd (hfirst [] [] 0 rfl) List.not_mem_nil

end DigitalTrust.OidcPurge
