/-
# The limit on concurrent sessions

`session-limit.service.ts` and `claimSurplusSessions` of `oidc-account-session.repository.ts`.  A
login persists its session and then deletes the oldest sessions of the account beyond the limit,
its own apart, in one `DELETE` whose subquery sorts the sessions of the statement's snapshot,
locks them one after another, skips those that another transaction has locked or deleted, and
passes over the first `keep` of the others.  What it skips it also does not count.
-/
import DigitalTrust.Interleaving
import Mathlib.Data.List.Sort

namespace DigitalTrust.SessionLimit

open Interleaving

/-! ## The table -/

/-- A row of `oidc_model` for a session; identifiers are compared as the database does. -/
structure Session where
  oidcId : ℕ
  accountId : ℕ
  createdAt : ℕ
  expiresAt : Option ℕ

/-- The rows of the table in the order of their insertion, which of them are deleted, which
transaction has locked them, and the clock of the database. -/
structure State where
  tuples : List Session
  dead : ℕ → Bool
  locked : ℕ → Option ℕ
  now : ℕ

/-- `expires_at IS NULL OR expires_at > now()`. -/
def Session.unexpired (now : ℕ) (r : Session) : Bool := r.expiresAt.all fun t => now < t

def State.active (accountId now : ℕ) (s : State) : List Session :=
  s.tuples.filter fun r => !s.dead r.oidcId && r.accountId = accountId && r.unexpired now

/-- `ORDER BY created_at DESC, oidc_id DESC`. -/
def newestFirst (a b : Session) : Prop :=
  b.createdAt < a.createdAt ∨ b.createdAt = a.createdAt ∧ b.oidcId ≤ a.oidcId

instance : DecidableRel newestFirst := fun a b =>
  inferInstanceAs (Decidable (b.createdAt < a.createdAt ∨ _ ∧ _))

instance : Std.Total newestFirst := ⟨fun a b => by unfold newestFirst; omega⟩

instance : IsTrans Session newestFirst := ⟨fun a b c => by unfold newestFirst; omega⟩

/-! ## The programs -/

/-- Statements that can be told apart in a run: a transaction's attempt to lock a row. -/
inductive Label where
  | step
  | lock (i oidcId : ℕ)

abbrev Program := Proc State Label

/-- Let time pass. -/
def State.wait (d : ℕ) (s : State) : State := { s with now := s.now + d }

/-- The start of a statement, `d` after the last one: its `now()`. -/
def beginStatement (d : ℕ) : Program ℕ := Proc.perform .step (State.wait d) fun s => s.now + d

/-- The new row is committed. -/
def persist (r : Session) : Program Unit :=
  Proc.perform .step (fun s => { s with tuples := s.tuples ++ [r] }) fun _ => ()

def countActiveSessions (d accountId : ℕ) : Program ℕ :=
  Proc.perform .step (State.wait d) fun s => (s.active accountId (s.now + d)).length

/-- What the subquery of `claimSurplusSessions` sorts: the statement's snapshot. -/
def State.candidates (accountId : ℕ) (newSessionId : Option ℕ) (now : ℕ) (s : State) :
    List Session :=
  let others := (s.active accountId now).filter fun r => newSessionId.all fun own => r.oidcId ≠ own
  others.insertionSort newestFirst

/-- The row can be locked by transaction `i`: it is there, and no other one has locked it. -/
def State.lockable (i oidcId : ℕ) (s : State) : Bool :=
  !s.dead oidcId && (s.locked oidcId).all fun j => j = i

/-- `FOR UPDATE SKIP LOCKED` of one row: whether the row is now locked. -/
def lockRow (i oidcId : ℕ) : Program Bool :=
  Proc.perform (.lock i oidcId)
    (fun s => if s.lockable i oidcId then
      { s with locked := Function.update s.locked oidcId (some i) } else s)
    fun s => s.lockable i oidcId

/-- The subquery's scan: the rows locked after the first `offset` ones. -/
def scan (i : ℕ) : (offset : ℕ) → (victims : List Session) → List Session → Program (List Session)
  | _, victims, [] => pure victims
  | offset, victims, r :: rest => do
    let locked ← lockRow i r.oidcId
    if locked then
      match offset with
      | 0 => scan i 0 (victims ++ [r]) rest
      | offset + 1 => scan i offset victims rest
    else scan i offset victims rest

/-- The rows are deleted, and the transaction ends. -/
def State.delete (i : ℕ) (victims : List Session) (s : State) : State where
  tuples := s.tuples
  dead := fun x => s.dead x || victims.any fun r => r.oidcId = x
  locked := fun x => if s.locked x = some i then none else s.locked x
  now := s.now

def claimSurplusSessions (i d accountId limit : ℕ) (newSessionId : Option ℕ) :
    Program (List Session) := do
  let keep := if newSessionId.isSome then limit - 1 else limit
  let rows ← Proc.perform .step (State.wait d) fun s =>
    s.candidates accountId newSessionId (s.now + d)
  let victims ← scan i keep [] rows
  Proc.perform .step (State.delete i victims) fun _ => ()
  pure victims

structure SessionLimitResult where
  priorSessionCount : ℕ
  evictedSessionCount : ℕ
  limit : ℕ

/-- A login: when its session expires, and how long its statements take. -/
structure Request where
  expiresAt : Option ℕ
  beforePersist : ℕ
  beforeCount : ℕ
  beforeClaim : ℕ

/-- `enforce`.  `deleteSessions` is left out: the sessions that it names are gone, and the rest of
what it deletes are grants and tokens. -/
def enforce (i accountId limit : ℕ) (newSessionId : Option ℕ) (r : Request) :
    Program SessionLimitResult :=
  if limit = 0 then pure ⟨0, 0, limit⟩
  else do
    let priorSessionCount ← countActiveSessions r.beforeCount accountId
    let evicted ← claimSurplusSessions i r.beforeClaim accountId limit newSessionId
    pure ⟨priorSessionCount, evicted.length, limit⟩

/-- A login: its session is persisted with the time at which its transaction began, and the
limit is enforced. -/
def login (ids : ℕ → ℕ) (accountId limit i : ℕ) (r : Request) : Program SessionLimitResult := do
  let createdAt ← beginStatement r.beforePersist
  persist ⟨ids i, accountId, createdAt, r.expiresAt⟩
  enforce i accountId limit (some (ids i)) r

/-- Logins of one account, `ids i` being the identifier generated for the session of login `i`. -/
def logins (ids : ℕ → ℕ) (accountId limit : ℕ) : System State Label Request where
  prog r i := do
    let _ ← login ids accountId limit i r
    pure ()
  crash := none

/-- The scan does not meet a row that another transaction has locked. -/
def meetsNoLock : Label → State → Bool
  | .step, _ => true
  | .lock i oidcId, s => s.dead oidcId || s.lockable i oidcId

/-! ## What a login counts on -/

/-- What happens to the table as time passes: rows are added at the end and deleted. -/
structure Extends (s s' : State) : Prop where
  tuples : s.tuples <+: s'.tuples
  dead : ∀ x, s.dead x = true → s'.dead x = true
  now : s.now ≤ s'.now

variable {r : Session} {i : ℕ} {C : Label → State → Prop}

/-- Time that passes makes no session active again. -/
theorem Session.unexpired_mono {t t' : ℕ} (h : t ≤ t') (hr : r.unexpired t' = true) :
    r.unexpired t = true := by
  cases hexpires : r.expiresAt with
  | none => simp [Session.unexpired, hexpires]
  | some e =>
    simp only [Session.unexpired, hexpires, Option.all_some, decide_eq_true_eq] at hr ⊢
    omega

/-- The session was created after the logins have begun. -/
def isNew (start : ℕ) (r : Session) : Bool := start ≤ r.createdAt

section Contract

variable (ids : ℕ → ℕ) (accountId limit start : ℕ) (before : List Session) (strict : Prop)

/-- What holds of the table throughout: the new rows are those of the logins, and none of them is
deleted as long as there are at most `limit` of them. -/
structure Inv (s : State) : Prop where
  nodup : (s.tuples.map Session.oidcId).Nodup
  clock : start ≤ s.now
  added : ∃ new, s.tuples = before ++ new ∧ ∀ r ∈ new, isNew start r = true
  login : ∀ r ∈ s.tuples, isNew start r = true → ∃ j, r.oidcId = ids j
  gone : ∀ x, s.dead x = true → ∃ r ∈ s.tuples, r.oidcId = x
  kept : s.tuples.countP (isNew start) ≤ limit →
    ∀ r ∈ s.tuples, isNew start r = true → s.dead r.oidcId = false

/-- Login `i` has persisted its session. -/
def Own (i : ℕ) (s : State) : Prop :=
  ∃ r ∈ s.tuples, r.oidcId = ids i ∧ isNew start r = true

/-- Among the first `n` rows, those that count are the session of login `i` and rows of `rows`. -/
structure Cover (i n : ℕ) (rows : List Session) (s : State) : Prop where
  length : n ≤ s.tuples.length
  own : ∃ r ∈ s.tuples.take n, r.oidcId = ids i
  rest : ∀ r ∈ s.tuples.take n, r.accountId = accountId → r.unexpired s.now = true →
    s.dead r.oidcId = false → r.oidcId = ids i ∨ r ∈ rows

/-- What login `i` knows while it scans `rows` of a snapshot with `n` rows, `m` of them new. -/
structure Scanning (i n m : ℕ) (rows : List Session) (s : State) : Prop where
  own : Own ids start i s
  count : m ≤ s.tuples.countP (isNew start)
  mem : ∀ r ∈ rows, r ∈ s.tuples
  cover : strict → Cover ids accountId i n rows s

/-- What a login has brought about. -/
structure Enforced (i : ℕ) (s : State) : Prop where
  own : Own ids start i s
  cover : strict → ∃ n rows, rows.length ≤ limit - 1 ∧ Cover ids accountId i n rows s

/-- The contract of the logins: no other login uses the identifier of a session. -/
def contract : Contract State where
  inv := Inv ids limit start before
  rely j s s' := Extends s s' ∧
    ∀ i, j = some i → ∀ r ∈ s'.tuples, r.oidcId = ids i → r ∈ s.tuples
  start i s := ∀ r ∈ s.tuples, r.oidcId ≠ ids i

variable {ids accountId limit start before strict}

/-! ## What stays true -/

variable {s s' : State}

theorem Own.extends (h : Own ids start i s) (hs : Extends s s') : Own ids start i s' := by
  obtain ⟨r, hr, hown⟩ := h
  exact ⟨r, hs.tuples.subset hr, hown⟩

/-- A cover survives an extension of the state. -/
theorem Cover.extends {n : ℕ} {rows : List Session} (h : Cover ids accountId i n rows s)
    (hs : Extends s s') : Cover ids accountId i n rows s' := by
  obtain ⟨added, htuples⟩ := hs.tuples
  have htake : s'.tuples.take n = s.tuples.take n := by
    rw [← htuples, List.take_append_of_le_length h.length]
  refine ⟨h.length.trans hs.tuples.length_le, htake ▸ h.own, fun r hr hacc hexp halive => ?_⟩
  rw [htake] at hr
  refine h.rest r hr hacc (Session.unexpired_mono hs.now hexp) ?_
  by_contra hdead
  rw [Bool.not_eq_false] at hdead
  rw [hs.dead _ hdead] at halive
  exact absurd halive (by simp)

theorem Scanning.extends {n m : ℕ} {rows : List Session}
    (h : Scanning ids accountId start strict i n m rows s) (hs : Extends s s') :
    Scanning ids accountId start strict i n m rows s' :=
  ⟨h.own.extends hs, h.count.trans (hs.tuples.sublist.countP_le),
    fun r hr => hs.tuples.subset (h.mem r hr), fun hstrict => (h.cover hstrict).extends hs⟩

theorem Enforced.extends (h : Enforced ids accountId limit start strict i s) (hs : Extends s s') :
    Enforced ids accountId limit start strict i s' := by
  refine ⟨h.own.extends hs, fun hstrict => ?_⟩
  obtain ⟨n, rows, hlength, hcover⟩ := h.cover hstrict
  exact ⟨n, rows, hlength, hcover.extends hs⟩

/-- An assertion that survives the passing of time is stable. -/
theorem stable_of_extends {P : State → Prop} (h : ∀ s s', P s → Extends s s' → P s') :
    (contract ids limit start before).Stable i P :=
  fun s s' _ _ hP hr => h s s' hP hr.1

/-- The identifier of a login that has not begun stays unused. -/
theorem start_stable (i : ℕ) :
    (contract ids limit start before).Stable i ((contract ids limit start before).start i) :=
  fun _ _ _ _ h hr r hmem hid => h r (hr.2 i rfl r hmem hid) hid

/-- The rule for a statement. -/
theorem perform_ok {α : Type} [Inhabited α] {l : Label} {f : State → State} {g : State → α}
    {P : State → Prop} {post : α → State → Prop}
    (hpost : ∀ a, (contract ids limit start before).Stable i (post a))
    (h : ∀ s, Inv ids limit start before s → P s → C l s →
      Inv ids limit start before (f s) ∧ Extends s (f s) ∧
        (∀ r ∈ (f s).tuples, r ∈ s.tuples ∨ r.oidcId = ids i) ∧ post (g s) (f s))
    (hids : Function.Injective ids) :
    (contract ids limit start before).Ok C i post (Proc.perform l f g) P := by
  refine Contract.Ok.perform hpost fun s hi hP hC => ?_
  obtain ⟨hinv, hext, hrows, hq⟩ := h s hi hP hC
  refine ⟨hinv, fun j hj => ⟨hext, ?_⟩, hq⟩
  rintro i' rfl r hr hid
  rcases hrows r hr with hold | hown
  · exact hold
  · exact absurd (congrArg some (hids (hid.symm.trans hown))) hj

/-- A statement that leaves the rows as they are keeps the invariant. -/
theorem Inv.same (h : Inv ids limit start before s) (htuples : s'.tuples = s.tuples)
    (hdead : s'.dead = s.dead) (hnow : s.now ≤ s'.now) : Inv ids limit start before s' := by
  refine ⟨htuples ▸ h.nodup, h.clock.trans hnow, htuples ▸ h.added, htuples ▸ h.login, ?_, ?_⟩
  · rw [htuples, hdead]
    exact h.gone
  · rw [htuples, hdead]
    exact h.kept

/-- Such a statement is one that time allows. -/
theorem Extends.same (htuples : s'.tuples = s.tuples) (hdead : s'.dead = s.dead)
    (hnow : s.now ≤ s'.now) : Extends s s' :=
  ⟨htuples ▸ List.prefix_refl _, fun _ hx => hdead ▸ hx, hnow⟩

/-! ## The scan -/

/-- If what satisfies `p` comes first in a list, what satisfies it after the first `n` entries
has `n` such entries before it. -/
theorem lt_countP_of_mem_drop {α : Type} {p : α → Bool} {l : List α}
    (hl : l.Pairwise fun a b => p b = true → p a = true) {n : ℕ} {x : α} (hx : x ∈ l.drop n)
    (hp : p x = true) : n < l.countP p := by
  induction l generalizing n with
  | nil => simp at hx
  | cons a l ih =>
    obtain ⟨hhead, htail⟩ := List.pairwise_cons.mp hl
    have ha : p a = true ∨ x = a := by
      rcases List.mem_cons.mp (List.mem_of_mem_drop hx) with rfl | hmem
      · exact .inr rfl
      · exact .inl (hhead x hmem hp)
    have hpa : p a = true := ha.elim id fun h => h ▸ hp
    rw [List.countP_cons_of_pos hpa]
    cases n with
    | zero => omega
    | succ n => exact Nat.succ_lt_succ (ih htail hx)

/-- The candidates are active sessions of the account other than the new one. -/
theorem mem_candidates {own now : ℕ} :
    r ∈ s.candidates accountId (some own) now ↔
      r ∈ s.active accountId now ∧ r.oidcId ≠ own := by
  simp [State.candidates]

/-- New candidates come first. -/
theorem candidates_pairwise (own now : ℕ) (s : State) :
    (s.candidates accountId (some own) now).Pairwise
      fun a b => isNew start b = true → isNew start a = true := by
  refine (List.pairwise_insertionSort newestFirst _).imp fun {a b} hab hb => ?_
  simp only [isNew, decide_eq_true_eq] at hb ⊢
  unfold newestFirst at hab
  omega

/-- The session of the login itself is new and not a candidate. -/
theorem countP_candidates_lt {now : ℕ} (hown : Own ids start i s) :
    (s.candidates accountId (some (ids i)) now).countP (isNew start) <
      s.tuples.countP (isNew start) := by
  obtain ⟨r, hr, hid, hnew⟩ := hown
  have hperm := List.perm_insertionSort newestFirst
    ((s.active accountId now).filter fun r => (some (ids i)).all fun own => r.oidcId ≠ own)
  have hsub : ((s.active accountId now).filter
      fun r => (some (ids i)).all fun own => r.oidcId ≠ own).Sublist
        (s.tuples.filter fun r => r.oidcId ≠ ids i) := by
    simp only [Option.all_some]
    exact List.filter_sublist.filter _
  calc (s.candidates accountId (some (ids i)) now).countP (isNew start)
      ≤ (s.tuples.filter fun r => r.oidcId ≠ ids i).countP (isNew start) := by
        rw [State.candidates, hperm.countP_eq]
        exact hsub.countP_le
    _ < s.tuples.countP (isNew start) := by
        rw [List.countP_eq_countP_filter_add s.tuples (isNew start) fun r => r.oidcId ≠ ids i]
        have hpos : 0 < (s.tuples.filter fun r => !decide (r.oidcId ≠ ids i)).countP
            (isNew start) :=
          List.countP_pos_iff.mpr ⟨r, List.mem_filter.mpr ⟨hr, by simp [hid]⟩, hnew⟩
        omega

/-- Time passes before a statement. -/
theorem Inv.wait (h : Inv ids limit start before s) (d : ℕ) :
    Inv ids limit start before (s.wait d) ∧ Extends s (s.wait d) :=
  ⟨h.same rfl rfl (Nat.le_add_right _ _), .same rfl rfl (Nat.le_add_right _ _)⟩

variable {C : Label → State → Prop} {i n m : ℕ} (hids : Function.Injective ids)
include hids

/-- An attempt to lock a row: if it fails, the row is deleted, so that it does not count. -/
theorem lockRow_ok (hC : strict → ∀ x s, C (.lock i x) s → meetsNoLock (.lock i x) s = true)
    (r : Session) (done rest : List Session) :
    (contract ids limit start before).Ok C i
      (fun locked s => Scanning ids accountId start strict i n m
        (done ++ if locked then r :: rest else rest) s)
      (lockRow i r.oidcId) (Scanning ids accountId start strict i n m (done ++ r :: rest)) := by
  refine perform_ok (fun locked => stable_of_extends fun s s' h hs => h.extends hs)
    (fun s hi hs hc => ?_) hids
  by_cases hlock : s.lockable i r.oidcId = true
  · simp only [hlock, if_true]
    have hext : Extends s { s with locked := Function.update s.locked r.oidcId (some i) } :=
      .same rfl rfl le_rfl
    exact ⟨hi.same rfl rfl le_rfl, hext, fun x hx => .inl hx, hs.extends hext⟩
  · simp only [hlock, if_false, Bool.false_eq_true]
    refine ⟨hi, .same rfl rfl le_rfl, fun x hx => .inl hx, ?_⟩
    refine ⟨hs.own, hs.count, fun x hx => hs.mem x ?_, fun hstrict => ?_⟩
    · simp only [List.mem_append, List.mem_cons] at hx ⊢
      tauto
    · have hdead : s.dead r.oidcId = true := by
        have hmeets := hC hstrict _ _ hc
        simpa [meetsNoLock, hlock] using hmeets
      obtain ⟨hlength, hown, hrest⟩ := hs.cover hstrict
      refine ⟨hlength, hown, fun x hx hacc hexp halive => ?_⟩
      rcases hrest x hx hacc hexp halive with hx | hx
      · exact .inl hx
      · have hne : x ≠ r := by
          rintro rfl
          rw [hdead] at halive
          simp at halive
        simp only [List.mem_append, List.mem_cons] at hx ⊢
        tauto

/-- The scan keeps the rows that count in what it has passed over and what it returns, and
returns rows after the first `offset` ones only. -/
theorem scan_ok (hC : strict → ∀ x s, C (.lock i x) s → meetsNoLock (.lock i x) s = true)
    (rows : List Session) (offset : ℕ) (passed victims : List Session)
    (hold : m ≤ limit → ∀ r ∈ victims ++ rows.drop offset, isNew start r = false) :
    (contract ids limit start before).Ok C i
      (fun result s => ∃ passed', (passed'.length ≤ passed.length + offset ∧
          (m ≤ limit → ∀ r ∈ result, isNew start r = false)) ∧
        Scanning ids accountId start strict i n m (passed' ++ result) s)
      (scan i offset victims rows)
      (Scanning ids accountId start strict i n m (passed ++ victims ++ rows)) := by
  induction rows generalizing offset passed victims with
  | nil =>
    intro s _ hs
    rw [List.append_nil] at hs
    exact ⟨passed, ⟨by omega, by simpa using hold⟩, hs⟩
  | cons r rest ih =>
    refine Contract.Ok.bind (lockRow_ok hids hC r (passed ++ victims) rest) fun locked => ?_
    cases locked with
    | false =>
      refine ih offset passed victims fun hm x hx => hold hm x ?_
      rw [List.mem_append] at hx ⊢
      refine hx.imp id fun hx => ?_
      rw [← List.drop_succ_cons (a := r)] at hx
      exact (List.drop_sublist_drop_left _ (Nat.le_succ offset)).subset hx
    | true =>
      cases offset with
      | zero =>
        refine (ih 0 passed (victims ++ [r]) fun hm x hx => hold hm x ?_).pre fun s _ hs => ?_
        · simpa using hx
        · simpa using hs
      | succ offset =>
        refine ((ih offset (passed ++ [r]) victims hold).post fun result s _ h => ?_).pre
          fun s _ hs => ?_
        · obtain ⟨passed', ⟨hlength, hresult⟩, hs⟩ := h
          refine ⟨passed', ⟨?_, hresult⟩, hs⟩
          simp only [List.length_append, List.length_singleton] at hlength
          omega
        · have hmem : ∀ x, x ∈ passed ++ [r] ++ victims ++ rest ↔
              x ∈ passed ++ victims ++ r :: rest := by
            intro x
            simp only [List.mem_append, List.mem_cons, List.not_mem_nil]
            tauto
          refine ⟨hs.own, hs.count, fun x hx => hs.mem x ((hmem x).mp hx), fun hstrict => ?_⟩
          obtain ⟨hlength, hown, hrest⟩ := hs.cover hstrict
          exact ⟨hlength, hown, fun x hx hacc hexp halive =>
            (hrest x hx hacc hexp halive).imp id (hmem x).mpr⟩

/-! ## A login -/

variable (strict) in
/-- The start of the claim: the snapshot holds every row that counts, and its first `limit - 1`
rows all the new ones if there are no more than `limit` logins. -/
theorem candidates_ok (hlimit : 0 < limit) (d : ℕ) :
    (contract ids limit start before).Ok C i
      (fun rows s => ∃ n m, (m ≤ limit → ∀ r ∈ rows.drop (limit - 1), isNew start r = false) ∧
        Scanning ids accountId start strict i n m rows s)
      (Proc.perform .step (State.wait d) fun s => s.candidates accountId (some (ids i)) (s.now + d))
      (Own ids start i) := by
  refine perform_ok (fun rows => stable_of_extends ?_) (fun s hi hown _ => ?_) hids
  · rintro s s' ⟨n, m, hold, hs⟩ hext
    exact ⟨n, m, hold, hs.extends hext⟩
  obtain ⟨hwait, hext⟩ := Inv.wait hi d
  refine ⟨hwait, hext, fun r hr => .inl hr, s.tuples.length,
    s.tuples.countP (isNew start), fun hm r hr => ?_, hown.extends hext, le_rfl, ?_, fun _ => ?_⟩
  · by_contra hnew
    rw [Bool.not_eq_false] at hnew
    have hdrop := lt_countP_of_mem_drop (candidates_pairwise (ids i) (s.now + d) s) hr hnew
    have hcount : (s.candidates accountId (some (ids i)) (s.now + d)).countP (isNew start) <
        s.tuples.countP (isNew start) := countP_candidates_lt hown
    omega
  · intro r hr
    exact List.mem_of_mem_filter (mem_candidates.mp hr).1
  · have htake : (s.wait d).tuples.take s.tuples.length = s.tuples := List.take_length
    refine ⟨le_rfl, ?_, fun r hr hacc hexp halive => ?_⟩
    · obtain ⟨r, hr, hid, -⟩ := hown
      exact ⟨r, htake.symm ▸ hr, hid⟩
    · rw [htake] at hr
      by_cases hid : r.oidcId = ids i
      · exact .inl hid
      · refine .inr (mem_candidates.mpr ⟨List.mem_filter.mpr ⟨hr, ?_⟩, hid⟩)
        have halive' : s.dead r.oidcId = false := halive
        have hexp' : r.unexpired (s.now + d) = true := hexp
        simp [halive', hacc, hexp']

/-- The end of the claim: the victims are deleted, and no new one among them unless there are more
than `limit` logins. -/
theorem delete_ok {passed victims : List Session} (hlength : passed.length ≤ limit - 1)
    (hold : m ≤ limit → ∀ r ∈ victims, isNew start r = false) :
    (contract ids limit start before).Ok C i
      (fun _ => Enforced ids accountId limit start strict i)
      (Proc.perform .step (State.delete i victims) fun _ => ())
      (Scanning ids accountId start strict i n m (passed ++ victims)) := by
  refine perform_ok (fun _ => stable_of_extends fun s s' h hs => h.extends hs)
    (fun s hi hs _ => ?_) hids
  have hext : Extends s (s.delete i victims) :=
    ⟨List.prefix_refl _, fun x hx => by simp [State.delete, hx], le_rfl⟩
  refine ⟨⟨hi.nodup, hi.clock, hi.added, hi.login, fun x hx => ?_, fun hcount r hr hnew => ?_⟩,
    hext, fun r hr => .inl hr, hs.own.extends hext, fun hstrict => ?_⟩
  · have hx' : s.dead x = true ∨ ∃ v ∈ victims, v.oidcId = x := by
      simpa [State.delete] using hx
    rcases hx' with hdead | ⟨v, hv, hid⟩
    · exact hi.gone x hdead
    · exact ⟨v, hs.mem v (List.mem_append_right _ hv), hid⟩
  · have halive := hi.kept hcount r hr hnew
    have hvictim : ∀ v ∈ victims, v.oidcId ≠ r.oidcId := by
      intro v hv hid
      have hmem := hs.mem v (List.mem_append_right _ hv)
      obtain rfl := List.inj_on_of_nodup_map hi.nodup hmem hr hid
      rw [hold (hs.count.trans hcount) v hv] at hnew
      simp at hnew
    simpa [State.delete, halive] using hvictim
  · obtain ⟨hn, hown, hrest⟩ := hs.cover hstrict
    refine ⟨n, passed, hlength, hn, hown, fun r hr hacc hexp halive => ?_⟩
    have hboth : s.dead r.oidcId = false ∧ ∀ v ∈ victims, v.oidcId ≠ r.oidcId := by
      simpa [State.delete] using halive
    rcases hrest r hr hacc hexp hboth.1 with hid | hmem
    · exact .inl hid
    · rcases List.mem_append.mp hmem with hpassed | hvictim
      · exact .inr hpassed
      · exact absurd rfl (hboth.2 r hvictim)

/-- The session of a login is persisted. -/
theorem persist_ok (hcreated : start ≤ r.createdAt) (hid : r.oidcId = ids i) :
    (contract ids limit start before).Ok C i (fun _ => Own ids start i) (persist r)
      ((contract ids limit start before).start i) := by
  refine perform_ok (fun _ => stable_of_extends fun s s' h hs => h.extends hs)
    (fun s hi hs _ => ?_) hids
  have hnew : isNew start r = true := decide_eq_true hcreated
  have hunused : ∀ x ∈ s.tuples, x.oidcId ≠ r.oidcId := hid ▸ hs
  have halive : s.dead r.oidcId = false := by
    by_contra hdead
    rw [Bool.not_eq_false] at hdead
    obtain ⟨x, hx, hxid⟩ := hi.gone _ hdead
    exact hunused x hx hxid
  refine ⟨⟨?_, hi.clock, ?_, ?_, ?_, ?_⟩, ⟨List.prefix_append _ _, fun _ hx => hx, le_rfl⟩, ?_,
    r, List.mem_append_right _ (List.mem_singleton.mpr rfl), hid, hnew⟩
  · rw [List.map_append, List.nodup_append]
    refine ⟨hi.nodup, List.nodup_singleton _, fun x hx y hy => ?_⟩
    obtain ⟨z, hz, rfl⟩ := List.mem_map.mp hx
    rw [List.map_singleton, List.mem_singleton] at hy
    exact hy ▸ hunused z hz
  · obtain ⟨new, htuples, hall⟩ := hi.added
    refine ⟨new ++ [r], by rw [htuples, List.append_assoc], fun x hx => ?_⟩
    rcases List.mem_append.mp hx with hx | hx
    · exact hall x hx
    · exact List.mem_singleton.mp hx ▸ hnew
  · intro x hx hxnew
    rcases List.mem_append.mp hx with hx | hx
    · exact hi.login x hx hxnew
    · exact ⟨i, List.mem_singleton.mp hx ▸ hid⟩
  · intro x hx
    obtain ⟨y, hy, hyid⟩ := hi.gone x hx
    exact ⟨y, List.mem_append_left _ hy, hyid⟩
  · intro hcount x hx hxnew
    rcases List.mem_append.mp hx with hx | hx
    · refine hi.kept (le_trans ?_ hcount) x hx hxnew
      exact (List.sublist_append_left _ _).countP_le
    · exact List.mem_singleton.mp hx ▸ halive
  · intro x hx
    rcases List.mem_append.mp hx with hx | hx
    · exact .inl hx
    · exact .inr (List.mem_singleton.mp hx ▸ hid)

/-- `enforce`, for a login that has persisted its session. -/
theorem enforce_ok (hlimit : 0 < limit)
    (hC : strict → ∀ x s, C (.lock i x) s → meetsNoLock (.lock i x) s = true) (r : Request) :
    (contract ids limit start before).Ok C i
      (fun _ => Enforced ids accountId limit start strict i)
      (enforce i accountId limit (some (ids i)) r) (Own ids start i) := by
  have hcount : (contract ids limit start before).Ok C i (fun _ => Own ids start i)
      (countActiveSessions r.beforeCount accountId) (Own ids start i) := by
    refine perform_ok (fun _ => stable_of_extends fun s s' h hs => h.extends hs)
      (fun s hi hown _ => ?_) hids
    obtain ⟨hwait, hext⟩ := Inv.wait hi r.beforeCount
    exact ⟨hwait, hext, fun x hx => .inl hx, hown.extends hext⟩
  unfold enforce
  rw [if_neg (by omega)]
  refine hcount.bind fun prior => Contract.Ok.bind ?_ fun evicted => fun s _ h => h
  refine (candidates_ok strict hids hlimit r.beforeClaim).bind fun rows => .exists fun n =>
    .exists fun m => .assume fun hold => ?_
  refine Contract.Ok.bind (scan_ok hids hC rows (limit - 1) [] [] hold) fun victims =>
    .exists fun passed => .assume fun h => ?_
  refine Contract.Ok.bind (delete_ok hids ?_ h.2) fun _ s _ hs => hs
  simpa using h.1

/-- A login, under an identifier that is not in use. -/
theorem login_ok (hlimit : 0 < limit)
    (hC : strict → ∀ x s, C (.lock i x) s → meetsNoLock (.lock i x) s = true) (r : Request) :
    (contract ids limit start before).Ok C i
      (fun _ => Enforced ids accountId limit start strict i)
      (login ids accountId limit i r) ((contract ids limit start before).start i) := by
  have hbegin : (contract ids limit start before).Ok C i
      (fun createdAt s => start ≤ createdAt ∧ (contract ids limit start before).start i s)
      (beginStatement r.beforePersist) ((contract ids limit start before).start i) := by
    refine perform_ok (fun createdAt => (Contract.Stable.const _).and (start_stable i))
      (fun s hi hs _ => ?_) hids
    obtain ⟨hwait, hext⟩ := Inv.wait hi r.beforePersist
    exact ⟨hwait, hext, fun x hx => .inl hx, hi.clock.trans (Nat.le_add_right _ _), hs⟩
  refine hbegin.bind fun createdAt => .assume fun hcreated => ?_
  exact (persist_ok hids hcreated rfl).bind fun _ => enforce_ok hids hlimit hC r

/-- The logins follow their contract. -/
theorem logins_follow (hlimit : 0 < limit)
    (hC : strict → ∀ i x s, C (.lock i x) s → meetsNoLock (.lock i x) s = true) :
    Contract.FollowsTo (logins ids accountId limit) (contract ids limit start before) C
      (Enforced ids accountId limit start strict) where
  start := start_stable
  prog r i := (login_ok hids hlimit (fun h => hC h i) r).bind fun _ _ _ hs => hs
  crash g hg := by simp [logins] at hg
  crashed g hg := by simp [logins] at hg

end Contract

/-! ## Whole runs -/

/-- A table between two logins, the next of which is login `i`: the sessions have distinct
identifiers, none of them one that is still to be generated, and nothing is locked. -/
structure Ready (ids : ℕ → ℕ) (i : ℕ) (s : State) : Prop where
  nodup : (s.tuples.map Session.oidcId).Nodup
  unused : ∀ r ∈ s.tuples, ∀ j, i ≤ j → r.oidcId ≠ ids j
  gone : ∀ x, s.dead x = true → ∃ r ∈ s.tuples, r.oidcId = x
  unlocked : ∀ x, s.locked x = none
  created : ∀ r ∈ s.tuples, r.createdAt ≤ s.now

/-- A table before the logins: what is there was created earlier. -/
structure Begins (ids : ℕ → ℕ) (s : State) : Prop extends Ready ids 0 s where
  earlier : ∀ r ∈ s.tuples, r.createdAt < s.now

section Runs

variable {ids : ℕ → ℕ} {accountId limit : ℕ} {s₀ : State} {c : Config State Label}

/-- The invariant holds before the logins. -/
theorem Begins.inv (h : Begins ids s₀) : Inv ids limit s₀.now s₀.tuples s₀ := by
  have hold : ∀ r ∈ s₀.tuples, isNew s₀.now r ≠ true := by
    intro r hr hnew
    have hcreated := h.earlier r hr
    simp only [isNew, decide_eq_true_eq] at hnew
    omega
  exact ⟨h.nodup, le_rfl, ⟨[], by simp, by simp⟩, fun r hr hnew => absurd hnew (hold r hr),
    h.gone, fun _ r hr hnew => absurd hnew (hold r hr)⟩

/-- What the logins of a run keep to. -/
theorem run_good (strict : Prop) (hids : Function.Injective ids) (hlimit : 0 < limit)
    (hC : strict → ∀ i x s, C (.lock i x) s → meetsNoLock (.lock i x) s = true) (h₀ : Begins ids s₀)
    (hc : Reach (logins ids accountId limit) C s₀ c) :
    (contract ids limit s₀.now s₀.tuples).Good C
      (Enforced ids accountId limit s₀.now strict) c :=
  Contract.soundTo (logins_follow hids hlimit hC) h₀.inv
    (fun i r hr => h₀.unused r hr i (Nat.zero_le i)) hc

/-- What a login has brought about holds once all of them have returned. -/
theorem enforced_of_returned {strict : Prop} (hgood : (contract ids limit s₀.now s₀.tuples).Good C
      (Enforced ids accountId limit s₀.now strict) c) (hreturned : c.Returned)
    (hi : i < c.procs.length) : Enforced ids accountId limit s₀.now strict i c.state := by
  obtain ⟨P, hP, -, hok⟩ := hgood.procs i _ (hreturned.getElem? hi)
  exact hok c.state hgood.inv hP

/-- A new session is that of a login that has begun. -/
theorem exists_login {strict : Prop} (hgood : (contract ids limit s₀.now s₀.tuples).Good C
      (Enforced ids accountId limit s₀.now strict) c) (hr : r ∈ c.state.tuples)
    (hnew : isNew s₀.now r = true) : ∃ i < c.procs.length, r.oidcId = ids i := by
  obtain ⟨i, hid⟩ := hgood.inv.login r hr hnew
  refine ⟨i, ?_, hid⟩
  by_contra hlt
  exact hgood.start i (by omega) r hr hid

/-- **The cap.**  The login whose session was inserted last sees every other session in its
snapshot, and leaves `limit - 1` of them. -/
theorem within_limit (hids : Function.Injective ids) (hlimit : 0 < limit) (h₀ : Begins ids s₀)
    (hc : Reach (logins ids accountId limit) (fun l s => meetsNoLock l s = true) s₀ c)
    (hreturned : c.Returned) (hsome : c.procs ≠ []) :
    (c.state.active accountId c.state.now).length ≤ limit := by
  have hgood := run_good True hids hlimit (fun _ _ _ _ h => h) h₀ hc
  obtain ⟨new, htuples, hall⟩ := hgood.inv.added
  -- there is a new row, since the first login has inserted one
  have hne : new ≠ [] := by
    rintro rfl
    obtain ⟨r, hr, hid, -⟩ :=
      (enforced_of_returned hgood hreturned (List.length_pos_of_ne_nil hsome)).own
    rw [htuples, List.append_nil] at hr
    exact h₀.unused r hr 0 le_rfl hid
  set last := new.getLast hne
  have hlast : c.state.tuples = (s₀.tuples ++ new.dropLast) ++ [last] := by
    rw [htuples, List.append_assoc, List.dropLast_append_getLast hne]
  have hmem : last ∈ c.state.tuples := by simp [hlast]
  obtain ⟨i, hi, hid⟩ := exists_login hgood hmem (hall _ (List.getLast_mem hne))
  obtain ⟨n, rows, hlength, hcover⟩ :=
    (enforced_of_returned hgood hreturned hi).cover trivial
  -- the snapshot of that login holds all rows
  have hn : c.state.tuples.length ≤ n := by
    by_contra hlt
    obtain ⟨r, hr, hrid⟩ := hcover.own
    have hr' := hr
    rw [hlast, List.take_append_of_le_length (by simp [hlast] at hlt ⊢; omega)] at hr'
    have hnodup := hgood.inv.nodup
    rw [hlast, List.map_append, List.nodup_append] at hnodup
    exact hnodup.2.2 _ (List.mem_map_of_mem (List.mem_of_mem_take hr')) _ (by simp)
      (hrid.trans hid.symm)
  have hsubset : c.state.active accountId c.state.now ⊆ last :: rows := by
    intro r hr
    obtain ⟨hr, hcounts⟩ := List.mem_filter.mp hr
    simp only [Bool.and_eq_true, Bool.not_eq_true', decide_eq_true_eq] at hcounts
    have htake : r ∈ c.state.tuples.take n := by rwa [List.take_of_length_le hn]
    rcases hcover.rest r htake hcounts.1.2 hcounts.2 hcounts.1.1 with hown | hrow
    · exact List.mem_cons.mpr
        (.inl (List.inj_on_of_nodup_map hgood.inv.nodup hr hmem (hown.trans hid.symm)))
    · exact List.mem_cons_of_mem _ hrow
  have hnodup : (c.state.active accountId c.state.now).Nodup :=
    (List.Nodup.of_map _ hgood.inv.nodup).filter _
  have hle := (hnodup.subperm hsubset).length_le
  simp only [List.length_cons] at hle
  omega

/-- **New sessions survive.**  At most `limit` logins all keep their sessions. -/
theorem new_sessions_survive (hids : Function.Injective ids) (hlimit : 0 < limit)
    (h₀ : Begins ids s₀) (hc : Reach (logins ids accountId limit) Always s₀ c)
    (hreturned : c.Returned) (hk : c.procs.length ≤ limit) (hi : i < c.procs.length) :
    ∃ r ∈ c.state.tuples, r.oidcId = ids i ∧ c.state.dead r.oidcId = false := by
  have hgood := run_good False hids hlimit (fun h => h.elim) h₀ hc
  obtain ⟨r, hr, hid, hnew⟩ := (enforced_of_returned hgood hreturned hi).own
  refine ⟨r, hr, hid, hgood.inv.kept (le_trans ?_ hk) r hr hnew⟩
  -- the new rows have distinct identifiers among those of the logins
  rw [List.countP_eq_length_filter]
  have hsubset : ((c.state.tuples.filter (isNew s₀.now)).map Session.oidcId) ⊆
      (List.range c.procs.length).map ids := by
    intro x hx
    obtain ⟨y, hy, rfl⟩ := List.mem_map.mp hx
    obtain ⟨hmem, hynew⟩ := List.mem_filter.mp hy
    obtain ⟨j, hj, hyid⟩ := exists_login hgood hmem hynew
    exact List.mem_map.mpr ⟨j, List.mem_range.mpr hj, hyid.symm⟩
  have hnodup : ((c.state.tuples.filter (isNew s₀.now)).map Session.oidcId).Nodup :=
    hgood.inv.nodup.sublist (List.filter_sublist.map _)
  simpa using (hnodup.subperm hsubset).length_le

end Runs

/-! ## Logins one after another -/

/-- What a login alone does: with its own session `own`, it keeps the `limit - 1` newest of the
other active sessions and deletes the rest. -/
structure EvictsOldest (accountId limit : ℕ) (s s' : State) (own : Session)
    (kept evicted : List Session) : Prop where
  tuples : s'.tuples = s.tuples ++ [own]
  account : own.accountId = accountId
  survives : s'.dead own.oidcId = false
  others : (kept ++ evicted).Perm (s.active accountId s'.now)
  size : kept.length = min (limit - 1) (s.active accountId s'.now).length
  oldest : ∀ e ∈ evicted, ∀ r ∈ own :: kept, e.createdAt ≤ r.createdAt
  deleted : ∀ r ∈ s.tuples, s'.dead r.oidcId = true ↔ s.dead r.oidcId = true ∨ r ∈ evicted

/-- The logins `rs`, each alone, the first of them being login `i`. -/
def runLogins (ids : ℕ → ℕ) (accountId limit : ℕ) : State → ℕ → List Request → Option State
  | s, _, [] => some s
  | s, i, r :: rs => do
    let (s', _) ← (login ids accountId limit i r).runAlone s
    runLogins ids accountId limit s' (i + 1) rs

section Alone

variable {ids : ℕ → ℕ} {accountId limit i : ℕ} {s : State}

/-- A scan of rows that can all be locked returns those after the first `offset` ones, and changes
nothing but locks. -/
theorem runAlone_scan (rows : List Session) (offset : ℕ) (victims : List Session)
    (hrows : ∀ r ∈ rows, s.lockable i r.oidcId = true) :
    ∃ locked, (scan i offset victims rows).runAlone s =
        some ({ s with locked }, victims ++ rows.drop offset) ∧
      ∀ x, locked x = s.locked x ∨ locked x = some i := by
  induction rows generalizing s offset victims with
  | nil =>
    refine ⟨s.locked, ?_, fun x => .inl rfl⟩
    rw [List.drop_nil, List.append_nil]
    rfl
  | cons r rest ih =>
    have hr := hrows r List.mem_cons_self
    set s₁ : State := { s with locked := Function.update s.locked r.oidcId (some i) } with hs₁
    have hrest : ∀ x ∈ rest, s₁.lockable i x.oidcId = true := by
      intro x hx
      have hlock := hrows x (List.mem_cons_of_mem _ hx)
      by_cases hid : x.oidcId = r.oidcId
      · rw [State.lockable, Bool.and_eq_true] at hlock
        simp [State.lockable, hs₁, hid, hid ▸ hlock.1]
      · simpa [State.lockable, hs₁, Function.update_of_ne hid] using hlock
    have hfirst : (lockRow i r.oidcId).runAlone s = some (s₁, true) := by
      rw [lockRow, Proc.runAlone_perform, if_pos hr, hr]
    have hlocked : ∀ x, s₁.locked x = s.locked x ∨ s₁.locked x = some i := by
      intro x
      by_cases hid : x = r.oidcId
      · exact .inr (by rw [hs₁, hid]; exact Function.update_self _ _ _)
      · exact .inl (Function.update_of_ne hid _ _)
    have hcombine : ∀ locked : ℕ → Option ℕ, (∀ x, locked x = s₁.locked x ∨ locked x = some i) →
        ∀ x, locked x = s.locked x ∨ locked x = some i := by
      intro locked h x
      rcases h x with hx | hx
      · exact (hlocked x).imp hx.trans hx.trans
      · exact .inr hx
    cases offset with
    | zero =>
      obtain ⟨locked, hrun, h⟩ := ih (s := s₁) 0 (victims ++ [r]) hrest
      refine ⟨locked, ?_, hcombine locked h⟩
      rw [scan, Proc.runAlone_bind, hfirst]
      simpa using hrun
    | succ offset =>
      obtain ⟨locked, hrun, h⟩ := ih (s := s₁) offset victims hrest
      refine ⟨locked, ?_, hcombine locked h⟩
      rw [scan, Proc.runAlone_bind, hfirst]
      simpa using hrun

/-! ### One login -/

/-- The session that login `i` persists. -/
def Request.session (ids : ℕ → ℕ) (accountId i : ℕ) (s : State) (r : Request) : Session :=
  ⟨ids i, accountId, s.now + r.beforePersist, r.expiresAt⟩

/-- The table when the claim of a login alone begins. -/
def Request.persisted (ids : ℕ → ℕ) (accountId i : ℕ) (s : State) (r : Request) : State :=
  { s with
    tuples := s.tuples ++ [r.session ids accountId i s]
    now := s.now + r.beforePersist + r.beforeCount + r.beforeClaim }

/-- What a login alone may evict is what was active before it. -/
theorem persisted_others (h : Ready ids i s) (r : Request) (now : ℕ) :
    ((r.persisted ids accountId i s).active accountId now).filter (fun x => x.oidcId ≠ ids i) =
      s.active accountId now := by
  have hown : ([r.session ids accountId i s].filter fun x => !s.dead x.oidcId &&
      x.accountId = accountId && x.unexpired now).filter (fun x => x.oidcId ≠ ids i) = [] := by
    rw [List.filter_eq_nil_iff]
    intro x hx
    have hx' := List.mem_singleton.mp (List.mem_of_mem_filter hx)
    simp [hx', Request.session]
  have hothers : (s.active accountId now).filter (fun x => x.oidcId ≠ ids i) =
      s.active accountId now := by
    rw [List.filter_eq_self]
    intro x hx
    simpa using h.unused x (List.mem_of_mem_filter hx) i le_rfl
  unfold State.active at hothers ⊢
  rw [Request.persisted, List.filter_append, List.filter_append, hown, List.append_nil]
  exact hothers

/-- What the claim of a login alone scans. -/
def Request.rows (ids : ℕ → ℕ) (accountId i : ℕ) (s : State) (r : Request) : List Session :=
  let s₁ := r.persisted ids accountId i s
  s₁.candidates accountId (some (ids i)) s₁.now

/-- The rows that are scanned are the sessions that were active before. -/
theorem rows_perm (h : Ready ids i s) (r : Request) :
    (r.rows ids accountId i s).Perm
      (s.active accountId (r.persisted ids accountId i s).now) := by
  rw [← persisted_others h r]
  simpa [Request.rows, State.candidates] using List.perm_insertionSort newestFirst _

theorem mem_of_mem_rows (h : Ready ids i s) {r : Request} {x : Session}
    (hx : x ∈ r.rows ids accountId i s) : x ∈ s.tuples :=
  List.mem_of_mem_filter ((rows_perm h r).subset hx)

/-- The table after a login alone, whatever locks its scan has left. -/
def Request.claimed (ids : ℕ → ℕ) (accountId limit i : ℕ) (s : State) (r : Request)
    (locked : ℕ → Option ℕ) : State :=
  State.delete i ((r.rows ids accountId i s).drop (limit - 1))
    { r.persisted ids accountId i s with locked }

/-- The statements of a login alone. -/
theorem runAlone_login (hlimit : 0 < limit) (h : Ready ids i s) (r : Request) :
    ∃ locked prior, (login ids accountId limit i r).runAlone s =
        some (r.claimed ids accountId limit i s locked,
          ⟨prior, ((r.rows ids accountId i s).drop (limit - 1)).length, limit⟩) ∧
      ∀ x, locked x = none ∨ locked x = some i := by
  have hlockable : ∀ x ∈ r.rows ids accountId i s,
      (r.persisted ids accountId i s).lockable i x.oidcId = true := by
    intro x hx
    have hactive := List.of_mem_filter ((rows_perm h r).subset hx)
    simp only [Bool.and_eq_true] at hactive
    have hunlocked : (r.persisted ids accountId i s).locked x.oidcId = none := h.unlocked _
    have halive : (!(r.persisted ids accountId i s).dead x.oidcId) = true := hactive.1.1
    rw [State.lockable, halive, hunlocked]
    rfl
  obtain ⟨locked, hscan, hlocks⟩ := runAlone_scan _ (limit - 1) [] hlockable
  have hpositive : limit ≠ 0 := by omega
  have hclaim : (claimSurplusSessions i r.beforeClaim accountId limit (some (ids i))).runAlone
      { s with
        tuples := s.tuples ++ [r.session ids accountId i s]
        now := s.now + r.beforePersist + r.beforeCount } =
      some (r.claimed ids accountId limit i s locked,
        (r.rows ids accountId i s).drop (limit - 1)) := by
    rw [claimSurplusSessions, Proc.runAlone_bind, Proc.runAlone_perform, Option.bind_some,
      Proc.runAlone_bind]
    have hscan' := hscan
    rw [List.nil_append] at hscan'
    change (Option.bind ((scan i (limit - 1) [] (r.rows ids accountId i s)).runAlone
      (r.persisted ids accountId i s)) _) = _
    rw [hscan', Option.bind_some, Proc.runAlone_bind, Proc.runAlone_perform]
    rfl
  refine ⟨locked, ((r.persisted ids accountId i s).active accountId
    (s.now + r.beforePersist + r.beforeCount)).length, ?_,
    fun x => (hlocks x).imp (fun hx => hx.trans (h.unlocked x)) id⟩
  rw [login, Proc.runAlone_bind, beginStatement, Proc.runAlone_perform, Option.bind_some,
    Proc.runAlone_bind, persist, Proc.runAlone_perform, Option.bind_some, enforce, if_neg hpositive,
    Proc.runAlone_bind, countActiveSessions, Proc.runAlone_perform, Option.bind_some,
    Proc.runAlone_bind]
  change Option.bind ((claimSurplusSessions i r.beforeClaim accountId limit
    (some (ids i))).runAlone
      { s with
        tuples := s.tuples ++ [r.session ids accountId i s]
        now := s.now + r.beforePersist + r.beforeCount }) _ = _
  rw [hclaim]
  rfl

/-- The identifier of a login that has not begun is not that of a deleted session. -/
theorem Ready.alive (h : Ready ids i s) : s.dead (ids i) = false := by
  by_contra hdead
  rw [Bool.not_eq_false] at hdead
  obtain ⟨x, hx, hid⟩ := h.gone _ hdead
  exact h.unused x hx i le_rfl hid

/-- A login alone evicts the oldest sessions. -/
theorem evictsOldest_claimed (h : Ready ids i s) (r : Request) (locked : ℕ → Option ℕ) :
    EvictsOldest accountId limit s (r.claimed ids accountId limit i s locked)
      (r.session ids accountId i s) ((r.rows ids accountId i s).take (limit - 1))
      ((r.rows ids accountId i s).drop (limit - 1)) where
  tuples := rfl
  account := rfl
  survives := by
    have hvictims : ∀ v ∈ (r.rows ids accountId i s).drop (limit - 1), v.oidcId ≠ ids i :=
      fun v hv => h.unused v (mem_of_mem_rows h (List.mem_of_mem_drop hv)) i le_rfl
    simpa [Request.claimed, State.delete, Request.session, Request.persisted, h.alive]
      using hvictims
  others := by
    rw [List.take_append_drop]
    exact rows_perm h r
  size := by
    rw [List.length_take, (rows_perm h r).length_eq]
    rfl
  oldest := by
    intro e he x hx
    rcases List.mem_cons.mp hx with rfl | hx
    · have hcreated := h.created e (mem_of_mem_rows h (List.mem_of_mem_drop he))
      exact hcreated.trans (Nat.le_add_right _ _)
    · have hsorted : (r.rows ids accountId i s).Pairwise newestFirst :=
        List.pairwise_insertionSort newestFirst _
      rw [← List.take_append_drop (limit - 1) (r.rows ids accountId i s)] at hsorted
      have hnewer := (List.pairwise_append.mp hsorted).2.2 x hx e he
      unfold newestFirst at hnewer
      omega
  deleted := by
    intro x hx
    have hid : (∃ v ∈ (r.rows ids accountId i s).drop (limit - 1), v.oidcId = x.oidcId) ↔
        x ∈ (r.rows ids accountId i s).drop (limit - 1) := by
      refine ⟨?_, fun hmem => ⟨x, hmem, rfl⟩⟩
      rintro ⟨v, hv, hvid⟩
      have hvs := mem_of_mem_rows h (List.mem_of_mem_drop hv)
      exact List.inj_on_of_nodup_map h.nodup hvs hx hvid ▸ hv
    rw [← hid]
    simp [Request.claimed, State.delete, Request.persisted]

/-- After a login alone the table is ready for the next one. -/
theorem ready_claimed (hids : Function.Injective ids) (h : Ready ids i s) (r : Request)
    {locked : ℕ → Option ℕ} (hlocked : ∀ x, locked x = none ∨ locked x = some i) :
    Ready ids (i + 1) (r.claimed ids accountId limit i s locked) where
  nodup := by
    change ((s.tuples ++ [r.session ids accountId i s]).map Session.oidcId).Nodup
    rw [List.map_append, List.nodup_append]
    refine ⟨h.nodup, List.nodup_singleton _, fun x hx y hy => ?_⟩
    obtain ⟨z, hz, rfl⟩ := List.mem_map.mp hx
    rw [List.map_singleton, List.mem_singleton] at hy
    exact hy ▸ h.unused z hz i le_rfl
  unused := by
    intro x hx j hj
    rcases List.mem_append.mp hx with hx | hx
    · exact h.unused x hx j (by omega)
    · rw [List.mem_singleton.mp hx]
      exact fun hid => absurd (hids hid) (by omega)
  gone := by
    intro x hx
    have hx' : s.dead x = true ∨
        ∃ v ∈ (r.rows ids accountId i s).drop (limit - 1), v.oidcId = x := by
      simpa [Request.claimed, State.delete, Request.persisted] using hx
    rcases hx' with hdead | ⟨v, hv, hid⟩
    · obtain ⟨y, hy, hyid⟩ := h.gone x hdead
      exact ⟨y, List.mem_append_left _ hy, hyid⟩
    · exact ⟨v, List.mem_append_left _ (mem_of_mem_rows h (List.mem_of_mem_drop hv)), hid⟩
  unlocked := by
    intro x
    change (if locked x = some i then none else locked x) = none
    rcases hlocked x with hx | hx
    · simp [hx]
    · simp [hx]
  created := by
    intro x hx
    have hnow : (r.claimed ids accountId limit i s locked).now =
        s.now + r.beforePersist + r.beforeCount + r.beforeClaim := rfl
    rw [hnow]
    rcases List.mem_append.mp hx with hx | hx
    · have hcreated := h.created x hx
      omega
    · rw [List.mem_singleton.mp hx]
      simp only [Request.session]
      omega

variable (accountId) in
/-- Logins one after another all return. -/
theorem runLogins_ready (hids : Function.Injective ids) (hlimit : 0 < limit) (rs : List Request)
    (h : Ready ids i s) :
    ∃ s', runLogins ids accountId limit s i rs = some s' ∧ Ready ids (i + rs.length) s' := by
  induction rs generalizing i s with
  | nil => exact ⟨s, rfl, h⟩
  | cons r rs ih =>
    obtain ⟨locked, prior, hrun, hlocked⟩ := runAlone_login hlimit h r
    obtain ⟨s', hrest, hready⟩ := ih (ready_claimed hids h r hlocked)
    refine ⟨s', ?_, ?_⟩
    · rw [runLogins, hrun]
      exact hrest
    · rw [List.length_cons, Nat.add_comm rs.length, ← Nat.add_assoc]
      exact hready

end Alone

/-! ## The limit -/

/-- **The limit on concurrent sessions.**  If no scan meets a locked row, then once all logins have
returned the account has at most `limit` active sessions.  In every run, at most `limit` logins all
keep their sessions.  Logins one after another each evict exactly the oldest. -/
theorem session_limit (ids : ℕ → ℕ) (hids : Function.Injective ids) (accountId limit : ℕ)
    (hlimit : 0 < limit) (s₀ : State) (h₀ : Begins ids s₀) :
    (∀ c, Reach (logins ids accountId limit) (fun l s => meetsNoLock l s = true) s₀ c →
      c.Returned → c.procs ≠ [] → (c.state.active accountId c.state.now).length ≤ limit) ∧
    (∀ c, Reach (logins ids accountId limit) Always s₀ c → c.Returned →
      c.procs.length ≤ limit → ∀ i < c.procs.length,
        ∃ r ∈ c.state.tuples, r.oidcId = ids i ∧ c.state.dead r.oidcId = false) ∧
    ∀ rs r, ∃ s s' result own kept evicted, runLogins ids accountId limit s₀ 0 rs = some s ∧
      (login ids accountId limit rs.length r).runAlone s = some (s', result) ∧
      own.oidcId = ids rs.length ∧ result.evictedSessionCount = evicted.length ∧
      EvictsOldest accountId limit s s' own kept evicted := by
  refine ⟨fun c hc hreturned hsome => within_limit hids hlimit h₀ hc hreturned hsome,
    fun c hc hreturned hk i hi => new_sessions_survive hids hlimit h₀ hc hreturned hk hi,
    fun rs r => ?_⟩
  obtain ⟨s, hrun, hready⟩ := runLogins_ready accountId hids hlimit rs h₀.toReady
  rw [Nat.zero_add] at hready
  obtain ⟨locked, prior, hlogin, -⟩ := runAlone_login hlimit hready r
  exact ⟨s, _, _, _, _, _, hrun, hlogin, rfl, rfl, evictsOldest_claimed hready r locked⟩

def twoSessions : State :=
  ⟨[⟨1, 7, 1, none⟩, ⟨2, 7, 2, none⟩], fun _ => false, fun _ => none, 10⟩

/-- The identifiers generated for the sessions of the logins. -/
def sampleIds (i : ℕ) : ℕ := i + 100

def sampleLogin : Request := ⟨none, 1, 1, 1⟩

theorem sampleIds_injective : Function.Injective sampleIds := fun _ _ => Nat.add_right_cancel

theorem twoSessions_begins : Begins sampleIds twoSessions where
  nodup := by decide
  unused := by
    intro r hr j _
    simp only [twoSessions, List.mem_cons, List.not_mem_nil, or_false] at hr
    rcases hr with rfl | rfl
    · simp only [sampleIds]
      omega
    · simp only [sampleIds]
      omega
  gone x hx := by simp [twoSessions] at hx
  unlocked _ := rfl
  created := by decide
  earlier := by decide

def twoInOrder : List (Move Request) :=
  [.spawn sampleLogin, .spawn sampleLogin] ++ List.replicate 7 (.run 0) ++
    List.replicate 7 (.run 1)

/-- The first login is about to delete when the second one runs. -/
def twoOverlapping : List (Move Request) :=
  [.spawn sampleLogin, .spawn sampleLogin] ++ List.replicate 6 (.run 0) ++
    List.replicate 8 (.run 1) ++ [.run 0]

/-- Two logins that do not overlap, with a limit of 2. -/
theorem session_limit_two :
    ∃ c, Reach (logins sampleIds 7 2) (fun l s => meetsNoLock l s = true) twoSessions c ∧
      c.Returned ∧ (c.state.active 7 c.state.now).length ≤ 2 := by
  have hresult : (((logins sampleIds 7 2).execIf meetsNoLock ⟨twoSessions, []⟩
      twoInOrder).map fun c => (c.procs.all Proc.hasReturned, c.procs.length)) =
        some (true, 2) := by
    decide +kernel
  obtain ⟨c, hexec, hpair⟩ := Option.map_eq_some_iff.mp hresult
  obtain ⟨hall, hlength⟩ := Prod.mk.inj hpair
  have hreach := reach_execIf hexec
  have hreturned := Config.returned_of_all hall
  have hsome : c.procs ≠ [] := List.ne_nil_of_length_pos (by omega)
  exact ⟨c, hreach, hreturned, (session_limit sampleIds sampleIds_injective 7 2 (by decide)
    twoSessions twoSessions_begins).1 c hreach hreturned hsome⟩

/-- **The limit exceeded.**  The second login comes after the first one's snapshot and finds the two
old sessions locked: the first deletes one of them, the second none. -/
theorem session_limit_exceeded :
    Begins sampleIds twoSessions ∧ ∃ c, Reach (logins sampleIds 7 2) Always twoSessions c ∧
      c.Returned ∧ (c.state.active 7 c.state.now).length = 3 := by
  have hresult : (((logins sampleIds 7 2).exec ⟨twoSessions, []⟩ twoOverlapping).map fun c =>
      (c.procs.all Proc.hasReturned, (c.state.active 7 c.state.now).length)) =
        some (true, 3) := by
    decide +kernel
  obtain ⟨c, hexec, hpair⟩ := Option.map_eq_some_iff.mp hresult
  obtain ⟨hall, hcount⟩ := Prod.mk.inj hpair
  exact ⟨twoSessions_begins, c, reach_exec hexec, Config.returned_of_all hall, hcount⟩

end DigitalTrust.SessionLimit
