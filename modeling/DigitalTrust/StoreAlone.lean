/-
# A program alone with the store

A library for programs over `Store.lean` that run with nobody else about and whose statements all
succeed.  `Alone i σ p Q` says that the program `p` of process `i`, started on `σ`, ends without
waiting and that its result and what it leaves satisfy `Q`.  There is one rule for each statement
and one for each way to put programs together.
-/
import DigitalTrust.Store

namespace ReadCommitted

open Interleaving

variable {K : Type} {V : K → Type} {E L ε α β : Type}

/-! ## What the program works on -/

/-- The keys in use, what is committed, and the program's own transaction. -/
structure Solo (K : Type) (V : K → Type) (E : Type) where
  keys : List K
  pub : Pub K V E
  tx : Tx K V E

namespace Solo

/-- The row under a key, as the transaction sees it. -/
def row (σ : Solo K V E) (k : K) : Option (V k) := (σ.tx.writes k).getD (σ.pub.row k)

/-- What a statement of the transaction reads. -/
def view (σ : Solo K V E) : Snapshot K V := ⟨σ.keys, σ.row⟩

/-- What a statement outside any transaction reads. -/
def now (σ : Solo K V E) : Snapshot K V := ⟨σ.keys, σ.pub.row⟩

def write [DecidableEq K] (σ : Solo K V E) (k : K) (w : Option (V k)) : Solo K V E :=
  { σ with tx := σ.tx.write k w }

def push (σ : Solo K V E) (e : E) : Solo K V E := { σ with tx := σ.tx.push e }

def addKey (σ : Solo K V E) (k : K) : Solo K V E := { σ with keys := σ.keys ++ [k] }

def commit (i : ℕ) (σ : Solo K V E) : Solo K V E :=
  { σ with pub := σ.pub.commit i σ.tx, tx := Tx.empty }

def rollback (σ : Solo K V E) : Solo K V E := { σ with tx := Tx.empty }

/-- Record a call to the outside world. -/
def record (i : ℕ) (e : E) (σ : Solo K V E) : Solo K V E :=
  { σ with pub := σ.pub.commit i (Tx.empty.push e) }

/-- No transaction is open. -/
def Idle (σ : Solo K V E) : Prop := σ.tx = Tx.empty

/-- A store in which process `i` is alone. -/
structure In (i : ℕ) (σ : Solo K V E) (s : Store K V E) : Prop where
  keys : s.keys = σ.keys
  pub : s.pub = σ.pub
  tx : s.tx i = σ.tx
  locks : ∀ k j, s.locked k = some j → j = i

section Rows

variable {σ : Solo K V E} {k : K}

@[simp] theorem row_write_self [DecidableEq K] (w : Option (V k)) : (σ.write k w).row k = w := by
  simp [row, write, Tx.write]

theorem row_write_of_ne [DecidableEq K] {k' : K} (h : k' ≠ k) (w : Option (V k)) :
    (σ.write k w).row k' = σ.row k' := by
  simp [row, write, Tx.write, h]

@[simp] theorem row_addKey (k' : K) : (σ.addKey k).row k' = σ.row k' := rfl

@[simp] theorem row_push (e : E) (k' : K) : (σ.push e).row k' = σ.row k' := rfl

@[simp] theorem pub_write [DecidableEq K] (w : Option (V k)) : (σ.write k w).pub = σ.pub := rfl

@[simp] theorem keys_write [DecidableEq K] (w : Option (V k)) : (σ.write k w).keys = σ.keys := rfl

/-- A commit makes the rows that the transaction sees the committed ones. -/
@[simp] theorem pub_row_commit (i : ℕ) (k : K) : (σ.commit i).pub.row k = σ.row k := rfl

@[simp] theorem keys_commit (i : ℕ) : (σ.commit i).keys = σ.keys := rfl

@[simp] theorem idle_commit (i : ℕ) : (σ.commit i).Idle := rfl

@[simp] theorem idle_rollback : σ.rollback.Idle := rfl

@[simp] theorem pub_rollback : σ.rollback.pub = σ.pub := rfl

@[simp] theorem keys_rollback : σ.rollback.keys = σ.keys := rfl

/-- Without a transaction the committed rows are seen. -/
theorem Idle.row (h : σ.Idle) (k : K) : σ.row k = σ.pub.row k := by
  rw [Solo.row, h]
  rfl

end Rows

end Solo

/-! ## Stores with one process -/

namespace Solo.In

variable {σ : Solo K V E} {i : ℕ} {s : Store K V E}

theorem now_eq (h : σ.In i s) : s.now = σ.now := by
  rw [Store.now, h.keys, h.pub]
  rfl

theorem view_eq (h : σ.In i s) : s.view i = σ.view := by
  rw [Store.view, h.keys, h.pub, h.tx]
  rfl

/-- Nobody else holds the lock. -/
theorem lock_eq [DecidableEq K] (h : σ.In i s) (k : K) :
    ∃ s', s.lock i k = some s' ∧ σ.In i s' := by
  have hfree : s.locked k = none ∨ s.locked k = some i := by
    cases hk : s.locked k with
    | none => exact .inl rfl
    | some j => exact .inr (congrArg some (h.locks k j hk))
  refine ⟨_, if_pos hfree, h.keys, h.pub, h.tx, fun k' j hj => ?_⟩
  simp only [Function.update_apply] at hj
  split_ifs at hj
  · exact (Option.some.inj hj).symm
  · exact h.locks k' j hj

/-- Nobody else is writing. -/
theorem waits_eq [DecidableEq K] (h : σ.In i s) (ix : Index K V) (k : K) (v : V k) :
    ix.waits i k v s = false := by
  unfold Index.waits
  rw [List.any_eq_false]
  intro k' _
  cases hk : s.locked k' with
  | none => simp
  | some j => simp [h.locks k' j hk]

theorem write [DecidableEq K] (h : σ.In i s) (k : K) (w : Option (V k)) :
    (σ.write k w).In i (s.write i k w) where
  keys := h.keys
  pub := h.pub
  tx := by simp [Store.write, Solo.write, h.tx]
  locks := h.locks

theorem push (h : σ.In i s) (e : E) : (σ.push e).In i (s.push i e) where
  keys := h.keys
  pub := h.pub
  tx := by simp [Store.push, Solo.push, h.tx]
  locks := h.locks

theorem addKey (h : σ.In i s) (k : K) : (σ.addKey k).In i (s.addKey k) where
  keys := by rw [Store.addKey, h.keys]; rfl
  pub := h.pub
  tx := h.tx
  locks := h.locks

/-- A rollback, alone. -/
theorem rollback (h : σ.In i s) : σ.rollback.In i (s.rollback i) where
  keys := h.keys
  pub := h.pub
  tx := Function.update_self ..
  locks k j hj := by
    simp only [Store.rollback] at hj
    split_ifs at hj
    exact h.locks k j hj

/-- A commit, alone. -/
theorem commit (h : σ.In i s) : (σ.commit i).In i (s.commit i) where
  keys := h.keys
  pub := by
    change s.pub.commit i (s.tx i) = σ.pub.commit i σ.tx
    rw [h.pub, h.tx]
  tx := Function.update_self ..
  locks k j hj := by
    have hj : (if s.locked k = some i then none else s.locked k) = some j := hj
    split_ifs at hj
    exact h.locks k j hj

theorem record (h : σ.In i s) (e : E) : (σ.record i e).In i (s.settle i (Tx.empty.push e)) where
  keys := h.keys
  pub := by rw [Store.settle, h.pub]; rfl
  tx := h.tx
  locks := h.locks

end Solo.In

/-! ## Programs -/

/-- Alone on `σ`, the program ends, and its result and what it leaves satisfy `Q`. -/
def Alone (i : ℕ) (σ : Solo K V E) (p : Prog K V E L ε α)
    (Q : Except (Exn ε) α → Solo K V E → Prop) : Prop :=
  ∀ s, σ.In i s → ∃ s' r, p.run.runAlone s = some (s', r) ∧ ∃ σ', σ'.In i s' ∧ Q r σ'

namespace Alone

variable {i : ℕ} {σ : Solo K V E} {Q : Except (Exn ε) α → Solo K V E → Prop} {l : L}

theorem pure {a : α} (h : Q (.ok a) σ) : Alone i σ (Pure.pure a : Prog K V E L ε α) Q :=
  fun s hs => ⟨s, .ok a, rfl, σ, hs, h⟩

theorem throw {e : Exn ε} (h : Q (.error e) σ) :
    Alone i σ (MonadExcept.throw e : Prog K V E L ε α) Q :=
  fun s hs => ⟨s, .error e, rfl, σ, hs, h⟩

theorem post {Q' : Except (Exn ε) α → Solo K V E → Prop} {p : Prog K V E L ε α}
    (h : Alone i σ p Q) (hQ : ∀ r σ', Q r σ' → Q' r σ') : Alone i σ p Q' := by
  intro s hs
  obtain ⟨s', r, hrun, σ', hs', hr⟩ := h s hs
  exact ⟨s', r, hrun, σ', hs', hQ r σ' hr⟩

/-- Sequencing: an error of the first program ends the whole. -/
theorem seq {p : Prog K V E L ε β} {g : β → Prog K V E L ε α}
    (h : Alone i σ p fun r σ' => match r with
      | .ok b => Alone i σ' (g b) Q
      | .error e => Q (.error e) σ') : Alone i σ (p >>= g) Q := by
  intro s hs
  obtain ⟨s', r, hrun, σ', hs', hr⟩ := h s hs
  have hbind : (p >>= g).run.runAlone s =
      (ExceptT.bindCont g r).runAlone s' := by
    change (p.run >>= ExceptT.bindCont g).runAlone s = _
    rw [Proc.runAlone_bind, hrun]
    rfl
  rw [hbind]
  cases r with
  | ok b => exact hr s' hs'
  | error e => exact ⟨s', .error e, rfl, σ', hs', hr⟩

/-- Handling an error. -/
theorem tryCatch {p : Prog K V E L ε α} {g : Exn ε → Prog K V E L ε α}
    (h : Alone i σ p fun r σ' => match r with
      | .ok a => Q (.ok a) σ'
      | .error e => Alone i σ' (g e) Q) : Alone i σ (MonadExcept.tryCatch p g) Q := by
  intro s hs
  obtain ⟨s', r, hrun, σ', hs', hr⟩ := h s hs
  have hcatch : (MonadExcept.tryCatch p g : Prog K V E L ε α).run.runAlone s =
      ((p.run.runAlone s).bind fun x => _) := Proc.runAlone_bind ..
  rw [hcatch, hrun]
  cases r with
  | ok a => exact ⟨s', .ok a, rfl, σ', hs', hr⟩
  | error e => exact hr s' hs'

/-- The rule of a statement. -/
theorem stmt {f : Store K V E → Option (Store K V E)} {g : Store K V E → Except (Exn ε) α}
    (h : ∀ s, σ.In i s → ∃ s', f s = some s' ∧ ∃ σ', σ'.In i s' ∧ Q (g s) σ') :
    Alone i σ (ReadCommitted.stmt l f g) Q := by
  intro s hs
  obtain ⟨s', hf, σ', hs', hQ⟩ := h s hs
  refine ⟨s', g s, ?_, σ', hs', hQ⟩
  rw [ReadCommitted.stmt, ExceptT.run_mk, Proc.runAlone, hf]
  rfl

/-- `SELECT` outside any transaction. -/
theorem select {g : Snapshot K V → α} (h : Q (.ok (g σ.now)) σ) :
    Alone i σ (ReadCommitted.select l g : Prog K V E L ε α) Q := by
  refine stmt fun s hs => ⟨s, rfl, σ, hs, ?_⟩
  rw [hs.now_eq]
  exact h

/-- `SELECT` inside the transaction. -/
theorem selectIn {g : Snapshot K V → α} (h : Q (.ok (g σ.view)) σ) :
    Alone i σ (ReadCommitted.selectIn l i g : Prog K V E L ε α) Q := by
  refine stmt fun s hs => ⟨s, rfl, σ, hs, ?_⟩
  rw [hs.view_eq]
  exact h

theorem emit {e : E} {Q : Except (Exn ε) Unit → Solo K V E → Prop} (h : Q (.ok ()) (σ.push e)) :
    Alone i σ (ReadCommitted.emit l i e : Prog K V E L ε Unit) Q :=
  stmt fun _ hs => ⟨_, rfl, σ.push e, hs.push e, h⟩

theorem record {e : E} {Q : Except (Exn ε) Unit → Solo K V E → Prop}
    (h : Q (.ok ()) (σ.record i e)) :
    Alone i σ (ReadCommitted.record l i e : Prog K V E L ε Unit) Q :=
  fun _ hs => ⟨_, .ok (), rfl, σ.record i e, hs.record e, h⟩

/-- A transaction: commit when the body ends, roll back when it raises an error. -/
theorem transaction {p : Prog K V E L ε α}
    (h : Alone i σ p fun r σ' => match r with
      | .ok a => Q (.ok a) (σ'.commit i)
      | .error e => Q (.error e) σ'.rollback) :
    Alone i σ (ReadCommitted.transaction l i p) Q := by
  intro s hs
  obtain ⟨s', r, hrun, σ', hs', hr⟩ := h s hs
  have hbody : (ReadCommitted.transaction l i p).run.runAlone s =
      ((p.run.runAlone s).bind fun x => _) := Proc.runAlone_bind ..
  rw [hbody, hrun]
  cases r with
  | ok a => exact ⟨s'.commit i, .ok a, rfl, σ'.commit i, hs'.commit, hr⟩
  | error e => exact ⟨s'.rollback i, .error e, rfl, σ'.rollback, hs'.rollback, hr⟩

/-! ### Writes -/

section Writes

variable [DecidableEq K] {ix : Index K V} {k : K}

/-- `SELECT ... FOR UPDATE`. -/
theorem selectForUpdate {X : Type} {key : X → K} {find : Snapshot K V → Option X}
    {Q : Except (Exn ε) (Option ((x : X) × V (key x))) → Solo K V E → Prop}
    (h : Q (.ok ((find σ.view).bind fun x => (σ.row (key x)).map fun v => ⟨x, v⟩)) σ) :
    Alone i σ (ReadCommitted.selectForUpdate l i key find : Prog K V E L ε _) Q := by
  refine stmt fun s hs => ?_
  rw [hs.view_eq]
  cases hfind : find σ.view with
  | none =>
    rw [hfind] at h
    exact ⟨s, rfl, σ, hs, h⟩
  | some x =>
    rw [hfind, Option.bind_some] at h
    cases hrow : σ.row (key x) with
    | none =>
      have hview : σ.view.row (key x) = none := hrow
      rw [hrow] at h
      simp only [hview]
      exact ⟨s, rfl, σ, hs, h⟩
    | some v =>
      have hview : σ.view.row (key x) = some v := hrow
      obtain ⟨s', hlock, hs'⟩ := hs.lock_eq (key x)
      rw [hrow] at h
      simp only [hview]
      exact ⟨s', hlock, σ, hs', h⟩

variable {Q : Except (Exn ε) Bool → Solo K V E → Prop}

/-- A statement that leaves the row alone. -/
theorem change_none {u : V k → Option (Option (V k))} (hu : (σ.row k).bind u = none)
    (h : Q (.ok false) σ) :
    Alone i σ (ReadCommitted.change ix l i k u : Prog K V E L ε Bool) Q := by
  refine stmt fun s hs => ?_
  have hview : ((s.view i).row k).bind u = none := by
    rw [hs.view_eq]
    exact hu
  rw [hview]
  exact ⟨s, rfl, σ, hs, h⟩

/-- A statement that changes the row, which the index allows. -/
theorem change_some {u : V k → Option (Option (V k))} {w : Option (V k)}
    (hu : (σ.row k).bind u = some w)
    (hclash : (w.any fun v => ix.clashes k v σ.view) = false) (h : Q (.ok true) (σ.write k w)) :
    Alone i σ (ReadCommitted.change ix l i k u : Prog K V E L ε Bool) Q := by
  refine stmt fun s hs => ?_
  have hview : ((s.view i).row k).bind u = some w := by
    rw [hs.view_eq]
    exact hu
  obtain ⟨s', hlock, hs'⟩ := hs.lock_eq k
  have hwaits : (w.any fun v => ix.waits i k v s) = false := by
    cases w with
    | none => rfl
    | some v => exact hs.waits_eq ix k v
  rw [hview]
  refine ⟨s'.write i k w, ?_, σ.write k w, hs'.write k w, ?_⟩
  · simp only [hlock, hwaits, hs.view_eq, hclash, Bool.false_eq_true, if_false]
  · simp only [hs.view_eq, hclash, Bool.false_eq_true, if_false]
    exact h

/-- `UPDATE ... WHERE` of a row that meets the condition. -/
theorem update_hit {p : V k → Bool} {u : V k → V k} {v : V k} (hv : σ.row k = some v)
    (hp : p v = true) (hclash : ix.clashes k (u v) σ.view = false)
    (h : Q (.ok true) (σ.write k (some (u v)))) :
    Alone i σ (ReadCommitted.update ix l i k p u : Prog K V E L ε Bool) Q := by
  refine change_some (w := some (u v)) ?_ hclash h
  rw [hv, Option.bind_some, if_pos hp]

/-- `save` of a row that is there. -/
theorem saveRow [DecidableEq (V k)] {entity read : V k} {save : V k → V k → V k} {reload : L}
    {Q : Except (Exn ε) Unit → Solo K V E → Prop} (hself : save read read = entity)
    (hread : σ.row k = some read) (hclash : ix.clashes k entity σ.view = false)
    (hsame : entity = read → Q (.ok ()) σ) (hdiff : Q (.ok ()) (σ.write k (some entity))) :
    Alone i σ (ReadCommitted.saveRow ix reload l i k entity save : Prog K V E L ε Unit) Q := by
  have hview : σ.view.row k = some read := hread
  refine seq (selectIn ?_)
  simp only [hview, storeRow]
  split_ifs with heq
  · exact pure (hsame (hself.symm.trans heq))
  · refine seq (update_hit hread rfl ?_ (pure ?_))
    · rwa [hself]
    · rwa [hself]

/-- `UPDATE ... WHERE` when no row meets the condition. -/
theorem update_miss {p : V k → Bool} {u : V k → V k}
    (hp : ∀ v, σ.row k = some v → p v = false) (h : Q (.ok false) σ) :
    Alone i σ (ReadCommitted.update ix l i k p u : Prog K V E L ε Bool) Q := by
  refine change_none ?_ h
  rw [Option.bind_eq_none_iff]
  intro v hv
  rw [hp v hv]
  rfl

/-- `INSERT` under a new key. -/
theorem insert {v : V k} {Q : Except (Exn ε) Unit → Solo K V E → Prop} (hk : k ∉ σ.keys)
    (hclash : ix.clashes k v σ.view = false) (h : Q (.ok ()) ((σ.addKey k).write k (some v))) :
    Alone i σ (ReadCommitted.insert ix l i k v : Prog K V E L ε Unit) Q := by
  refine stmt fun s hs => ?_
  obtain ⟨s', hlock, hs'⟩ := hs.lock_eq k
  have hnew : k ∉ s.keys := by rwa [hs.keys]
  refine ⟨(s'.addKey k).write i k (some v), ?_, _, (hs'.addKey k).write k (some v), ?_⟩
  · simp only [hnew, hlock, hs.waits_eq, hs.view_eq, hclash, Bool.false_eq_true, if_false]
  · simp only [hs.view_eq, hclash, Bool.false_eq_true, if_false]
    exact h

/-- `INSERT ... ON CONFLICT` that leaves the row alone. -/
theorem upsert_none {merge : Option (V k) → Option (V k)}
    (hmerge : merge (σ.row k) = none) (h : Q (.ok false) σ) :
    Alone i σ (ReadCommitted.upsert ix l i k merge : Prog K V E L ε Bool) Q := by
  refine stmt fun s hs => ?_
  have hview : merge ((s.view i).row k) = none := by
    rw [hs.view_eq]
    exact hmerge
  obtain ⟨s', hlock, hs'⟩ := hs.lock_eq k
  refine ⟨s', ?_, σ, hs', ?_⟩
  · simp only [hlock, hview]
  · rw [hview]
    exact h

/-- `INSERT ... ON CONFLICT` that writes a row, which the index allows. -/
theorem upsert_some {merge : Option (V k) → Option (V k)} {v : V k}
    (hmerge : merge (σ.row k) = some v) (hclash : ix.clashes k v σ.view = false)
    (h : Q (.ok true) ((if k ∈ σ.keys then σ else σ.addKey k).write k (some v))) :
    Alone i σ (ReadCommitted.upsert ix l i k merge : Prog K V E L ε Bool) Q := by
  refine stmt fun s hs => ?_
  have hview : merge ((s.view i).row k) = some v := by
    rw [hs.view_eq]
    exact hmerge
  obtain ⟨s', hlock, hs'⟩ := hs.lock_eq k
  have hkeyed : (if k ∈ σ.keys then σ else σ.addKey k).In i
      (if k ∈ s'.keys then s' else s'.addKey k) := by
    rw [hs'.keys]
    split_ifs
    · exact hs'
    · exact hs'.addKey k
  refine ⟨_, ?_, _, hkeyed.write k (some v), ?_⟩
  · rw [hlock, hview]
    simp only [hs.waits_eq, hs.view_eq, hclash, Bool.false_eq_true, if_false]
  · rw [hview]
    simp only [hs.view_eq, hclash, Bool.false_eq_true, if_false]
    exact h

end Writes

end Alone

/-! ## Stores at rest -/

/-- A store in which no transaction is open and no lock is held. -/
structure Store.Quiet (s : Store K V E) : Prop where
  tx : ∀ i, s.tx i = Tx.empty
  locks : ∀ k, s.locked k = none

/-- In a store at rest a process is alone, with no transaction of its own. -/
theorem Store.Quiet.alone {s : Store K V E} (h : s.Quiet) (i : ℕ) :
    (⟨s.keys, s.pub, Tx.empty⟩ : Solo K V E).In i s :=
  ⟨rfl, rfl, h.tx i, fun k j hj => by simp [h.locks k] at hj⟩

end ReadCommitted
