/-
# Rules for transactional programs

Proof rules for the programs of `Store.lean`.

* `WF` is what holds of every store.  `Store.mine i` is the part that only process `i` can change.
* A `StoreContract` speaks about committed states only.  `Body` follows the process's own part of
  the store from statement to statement of a transaction; `BodyTo` also keeps what the transaction
  has learned about committed rows.  `Run` checks a program, where each transaction counts as one
  step.
* `StoreContract.sound`: programs checked alone keep the contract in every interleaving.
-/
import DigitalTrust.Store

namespace ReadCommitted

open Interleaving

set_option linter.unusedSectionVars false

variable {K : Type} [DecidableEq K] {V : K → Type} {E L ε α β : Type}

/-! ## The part of the store that belongs to a process -/

/-- The open transaction of a process and the committed value of each row it has locked. -/
structure Mine (K : Type) (V : K → Type) (E : Type) where
  tx : Tx K V E
  held : (k : K) → Option (Option (V k))

variable {k' k : K} {m : Mine K V E} {t : Tx K V E} {s : Store K V E} {a : α} {e : Exn ε}
  {g : β → Prog K V E L ε α} {p : Prog K V E L ε α} {p₀ : Pub K V E} {c : Config (Store K V E) L}

namespace Mine

/-- Between two transactions. -/
def idle : Mine K V E := ⟨Tx.empty, fun _ => none⟩

/-- Lock a row whose committed value is `c`. -/
def hold (m : Mine K V E) (k : K) (c : Option (V k)) : Mine K V E :=
  { m with held := Function.update m.held k (some c) }

def write (m : Mine K V E) (k : K) (w : Option (V k)) : Mine K V E :=
  { m with tx := m.tx.write k w }

def push (m : Mine K V E) (e : E) : Mine K V E := { m with tx := m.tx.push e }

variable (m : Mine K V E) (k : K)

@[simp] theorem hold_tx (c : Option (V k)) : (m.hold k c).tx = m.tx := rfl

@[simp] theorem hold_self (c : Option (V k)) : (m.hold k c).held k = some c := by
  simp [Mine.hold]

theorem hold_of_ne (h : k' ≠ k) (c : Option (V k)) : (m.hold k c).held k' = m.held k' := by
  simp [Mine.hold, Function.update_of_ne h]

@[simp] theorem write_held (w : Option (V k)) : (m.write k w).held = m.held := rfl

@[simp] theorem write_events (w : Option (V k)) : (m.write k w).tx.events = m.tx.events := rfl

@[simp] theorem write_self (w : Option (V k)) : (m.write k w).tx.writes k = some w := by
  simp [Mine.write, Tx.write]

theorem write_of_ne (h : k' ≠ k) (w : Option (V k)) :
    (m.write k w).tx.writes k' = m.tx.writes k' := by
  simp [Mine.write, Tx.write, Function.update_of_ne h]

@[simp] theorem push_held (e : E) : (m.push e).held = m.held := rfl

@[simp] theorem push_writes (e : E) : (m.push e).tx.writes = m.tx.writes := rfl

@[simp] theorem push_events (e : E) : (m.push e).tx.events = m.tx.events ++ [e] := rfl

@[simp] theorem idle_writes : (idle : Mine K V E).tx.writes k = none := rfl

@[simp] theorem idle_events : (idle : Mine K V E).tx.events = [] := rfl

@[simp] theorem idle_held : (idle : Mine K V E).held k = none := rfl

end Mine

/-- Locking a row once more changes nothing. -/
theorem hold_held {c : Option (V k)} (h : m.held k = some c) : m.hold k c = m := by
  simp [Mine.hold, ← h]

/-- The part of the store that belongs to process `i`. -/
def Store.mine (i : ℕ) (s : Store K V E) : Mine K V E :=
  ⟨s.tx i, fun k => if s.locked k = some i then some (s.pub.row k) else none⟩

/-- A store with no open transaction; each key is in use once. -/
def Store.initial (keys : List K) (p : Pub K V E) : Store K V E :=
  ⟨keys.dedup, p, fun _ => Tx.empty, fun _ => none⟩

/-! ## Well-formed stores -/

/-- No two of the rows clash. -/
def Index.Respected (ix : Index K V) (row : (k : K) → Option (V k)) : Prop :=
  ∀ k k' v v', k ≠ k' → row k = some v → row k' = some v' → ix.clash k v k' v' = false

/-- A row of a database that was given row by row is one of those. -/
theorem Pub.mem_of_ofRows {rows : List ((k : K) × V k)} {v : V k}
    (h : (Pub.ofRows rows : Pub K V E).row k = some v) : ⟨k, v⟩ ∈ rows :=
  List.of_mem_dlookup h

/-- Such a database respects an index when no two of its rows clash. -/
theorem Index.respected_ofRows {ix : Index K V} {rows : List ((k : K) × V k)}
    (h : ∀ a ∈ rows, ∀ b ∈ rows, a.1 ≠ b.1 → ix.clash a.1 a.2 b.1 b.2 = false) :
    ix.Respected (Pub.ofRows rows : Pub K V E).row :=
  fun _ _ _ _ hne hk hk' => h _ (Pub.mem_of_ofRows hk) _ (Pub.mem_of_ofRows hk') hne

theorem Pub.keys_ofRows {rows : List ((k : K) × V k)}
    (h : (Pub.ofRows rows : Pub K V E).row k ≠ none) : k ∈ rows.map Sigma.fst := by
  obtain ⟨v, hv⟩ := Option.ne_none_iff_exists'.mp h
  exact List.mem_map.mpr ⟨_, Pub.mem_of_ofRows hv, rfl⟩

structure WF (ix : Index K V) (s : Store K V E) : Prop where
  written : ∀ i k, (s.tx i).writes k ≠ none → s.locked k = some i
  keys : ∀ k, s.pub.row k ≠ none → k ∈ s.keys
  newKeys : ∀ i k, (s.tx i).writes k ≠ none → k ∈ s.keys
  nodup : s.keys.Nodup
  index : ix.Respected s.pub.row
  indexView : ∀ i, ix.Respected (s.view i).row
  indexTx : ∀ i j k k' v v', i ≠ j → k ≠ k' → (s.tx i).writes k = some (some v) →
    (s.tx j).writes k' = some (some v') → ix.clash k v k' v' = false

/-! ### Effects of the statements -/

section Effects

variable {ix : Index K V} {i j : ℕ} {k : K} {s s' : Store K V E}

/-- A store without transactions is well formed when its rows are. -/
theorem WF.initial {keys : List K} {p : Pub K V E} (hk : ∀ k, p.row k ≠ none → k ∈ keys)
    (hi : ix.Respected p.row) : WF ix (Store.initial keys p) where
  written i k h := absurd rfl h
  keys k h := List.mem_dedup.mpr (hk k h)
  newKeys i k h := absurd rfl h
  nodup := List.nodup_dedup keys
  index := hi
  indexView _ := hi
  indexTx i j k k' v v' _ _ h := by simp [Store.initial, Tx.empty] at h

theorem mine_initial (keys : List K) (p : Pub K V E) (i : ℕ) :
    (Store.initial keys p).mine i = Mine.idle := by
  simp [Store.mine, Store.initial, Mine.idle]

/-- A row that the transaction has not written reads as committed. -/
theorem view_of_unwritten (h : (s.tx i).writes k = none) : (s.view i).row k = s.pub.row k := by
  simp [Store.view, h]

/-- A visible row is under a key in use. -/
theorem WF.mem_keys (h : WF ix s) {v : V k} (hv : (s.view i).row k = some v) : k ∈ s.keys := by
  by_cases hw : (s.tx i).writes k = none
  · rw [view_of_unwritten hw] at hv
    exact h.keys k (by simp [hv])
  · exact h.newKeys i k hw

/-- When a row's lock can be taken, and what it does. -/
theorem lock_eq_some : s.lock i k = some s' ↔
    (s.locked k = none ∨ s.locked k = some i) ∧
      s' = { s with locked := Function.update s.locked k (some i) } := by
  unfold Store.lock
  split_ifs with h
  · rw [Option.some.injEq, eq_comm]
    exact ⟨fun hs => ⟨h, hs⟩, fun hs => hs.2⟩
  · exact ⟨fun hs => by simp at hs, fun hs => absurd hs.1 h⟩

/-- A new lock leaves the other processes' locks alone. -/
theorem locked_update_ne (hf : s.locked k = none ∨ s.locked k = some i) (hj : j ≠ i) (k' : K) :
    Function.update s.locked k (some i) k' = some j ↔ s.locked k' = some j := by
  by_cases hk : k' = k
  · subst hk
    rcases hf with hf | hf
    · simp [hf, Ne.symm hj]
    · simp [hf]
  · rw [Function.update_of_ne hk]

theorem keys_lock (hs : s.lock i k = some s') : s'.keys = s.keys := by
  obtain ⟨-, rfl⟩ := lock_eq_some.mp hs
  rfl

theorem locked_lock (hs : s.lock i k = some s') : s'.locked k = some i := by
  obtain ⟨-, rfl⟩ := lock_eq_some.mp hs
  simp

theorem view_lock (hs : s.lock i k = some s') : s'.view i = s.view i := by
  obtain ⟨-, rfl⟩ := lock_eq_some.mp hs
  rfl

/-- A row does not clash with itself. -/
theorem clashes_addKey (v : V k) :
    ix.clashes k v ((s.addKey k).view i) = ix.clashes k v (s.view i) := by
  simp [Index.clashes, Store.view, Store.addKey]

theorem waits_addKey (v : V k) : ix.waits i k v (s.addKey k) = ix.waits i k v s := by
  simp [Index.waits, Store.addKey]

/-- Whether a row has to wait does not depend on its own lock. -/
theorem waits_lock (hs : s.lock i k = some s') (v : V k) :
    ix.waits i k v s' = ix.waits i k v s := by
  obtain ⟨-, rfl⟩ := lock_eq_some.mp hs
  simp only [Index.waits]
  congr 1
  funext k'
  by_cases hk : k' = k
  · simp [hk]
  · simp [Function.update_of_ne hk]

/-- Locking keeps a store well formed. -/
theorem WF.lock (h : WF ix s) (hs : s.lock i k = some s') : WF ix s' := by
  obtain ⟨hf, rfl⟩ := lock_eq_some.mp hs
  refine { h with written := fun j k' hw => ?_ }
  have hl := h.written j k' hw
  by_cases hj : j = i
  · subst hj
    by_cases hk : k' = k
    · subst hk
      simp
    · simpa [Function.update_of_ne hk] using hl
  · exact (locked_update_ne hf hj k').mpr hl

/-- The process that takes a lock then holds the row's committed value. -/
theorem mine_lock (hs : s.lock i k = some s') : s'.mine i = (s.mine i).hold k (s.pub.row k) := by
  obtain ⟨-, rfl⟩ := lock_eq_some.mp hs
  simp only [Store.mine, Mine.hold, Mine.mk.injEq, true_and]
  funext k'
  by_cases hk : k' = k
  · subst hk
    simp
  · simp [Function.update_of_ne hk]

/-- Taking a lock changes nothing that belongs to another process. -/
theorem mine_lock_ne (hs : s.lock i k = some s') (hj : j ≠ i) : s'.mine j = s.mine j := by
  obtain ⟨hf, rfl⟩ := lock_eq_some.mp hs
  simp only [Store.mine, Mine.mk.injEq, true_and]
  funext k'
  simp only [locked_update_ne hf hj k']

theorem pub_lock (hs : s.lock i k = some s') : s'.pub = s.pub := by
  obtain ⟨-, rfl⟩ := lock_eq_some.mp hs
  rfl

theorem mine_write (w : Option (V k)) : (s.write i k w).mine i = (s.mine i).write k w := by
  simp only [Store.mine, Mine.write, Store.write, Function.update_self]
  rfl

theorem mine_write_ne (w : Option (V k)) (hj : j ≠ i) : (s.write i k w).mine j = s.mine j := by
  simp only [Store.mine, Store.write, Function.update_of_ne hj]
  rfl

theorem mine_push (e : E) : (s.push i e).mine i = (s.mine i).push e := by
  simp only [Store.mine, Mine.push, Store.push, Function.update_self]
  rfl

theorem mine_push_ne (e : E) (hj : j ≠ i) : (s.push i e).mine j = s.mine j := by
  simp only [Store.mine, Store.push, Function.update_of_ne hj]
  rfl

theorem mine_rollback : (s.rollback i).mine i = Mine.idle := by
  simp only [Store.mine, Store.rollback, Mine.idle, Function.update_self, Mine.mk.injEq, true_and]
  funext k
  by_cases hk : s.locked k = some i <;> simp [hk]

theorem mine_rollback_ne (hj : j ≠ i) : (s.rollback i).mine j = s.mine j := by
  simp only [Store.mine, Store.rollback, Function.update_of_ne hj, Mine.mk.injEq, true_and]
  funext k
  by_cases hk : s.locked k = some i
  · simp [hk, Ne.symm hj]
  · simp [hk]

/-- Committing rows that process `i` has locked changes nothing that belongs to another. -/
theorem mine_settle_ne (ht : ∀ k, t.writes k ≠ none → s.locked k = some i) (hj : j ≠ i) :
    (s.settle i t).mine j = s.mine j := by
  simp only [Store.mine, Store.settle, Pub.commit, Mine.mk.injEq, true_and]
  funext k
  by_cases hk : s.locked k = some j
  · have hw : t.writes k = none := by
      by_contra hw
      rw [ht k hw] at hk
      exact hj (by simpa using hk.symm)
    simp [hk, hw]
  · simp [hk]

/-! ### Well-formedness is kept -/

/-- An event keeps the store well formed. -/
theorem WF.push (h : WF ix s) (e : E) : WF ix (s.push i e) := by
  have hw : ∀ j, ((s.push i e).tx j).writes = (s.tx j).writes := by
    intro j
    by_cases hj : j = i
    · subst hj
      simp [Store.push, Tx.push]
    · simp [Store.push, hj]
  refine ⟨fun j k => ?_, h.keys, fun j k => ?_, h.nodup, h.index, fun j => ?_,
    fun i' j k k' => ?_⟩
  · rw [hw]
    exact h.written j k
  · rw [hw]
    exact h.newKeys j k
  · rw [show (Store.view j (s.push i e)).row = (s.view j).row by simp only [Store.view, hw]; rfl]
    exact h.indexView j
  · rw [hw, hw]
    exact h.indexTx i' j k k'

/-- Rolling back keeps a store well formed. -/
theorem WF.rollback (h : WF ix s) : WF ix (s.rollback i) := by
  have hself : ∀ k, ((s.rollback i).tx i).writes k = none := fun k => by
    simp [Store.rollback, Tx.empty]
  have hne : ∀ j, j ≠ i → (s.rollback i).tx j = s.tx j := fun j hj => by
    simp [Store.rollback, hj]
  refine ⟨fun j k hw => ?_, h.keys, fun j k hw => ?_, h.nodup, h.index, fun j => ?_,
    fun j₁ j₂ k k' v v' hj hk h₁ h₂ => ?_⟩
  · by_cases hj : j = i
    · subst hj
      exact absurd (hself k) hw
    · rw [hne j hj] at hw
      have hl := h.written j k hw
      simp [Store.rollback, hl, hj]
  · by_cases hj : j = i
    · subst hj
      exact absurd (hself k) hw
    · rw [hne j hj] at hw
      exact h.newKeys j k hw
  · by_cases hj : j = i
    · subst hj
      have : ((s.rollback j).view j).row = s.pub.row := by
        funext k
        exact view_of_unwritten (hself k)
      rw [this]
      exact h.index
    · have : ((s.rollback i).view j).row = (s.view j).row := by
        funext k
        simp only [Store.view, hne j hj]
        rfl
      rw [this]
      exact h.indexView j
  · by_cases hj₁ : j₁ = i
    · rw [hj₁, hself] at h₁
      simp at h₁
    · by_cases hj₂ : j₂ = i
      · rw [hj₂, hself] at h₂
        simp at h₂
      · rw [hne _ hj₁] at h₁
        rw [hne _ hj₂] at h₂
        exact h.indexTx j₁ j₂ k k' v v' hj hk h₁ h₂

/-- What another transaction sees once process `i` has committed: a row is one that it
has itself written, or one that it did not write and process `i` did, or an old one. -/
theorem view_settle_cases {v : V k} (hv : ((s.settle i t).view j).row k = some v) :
    (s.tx j).writes k = some (some v) ∨ ((s.tx j).writes k = none ∧ t.writes k = some (some v)) ∨
      ((s.tx j).writes k = none ∧ t.writes k = none ∧ s.pub.row k = some v) := by
  cases hj : (s.tx j).writes k with
  | some w =>
    left
    simpa [Store.view, Store.settle, hj] using hv
  | none =>
    right
    cases ht : t.writes k with
    | some w =>
      left
      simpa [Store.view, Store.settle, Pub.commit, hj, ht] using hv
    | none =>
      right
      simpa [Store.view, Store.settle, Pub.commit, hj, ht] using hv

/-- Committing keeps a store well formed. -/
theorem WF.commit (h : WF ix s) : WF ix (s.commit i) := by
  have hview : (s.settle i (s.tx i)).pub.row = (s.view i).row := rfl
  -- before the locks are released, the committing process still has its writes
  have hset : WF ix (s.settle i (s.tx i)) := by
    refine ⟨h.written, fun k hk => ?_, h.newKeys, h.nodup, hview ▸ h.indexView i, fun j => ?_,
      h.indexTx⟩
    · obtain ⟨v, hv⟩ := Option.ne_none_iff_exists'.mp hk
      exact h.mem_keys (i := i) hv
    · intro k k' v v' hk hv hv'
      have hwv : ∀ {k : K} {v : V k}, (s.tx i).writes k = some (some v) →
          (s.view i).row k = some v := fun hw => by simp [Store.view, hw]
      have hold : ∀ {j : ℕ} {k : K} {v : V k}, (s.tx j).writes k = none → s.pub.row k = some v →
          (s.view j).row k = some v := fun hw hp => (view_of_unwritten hw).trans hp
      have hown : ∀ {k : K} {v : V k}, (s.tx j).writes k = some (some v) →
          (s.view j).row k = some v := fun hw => by simp [Store.view, hw]
      by_cases hij : j = i
      · subst hij
        rcases view_settle_cases hv with h₁ | ⟨h₁, h₁'⟩ | ⟨h₁, -, h₁'⟩ <;>
          rcases view_settle_cases hv' with h₂ | ⟨h₂, h₂'⟩ | ⟨h₂, -, h₂'⟩ <;>
          first
            | simp [h₁] at h₁'
            | simp [h₂] at h₂'
            | exact h.indexView j k k' v v' hk (by simp [Store.view, *]) (by simp [Store.view, *])
      · rcases view_settle_cases hv with h₁ | ⟨h₁, h₁'⟩ | ⟨h₁, h₁', h₁''⟩ <;>
          rcases view_settle_cases hv' with h₂ | ⟨h₂, h₂'⟩ | ⟨h₂, h₂', h₂''⟩
        · exact h.indexView j k k' v v' hk (hown h₁) (hown h₂)
        · exact h.indexTx j i k k' v v' hij hk h₁ h₂'
        · exact h.indexView j k k' v v' hk (hown h₁) (hold h₂ h₂'')
        · rw [ix.symm]
          exact h.indexTx j i k' k v' v hij (Ne.symm hk) h₂ h₁'
        · exact h.indexView i k k' v v' hk (hwv h₁') (hwv h₂')
        · exact h.indexView i k k' v v' hk (hwv h₁') (hold h₂' h₂'')
        · exact h.indexView j k k' v v' hk (hold h₁ h₁'') (hown h₂)
        · exact h.indexView i k k' v v' hk (hold h₁' h₁'') (hwv h₂')
        · exact h.index k k' v v' hk h₁'' h₂''
  exact hset.rollback

/-- Recording an event keeps a store well formed. -/
theorem WF.settle_push (h : WF ix s) (e : E) : WF ix (s.settle i (Tx.empty.push e)) := by
  exact ⟨h.written, h.keys, h.newKeys, h.nodup, h.index, h.indexView, h.indexTx⟩

/-- Bringing a new key into use keeps a store well formed. -/
theorem WF.addKey (h : WF ix s) (hk : k ∉ s.keys) : WF ix (s.addKey k) where
  written := h.written
  keys k' hk := List.mem_append_left _ (h.keys k' hk)
  newKeys j k' hk := List.mem_append_left _ (h.newKeys j k' hk)
  nodup := List.nodup_append.mpr ⟨h.nodup, List.nodup_singleton k, fun _ ha _ hb hab =>
    hk (List.mem_singleton.mp hb ▸ hab ▸ ha)⟩
  index := h.index
  indexView := h.indexView
  indexTx := h.indexTx

/-- What a row that does not clash can rely on. -/
theorem not_clashes {v : V k} {d : Snapshot K V} (h : ix.clashes k v d = false) {v' : V k'}
    (hk : k' ≠ k) (hm : k' ∈ d.keys) (hr : d.row k' = some v') : ix.clash k v k' v' = false := by
  simp only [Index.clashes, List.any_eq_false] at h
  simpa [hk, hr] using h k' hm

/-- What a row that need not wait can rely on. -/
theorem not_waits (hs : WF ix s) {v : V k} (h : ix.waits i k v s = false) {v' : V k'} (hk : k' ≠ k)
    (hj : j ≠ i) (hw : (s.tx j).writes k' = some (some v')) : ix.clash k v k' v' = false := by
  simp only [Index.waits, List.any_eq_false] at h
  have hl := hs.written j k' (by simp [hw])
  have := h k' (hs.newKeys j k' (by simp [hw]))
  simp only [hl, hw] at this
  simp [hk, hj] at this
  exact this.1

/-- Writing a row that is locked, and that the index accepts, keeps a store well formed. -/
theorem WF.write (h : WF ix s) (hl : s.locked k = some i) (hk : k ∈ s.keys) {w : Option (V k)}
    (hc : ∀ v, w = some v → ix.clashes k v (s.view i) = false)
    (hw : ∀ v, w = some v → ix.waits i k v s = false) : WF ix (s.write i k w) := by
  have hne : ∀ j, j ≠ i → (s.write i k w).tx j = s.tx j := fun j hj => by
    simp [Store.write, hj]
  have hself : ((s.write i k w).tx i).writes = Function.update (s.tx i).writes k (some w) := by
    simp [Store.write, Tx.write]
  have hview : ((s.write i k w).view i).row = Function.update (s.view i).row k w := by
    funext k'
    by_cases hk' : k' = k
    · subst hk'
      simp [Store.view, hself]
    · simp only [Store.view, hself, Function.update_of_ne hk']
      rfl
  have hview' : ∀ j, j ≠ i → ((s.write i k w).view j).row = (s.view j).row := fun j hj => by
    funext k'
    simp only [Store.view, hne j hj]
    rfl
  refine ⟨fun j k' hj => ?_, h.keys, fun j k' hj => ?_, h.nodup, h.index, fun j => ?_,
    fun j₁ j₂ k₁ k₂ v₁ v₂ hj hk' h₁ h₂ => ?_⟩
  · by_cases hji : j = i
    · subst hji
      by_cases hkk : k' = k
      · subst hkk
        exact hl
      · rw [hself, Function.update_of_ne hkk] at hj
        exact h.written j k' hj
    · rw [hne j hji] at hj
      exact h.written j k' hj
  · by_cases hji : j = i
    · subst hji
      by_cases hkk : k' = k
      · subst hkk
        exact hk
      · rw [hself, Function.update_of_ne hkk] at hj
        exact h.newKeys j k' hj
    · rw [hne j hji] at hj
      exact h.newKeys j k' hj
  · by_cases hji : j = i
    · subst hji
      rw [hview]
      intro k₁ k₂ v₁ v₂ hk' h₁ h₂
      by_cases hk₁ : k₁ = k
      · subst hk₁
        rw [Function.update_self] at h₁
        rw [Function.update_of_ne (Ne.symm hk')] at h₂
        exact not_clashes (hc v₁ h₁) (Ne.symm hk') (h.mem_keys h₂) h₂
      · rw [Function.update_of_ne hk₁] at h₁
        by_cases hk₂ : k₂ = k
        · subst hk₂
          rw [Function.update_self] at h₂
          rw [ix.symm]
          exact not_clashes (hc v₂ h₂) hk' (h.mem_keys h₁) h₁
        · rw [Function.update_of_ne hk₂] at h₂
          exact h.indexView j k₁ k₂ v₁ v₂ hk' h₁ h₂
    · rw [hview' j hji]
      exact h.indexView j
  · -- at most one of the two processes is the writing one
    have key : ∀ {j : ℕ} {k₁ k₂ : K} {v₁ : V k₁} {v₂ : V k₂}, j ≠ i → k₁ ≠ k₂ →
        ((s.write i k w).tx i).writes k₁ = some (some v₁) →
        (s.tx j).writes k₂ = some (some v₂) → ix.clash k₁ v₁ k₂ v₂ = false := by
      intro j k₁ k₂ v₁ v₂ hji hkk hv₁ hv₂
      by_cases hk₁ : k₁ = k
      · subst hk₁
        rw [hself, Function.update_self, Option.some.injEq] at hv₁
        exact not_waits h (hw v₁ hv₁) (Ne.symm hkk) hji hv₂
      · rw [hself, Function.update_of_ne hk₁] at hv₁
        exact h.indexTx i j k₁ k₂ v₁ v₂ (Ne.symm hji) hkk hv₁ hv₂
    by_cases h₁i : j₁ = i
    · subst h₁i
      rw [hne _ (Ne.symm hj)] at h₂
      exact key (Ne.symm hj) hk' h₁ h₂
    · rw [hne _ h₁i] at h₁
      by_cases h₂i : j₂ = i
      · subst h₂i
        rw [ix.symm]
        exact key h₁i (Ne.symm hk') h₂ h₁
      · rw [hne _ h₂i] at h₂
        exact h.indexTx j₁ j₂ k₁ k₂ v₁ v₂ hj hk' h₁ h₂

/-- Locking a row gives up no lock. -/
theorem Mine.held_hold (k : K) (c : Option (V k)) (h : m.held k' ≠ none) :
    (m.hold k c).held k' ≠ none := by
  by_cases hk : k' = k
  · subst hk
    simp
  · rwa [Mine.hold_of_ne m k hk]

/-- A step of process `i` that commits nothing, leaves the others alone and gives up no lock. -/
structure Unseen (ix : Index K V) (i : ℕ) (s s' : Store K V E) : Prop where
  wf : WF ix s'
  pub : s'.pub = s.pub
  others : ∀ j, j ≠ i → s'.mine j = s.mine j
  held : ∀ k, (s.mine i).held k ≠ none → (s'.mine i).held k ≠ none

/-- A lock is unseen by the others. -/
theorem unseen_lock (h : WF ix s) (hl : s.lock i k = some s') : Unseen ix i s s' where
  wf := h.lock hl
  pub := pub_lock hl
  others _ hj := mine_lock_ne hl hj
  held k' hk' := by
    rw [mine_lock hl]
    exact Mine.held_hold _ _ hk'

/-- Locking a row, new or old, and writing it. -/
theorem lock_write (h : WF ix s) (hl : s.lock i k = some s') {s₂ : Store K V E}
    (h₂ : s₂ = s' ∨ k ∉ s.keys ∧ s₂ = s'.addKey k) (hk : k ∈ s₂.keys) {w : Option (V k)}
    (hc : ∀ v, w = some v → ix.clashes k v (s.view i) = false)
    (hw : ∀ v, w = some v → ix.waits i k v s = false) :
    Unseen ix i s (s₂.write i k w) ∧
      (s₂.write i k w).mine i = ((s.mine i).hold k (s.pub.row k)).write k w := by
  have hwf : WF ix s₂ := by
    rcases h₂ with rfl | ⟨hnew, rfl⟩
    · exact h.lock hl
    · exact (h.lock hl).addKey (keys_lock hl ▸ hnew)
  have hlocked : s₂.locked k = some i := by
    rcases h₂ with rfl | ⟨-, rfl⟩
    · exact locked_lock hl
    · exact (locked_lock hl : s'.locked k = some i)
  have hpub : s₂.pub = s.pub := by
    rcases h₂ with rfl | ⟨-, rfl⟩
    · exact pub_lock hl
    · exact (pub_lock hl : s'.pub = s.pub)
  have hmine : ∀ j, s₂.mine j = s'.mine j := by
    rcases h₂ with rfl | ⟨-, rfl⟩ <;> exact fun _ => rfl
  have hself : (s₂.write i k w).mine i = ((s.mine i).hold k (s.pub.row k)).write k w := by
    rw [mine_write, hmine, mine_lock hl]
  refine ⟨⟨hwf.write hlocked hk (fun v hv => ?_) (fun v hv => ?_), hpub, fun j hj => ?_,
    fun k' hk' => ?_⟩, hself⟩
  · rw [← hc v hv, ← view_lock hl]
    rcases h₂ with rfl | ⟨-, rfl⟩
    · rfl
    · exact clashes_addKey v
  · rw [← hw v hv, ← waits_lock hl]
    rcases h₂ with rfl | ⟨-, rfl⟩
    · rfl
    · exact waits_addKey v
  · rw [mine_write_ne w hj, hmine, mine_lock_ne hl hj]
  · rw [hself]
    exact Mine.held_hold _ _ hk'

end Effects

/-! ## Contracts -/

/-- What the programs over a store agree on, in terms of committed states: as in a `Contract`, and
what the others do while a process holds the lock of a row (`guard`). -/
structure StoreContract (K : Type) (V : K → Type) (E : Type) where
  inv : Pub K V E → Prop
  rely : Option ℕ → Pub K V E → Pub K V E → Prop
  start : ℕ → Pub K V E → Prop
  refl : ∀ j p, rely j p p
  start_stable : ∀ i p p', inv p → inv p' → start i p → rely (some i) p p' → start i p'
  guard : K → Pub K V E → Pub K V E → Prop := fun _ _ _ => True
  guard_refl : ∀ k p, guard k p p := by intros; trivial

namespace StoreContract

variable (κ : StoreContract K V E) (ix : Index K V)

/-- The contract between processes: committed states follow the contract, stores are well
formed and nobody touches what belongs to another process. -/
def full : Contract (Store K V E) where
  inv s := WF ix s ∧ κ.inv s.pub
  rely
    | none => fun s s' => κ.rely none s.pub s'.pub
    | some i => fun s s' => s'.mine i = s.mine i ∧ κ.rely (some i) s.pub s'.pub ∧
        ∀ k, (s.mine i).held k ≠ none → κ.guard k s.pub s'.pub
  start i s := s.mine i = Mine.idle ∧ κ.start i s.pub

/-- An assertion of process `i` about committed states that no other process can break. -/
structure Assert (i : ℕ) where
  holds : Pub K V E → Prop
  stable : ∀ p p', κ.inv p → κ.inv p' → holds p → κ.rely (some i) p p' → holds p'

/-- An assertion of process `i` about committed states that no other process can break while
process `i` holds the locks of the rows in `needs`. -/
structure TxAssert (i : ℕ) where
  holds : Pub K V E → Prop
  needs : K → Prop
  stable : ∀ p p', κ.inv p → κ.inv p' → holds p → κ.rely (some i) p p' →
    (∀ k, needs k → κ.guard k p p') → holds p'

variable {κ ix}

/-- An assertion that needs no lock. -/
def Assert.tx {i : ℕ} (φ : κ.Assert i) : κ.TxAssert i where
  holds := φ.holds
  needs _ := False
  stable p p' hp hp' h hr _ := φ.stable p p' hp hp' h hr

instance {i : ℕ} : Coe (κ.Assert i) (κ.TxAssert i) := ⟨Assert.tx⟩

variable {i : ℕ}

@[simp] theorem Assert.tx_holds (φ : κ.Assert i) : φ.tx.holds = φ.holds := rfl

/-- `χ` says more than `φ`. -/
structure TxAssert.Refines {i : ℕ} (χ φ : κ.TxAssert i) : Prop where
  holds : ∀ p, χ.holds p → φ.holds p
  needs : ∀ k, φ.needs k → χ.needs k

theorem TxAssert.Refines.refl (φ : κ.TxAssert i) : φ.Refines φ :=
  ⟨fun _ h => h, fun _ h => h⟩

theorem TxAssert.Refines.trans {φ χ ψ : κ.TxAssert i} (h : ψ.Refines χ) (h' : χ.Refines φ) :
    ψ.Refines φ :=
  ⟨fun p hp => h'.holds p (h.holds p hp), fun k hk => h.needs k (h'.needs k hk)⟩

/-- The assertion a process starts with. -/
def atStart (κ : StoreContract K V E) (i : ℕ) : κ.Assert i := ⟨κ.start i, κ.start_stable i⟩

/-- What one commit of process `i` owes to the contract and to its own next assertion. -/
def Step (κ : StoreContract K V E) (i : ℕ) (t : Tx K V E) (p : Pub K V E)
    (post : Pub K V E → Prop) : Prop :=
  κ.inv (p.commit i t) ∧ (∀ j, j ≠ some i → κ.rely j p (p.commit i t)) ∧ post (p.commit i t)

/-- Process `i` has the part `m` of the store with the locks that `φ` needs, and `φ` holds of
what is committed. -/
def Local (i : ℕ) (m : Mine K V E) (φ : κ.TxAssert i) (s : Store K V E) : Prop :=
  s.mine i = m ∧ φ.holds s.pub ∧ ∀ k, φ.needs k → m.held k ≠ none

/-- Between two of its statements a process keeps its own part and its assertion. -/
theorem local_stable (m : Mine K V E) (φ : κ.TxAssert i) : (κ.full ix).Stable i (Local i m φ) := by
  rintro s s' ⟨-, hi⟩ ⟨-, hi'⟩ ⟨hm, hφ, hneeds⟩ ⟨hf, hr, hguard⟩
  refine ⟨hf.trans hm, φ.stable _ _ hi hi' hφ hr fun k hk => hguard k ?_, hneeds⟩
  rw [hm]
  exact hneeds k hk

/-- An assertion that needs no lock holds between two transactions. -/
theorem local_idle {φ : κ.Assert i} (hm : s.mine i = Mine.idle) (hφ : φ.holds s.pub) :
    Local i Mine.idle φ.tx s :=
  ⟨hm, hφ, fun _ h => h.elim⟩

/-- A step that commits nothing is fine for everybody. -/
theorem silent {s' : Store K V E} (hs : (κ.full ix).inv s) (hw : WF ix s') (hp : s'.pub = s.pub)
    (hf : ∀ j, j ≠ i → s'.mine j = s.mine j) :
    (κ.full ix).inv s' ∧ ∀ j, j ≠ some i → (κ.full ix).rely j s s' := by
  refine ⟨⟨hw, hp ▸ hs.2⟩, fun j hj => ?_⟩
  cases j with
  | none =>
    show κ.rely none s.pub s'.pub
    rw [hp]
    exact κ.refl none s.pub
  | some j =>
    refine ⟨hf j (by simpa using hj), ?_⟩
    rw [hp]
    exact ⟨κ.refl (some j) s.pub, fun k _ => κ.guard_refl k s.pub⟩

/-- A row that one process has locked is locked by no other. -/
theorem held_of_ne {j : ℕ} (hj : j ≠ i) (h : (s.mine j).held k ≠ none) :
    (s.mine i).held k = none := by
  simp only [Store.mine] at h ⊢
  split_ifs at h with hl
  · rw [if_neg]
    rw [hl]
    simpa using hj
  · exact absurd rfl h

/-- A step that commits the transaction `t`. -/
theorem visible {s' : Store K V E} {post : Pub K V E → Prop} (hw : WF ix s')
    (hp : s'.pub = s.pub.commit i t) (h : κ.Step i t s.pub post)
    (hf : ∀ j, j ≠ i → s'.mine j = s.mine j)
    (hguard : ∀ k, (s.mine i).held k = none → κ.guard k s.pub (s.pub.commit i t)) :
    (κ.full ix).inv s' ∧ ∀ j, j ≠ some i → (κ.full ix).rely j s s' := by
  refine ⟨⟨hw, hp ▸ h.1⟩, fun j hj => ?_⟩
  cases j with
  | none =>
    show κ.rely none s.pub s'.pub
    rw [hp]
    exact h.2.1 none hj
  | some j =>
    have hji : j ≠ i := by simpa using hj
    refine ⟨hf j hji, ?_⟩
    rw [hp]
    exact ⟨h.2.1 (some j) hj, fun k hk => hguard k (held_of_ne hji hk)⟩

/-- A process whose transaction has ended. -/
theorem local_commit (φ : κ.Assert i) (h : φ.holds (s.pub.commit i (s.tx i))) :
    Local i Mine.idle φ.tx (s.commit i) :=
  local_idle mine_rollback h

theorem local_rollback (φ : κ.Assert i) (h : φ.holds s.pub) :
    Local i Mine.idle φ.tx (s.rollback i) :=
  local_idle mine_rollback h

/-- Rolling back is fine for everybody. -/
theorem silent_rollback (hs : (κ.full ix).inv s) :
    (κ.full ix).inv (s.rollback i) ∧
      ∀ j, j ≠ some i → (κ.full ix).rely j s (s.rollback i) :=
  silent hs hs.1.rollback rfl fun _ hj => mine_rollback_ne hj

end StoreContract

/-! ## Inside a transaction -/

open StoreContract

section Rules

variable (κ : StoreContract K V E) (ix : Index K V) (C : L → Store K V E → Prop) (i : ℕ)

/-- The state in which process `i`, whose part of the store is `m`, runs a statement
labelled `l`. -/
structure At (φ : κ.TxAssert i) (m : Mine K V E) (l : L) (s : Store K V E) : Prop where
  wf : WF ix s
  inv : κ.inv s.pub
  mine : s.mine i = m
  holds : φ.holds s.pub
  needs : ∀ k, φ.needs k → m.held k ≠ none
  cond : C l s

/-- Inside its transaction process `i` may run the program: it changes nothing that belongs to
others and ends with a value `a` and a part `m'` of the store such that `Q a m'`, or with an
error. -/
def Body (φ : κ.TxAssert i) (m : Mine K V E) (p : Prog K V E L ε α)
    (Q : α → Mine K V E → Prop) : Prop :=
  (κ.full ix).Ok C i
    (fun r s => match r with
      | .ok a => ∃ m', Q a m' ∧ Local i m' φ s
      | .error _ => φ.holds s.pub)
    p.run (Local i m φ)

/-- As `Body`, with an assertion `χ` at the end that says at least what `φ` says, and with which
`Q a m' χ` holds. -/
def BodyTo (φ : κ.TxAssert i) (m : Mine K V E) (p : Prog K V E L ε α)
    (Q : α → Mine K V E → κ.TxAssert i → Prop) : Prop :=
  (κ.full ix).Ok C i
    (fun r s => match r with
      | .ok a => ∃ m' χ, Q a m' χ ∧ χ.Refines φ ∧ Local i m' χ s
      | .error _ => φ.holds s.pub)
    p.run (Local i m φ)

/-- Outside any transaction process `i` may run the program from `φ`: each transaction is a step
that the contract allows, and the program ends with `r` and `ψ` such that `R r ψ`. -/
def Run (φ : κ.Assert i) (p : Prog K V E L ε α)
    (R : Except (Exn ε) α → κ.Assert i → Prop) : Prop :=
  (κ.full ix).Ok C i (fun r s => ∃ ψ, R r ψ ∧ Local i Mine.idle ψ.tx s) p.run
    (Local i Mine.idle φ.tx)

variable {κ ix C i}

namespace At

variable {φ : κ.TxAssert i} {m : Mine K V E} {l : L} {s : Store K V E}

/-- The transaction reads its own writes over the committed rows. -/
theorem view (h : At κ ix C i φ m l s) (k : K) :
    (s.view i).row k = (m.tx.writes k).getD (s.pub.row k) := by
  rw [← h.mine]
  rfl

/-- A row that the transaction has not written is the committed one. -/
theorem row (h : At κ ix C i φ m l s) (hw : m.tx.writes k = none) {v : V k}
    (hv : (s.view i).row k = some v) : s.pub.row k = some v := by
  rwa [h.view, hw] at hv

/-- A locked row still has the value it was locked with. -/
theorem held (h : At κ ix C i φ m l s) {c : Option (V k)} (hc : m.held k = some c) :
    s.pub.row k = c := by
  rw [← h.mine] at hc
  simp only [Store.mine] at hc
  split_ifs at hc with hl
  exact Option.some.inj hc

end At

/-- What a process with the part `m` of the store may know after a statement: an assertion `χ` that
holds of what is committed, with the locks it needs, and with `P χ`. -/
def Learns (φ : κ.TxAssert i) (m : Mine K V E) (p : Pub K V E) (P : κ.TxAssert i → Prop) : Prop :=
  ∃ χ : κ.TxAssert i, χ.Refines φ ∧ χ.holds p ∧ (∀ k, χ.needs k → m.held k ≠ none) ∧ P χ

/-- It may always know what it knew before. -/
theorem At.learns {φ : κ.TxAssert i} {m' : Mine K V E} {l : L} {P : κ.TxAssert i → Prop}
    (h : At κ ix C i φ m l s) (hheld : ∀ k, m.held k ≠ none → m'.held k ≠ none) (hP : P φ) :
    Learns φ m' s.pub P :=
  ⟨φ, .refl φ, h.holds, fun k hk => hheld k (h.needs k hk), hP⟩

/-- Nothing has happened. -/
theorem At.unseen {φ : κ.TxAssert i} {l : L} (h : At κ ix C i φ m l s) : Unseen ix i s s :=
  ⟨h.wf, rfl, fun _ _ => rfl, fun _ hk => hk⟩

/-! ### Rules that learn -/

namespace BodyTo

variable {φ : κ.TxAssert i} {m : Mine K V E} {Q : α → Mine K V E → κ.TxAssert i → Prop} {l : L}

theorem pure (h : Q a m φ) : BodyTo κ ix C i φ m (Pure.pure a : Prog K V E L ε α) Q :=
  fun _ _ hs => ⟨m, φ, h, .refl φ, hs⟩

theorem throw : BodyTo κ ix C i φ m (MonadExcept.throw e : Prog K V E L ε α) Q :=
  fun _ _ hs => hs.2.1

/-- Sequencing: the second part starts with what the first has learned. -/
theorem seq {p : Prog K V E L ε β}
    (h : BodyTo κ ix C i φ m p fun b m' χ => BodyTo κ ix C i χ m' (g b) Q) :
    BodyTo κ ix C i φ m (p >>= g) Q := by
  refine Contract.Ok.bind h fun r => ?_
  cases r with
  | ok b =>
    refine Contract.Ok.exists fun m' => Contract.Ok.exists fun χ => ?_
    refine Contract.Ok.assume fun hg => Contract.Ok.assume fun hχ => Contract.Ok.post hg ?_
    intro r s _ hr
    cases r with
    | ok a =>
      obtain ⟨m'', χ', hQ, hχ', hs⟩ := hr
      exact ⟨m'', χ', hQ, hχ'.trans hχ, hs⟩
    | error e => exact hχ.holds _ hr
  | error e => exact fun s _ hs => hs

theorem post {Q' : α → Mine K V E → κ.TxAssert i → Prop} (h : BodyTo κ ix C i φ m p Q)
    (hQ : ∀ a m' χ, Q a m' χ → Q' a m' χ) : BodyTo κ ix C i φ m p Q' := by
  refine Contract.Ok.post h fun r s _ hr => ?_
  cases r with
  | ok a =>
    obtain ⟨m', χ, hm, hl⟩ := hr
    exact ⟨m', χ, hQ a m' χ hm, hl⟩
  | error e => exact hr

/-- What is learned may be forgotten. -/
theorem body {Q : α → Mine K V E → Prop} (h : BodyTo κ ix C i φ m p fun a m' _ => Q a m') :
    Body κ ix C i φ m p Q := by
  refine Contract.Ok.post h fun r s _ hr => ?_
  cases r with
  | ok a =>
    obtain ⟨m', χ, hQ, hχ, hm, hholds, hneeds⟩ := hr
    exact ⟨m', hQ, hm, hχ.holds _ hholds, fun k hk => hneeds k (hχ.needs k hk)⟩
  | error e => exact hr

/-- The rule of a statement that commits nothing. -/
theorem stmt {f : Store K V E → Option (Store K V E)} {g : Store K V E → Except (Exn ε) α}
    (h : ∀ s s', At κ ix C i φ m l s → f s = some s' → Unseen ix i s s' ∧
      ∀ a, g s = .ok a → Learns φ (s'.mine i) s.pub (Q a (s'.mine i))) :
    BodyTo κ ix C i φ m (ReadCommitted.stmt l f g) Q := by
  refine ⟨fun s s' hi hs hc hf => ?_, fun _ s _ hs => hs.2.1⟩
  have hat : At κ ix C i φ m l s := ⟨hi.1, hi.2, hs.1, hs.2.1, hs.2.2, hc⟩
  obtain ⟨hstep, hQ⟩ := h s s' hat hf
  have hp := hstep.pub
  obtain ⟨hi', hr⟩ := silent hi hstep.wf hp hstep.others
  cases hg : g s with
  | ok a =>
    obtain ⟨χ, hχ, hholds, hneeds, hQχ⟩ := hQ a hg
    refine ⟨hi', hr, Local i (s'.mine i) χ, ⟨rfl, hp ▸ hholds, hneeds⟩, local_stable _ _,
      fun t _ ht => ?_⟩
    simp only [hg]
    exact ⟨_, χ, hQχ, hχ, ht⟩
  | error e =>
    refine ⟨hi', hr, Local i (s'.mine i) φ,
      ⟨rfl, hp ▸ hs.2.1, fun k hk => hstep.held k (hs.1 ▸ hs.2.2 k hk)⟩, local_stable _ _,
      fun t _ ht => ?_⟩
    simp only [hg]
    exact ht.2.1

/-- Reading what is committed. -/
theorem select {g : Snapshot K V → α}
    (h : ∀ s, At κ ix C i φ m l s → Learns φ m s.pub (Q (g s.now) m)) :
    BodyTo κ ix C i φ m (ReadCommitted.select l g : Prog K V E L ε α) Q := by
  refine stmt fun s s' hs hf => ?_
  obtain rfl : s = s' := by simpa using hf
  rw [hs.mine]
  refine ⟨hs.unseen, fun a ha => ?_⟩
  obtain rfl : g s.now = a := by simpa using ha
  exact h s hs

/-- Reading inside the transaction. -/
theorem selectIn {g : Snapshot K V → α}
    (h : ∀ s, At κ ix C i φ m l s → Learns φ m s.pub (Q (g (s.view i)) m)) :
    BodyTo κ ix C i φ m (ReadCommitted.selectIn l i g : Prog K V E L ε α) Q := by
  refine stmt fun s s' hs hf => ?_
  obtain rfl : s = s' := by simpa using hf
  rw [hs.mine]
  refine ⟨hs.unseen, fun a ha => ?_⟩
  obtain rfl : g (s.view i) = a := by simpa using ha
  exact h s hs

/-- Changing the visible row under a key. -/
theorem change {u : V k → Option (Option (V k))} {Q : Bool → Mine K V E → κ.TxAssert i → Prop}
    (hno : ∀ s, At κ ix C i φ m l s → ((s.view i).row k).bind u = none →
      Learns φ m s.pub (Q false m))
    (hyes : ∀ s v w, At κ ix C i φ m l s → (s.view i).row k = some v → u v = some w →
      Learns φ ((m.hold k (s.pub.row k)).write k w) s.pub
        (Q true ((m.hold k (s.pub.row k)).write k w))) :
    BodyTo κ ix C i φ m (ReadCommitted.change ix l i k u : Prog K V E L ε Bool) Q := by
  refine stmt fun s s' hs hf => ?_
  cases hu : ((s.view i).row k).bind u with
  | none =>
    obtain rfl : s = s' := by simpa [hu] using hf
    rw [hs.mine]
    refine ⟨hs.unseen, fun a ha => ?_⟩
    obtain rfl : false = a := by simpa [hu] using ha
    exact hno s hs hu
  | some w =>
    obtain ⟨v, hv, huv⟩ := Option.bind_eq_some_iff.mp hu
    rw [hu] at hf
    cases hl : s.lock i k with
    | none => simp [hl] at hf
    | some s₁ =>
      simp only [hl] at hf
      split_ifs at hf with hwait hclash
      · -- the index refuses the row: nothing has changed
        obtain rfl : s = s' := by simpa using hf
        exact ⟨hs.unseen, fun a ha => by simp [hclash] at ha⟩
      · obtain rfl : s₁.write i k w = s' := by simpa using hf
        obtain ⟨hstep, hm⟩ := lock_write hs.wf hl (Or.inl rfl)
          (keys_lock hl ▸ hs.wf.mem_keys hv) (w := w)
            (fun v' hv' => by simpa [hv'] using hclash)
          (fun v' hv' => by simpa [hv'] using hwait)
        rw [hm, hs.mine]
        refine ⟨hstep, fun a ha => ?_⟩
        obtain rfl : true = a := by simpa [hclash] using ha
        exact hyes s v w hs hv huv

/-- `UPDATE ... WHERE`. -/
theorem update {p : V k → Bool} {u : V k → V k} {Q : Bool → Mine K V E → κ.TxAssert i → Prop}
    (hno : ∀ s, At κ ix C i φ m l s → (∀ v, (s.view i).row k = some v → p v = false) →
      Learns φ m s.pub (Q false m))
    (hyes : ∀ s v, At κ ix C i φ m l s → (s.view i).row k = some v → p v = true →
      Learns φ ((m.hold k (s.pub.row k)).write k (some (u v))) s.pub
        (Q true ((m.hold k (s.pub.row k)).write k (some (u v))))) :
    BodyTo κ ix C i φ m (ReadCommitted.update ix l i k p u : Prog K V E L ε Bool) Q := by
  refine change (fun s hs hu => hno s hs fun v hv => ?_) fun s v w hs hv hu => ?_
  · rw [hv] at hu
    by_contra hp
    simp [hp] at hu
  · split_ifs at hu with hp
    obtain rfl : some (u v) = w := by simpa using hu
    exact hyes s v hs hv hp

end BodyTo

/-! ### Rules -/

namespace Body

variable {φ : κ.TxAssert i} {m : Mine K V E} {Q : α → Mine K V E → Prop} {l : L}

theorem pure (h : Q a m) : Body κ ix C i φ m (Pure.pure a : Prog K V E L ε α) Q :=
  fun _ _ hs => ⟨m, h, hs⟩

theorem throw : Body κ ix C i φ m (MonadExcept.throw e : Prog K V E L ε α) Q :=
  fun _ _ hs => hs.2.1

theorem bind {M : β → Mine K V E → Prop} {p : Prog K V E L ε β} (h : Body κ ix C i φ m p M)
    (hg : ∀ b m', M b m' → Body κ ix C i φ m' (g b) Q) : Body κ ix C i φ m (p >>= g) Q := by
  refine Contract.Ok.bind h fun r => ?_
  cases r with
  | ok b => exact Contract.Ok.exists fun m' => Contract.Ok.assume fun hm => hg b m' hm
  | error e => exact fun s _ hs => hs

/-- Sequencing, with the rest of the program as what has to hold in between. -/
theorem seq {p : Prog K V E L ε β}
    (h : Body κ ix C i φ m p fun b m' => Body κ ix C i φ m' (g b) Q) :
    Body κ ix C i φ m (p >>= g) Q :=
  bind h fun _ _ hb => hb

theorem post {Q' : α → Mine K V E → Prop} (h : Body κ ix C i φ m p Q)
    (hQ : ∀ a m', Q a m' → Q' a m') : Body κ ix C i φ m p Q' := by
  refine Contract.Ok.post h fun r s _ hr => ?_
  cases r with
  | ok a =>
    obtain ⟨m', hm, hl⟩ := hr
    exact ⟨m', hQ a m' hm, hl⟩
  | error e => exact hr

/-- A part in which nothing is learned. -/
theorem plain (h : Body κ ix C i φ m p Q) : BodyTo κ ix C i φ m p fun a m' χ => χ = φ ∧ Q a m' := by
  refine Contract.Ok.post h fun r s _ hr => ?_
  cases r with
  | ok a =>
    obtain ⟨m', hQ, hs⟩ := hr
    exact ⟨m', φ, ⟨rfl, hQ⟩, .refl φ, hs⟩
  | error e => exact hr

/-- A part in which nothing is learned, before one in which something is. -/
theorem seqTo {p : Prog K V E L ε β} {Q : α → Mine K V E → κ.TxAssert i → Prop}
    (h : Body κ ix C i φ m p fun b m' => BodyTo κ ix C i φ m' (g b) Q) :
    BodyTo κ ix C i φ m (p >>= g) Q :=
  BodyTo.seq (BodyTo.post (plain h) fun _ _ _ hb => hb.1 ▸ hb.2)

/-- The rule of a statement that commits nothing. -/
theorem stmt {f : Store K V E → Option (Store K V E)} {g : Store K V E → Except (Exn ε) α}
    (h : ∀ s s', At κ ix C i φ m l s → f s = some s' → Unseen ix i s s' ∧
      ∀ a, g s = .ok a → Q a (s'.mine i)) :
    Body κ ix C i φ m (ReadCommitted.stmt l f g) Q := by
  refine BodyTo.body (BodyTo.stmt fun s s' hs hf => ?_)
  obtain ⟨hstep, hQ⟩ := h s s' hs hf
  exact ⟨hstep, fun a ha => hs.learns (hs.mine ▸ hstep.held) (hQ a ha)⟩

/-- Reading what is committed. -/
theorem select {g : Snapshot K V → α} (h : ∀ s, At κ ix C i φ m l s → Q (g s.now) m) :
    Body κ ix C i φ m (ReadCommitted.select l g : Prog K V E L ε α) Q :=
  BodyTo.body (BodyTo.select fun s hs => hs.learns (fun _ hk => hk) (h s hs))

/-- Reading inside the transaction. -/
theorem selectIn {g : Snapshot K V → α} (h : ∀ s, At κ ix C i φ m l s → Q (g (s.view i)) m) :
    Body κ ix C i φ m (ReadCommitted.selectIn l i g : Prog K V E L ε α) Q :=
  BodyTo.body (BodyTo.selectIn fun s hs => hs.learns (fun _ hk => hk) (h s hs))

theorem emit {e : E} {Q : Unit → Mine K V E → Prop} (h : Q () (m.push e)) :
    Body κ ix C i φ m (ReadCommitted.emit l i e : Prog K V E L ε Unit) Q := by
  refine stmt fun s s' hs hf => ?_
  obtain rfl : s.push i e = s' := by simpa using hf
  have hmine : (s.push i e).mine i = m.push e := by rw [mine_push, hs.mine]
  refine ⟨⟨hs.wf.push e, rfl, fun _ hj => mine_push_ne e hj, fun _ hk => ?_⟩, fun _ _ => ?_⟩
  · rwa [hmine, ← hs.mine]
  · rwa [hmine]

/-- Locking the row that is looked for. -/
theorem selectForUpdate {X : Type} {key : X → K} {find : Snapshot K V → Option X}
    {Q : Option ((x : X) × V (key x)) → Mine K V E → Prop}
    (hnone : ∀ s, At κ ix C i φ m l s →
      (∀ x, find (s.view i) = some x → (s.view i).row (key x) = none) → Q none m)
    (hsome : ∀ s x v, At κ ix C i φ m l s → find (s.view i) = some x →
      (s.view i).row (key x) = some v → Q (some ⟨x, v⟩) (m.hold (key x) (s.pub.row (key x)))) :
    Body κ ix C i φ m (ReadCommitted.selectForUpdate l i key find : Prog K V E L ε _) Q := by
  refine stmt fun s s' hs hf => ?_
  cases hx : find (s.view i) with
  | none =>
    obtain rfl : s = s' := by simpa [hx] using hf
    rw [hs.mine]
    refine ⟨hs.unseen, fun a ha => ?_⟩
    obtain rfl : none = a := by simpa [hx] using ha
    exact hnone s hs fun x h => by simp [hx] at h
  | some x =>
    cases hv : (s.view i).row (key x) with
    | none =>
      obtain rfl : s = s' := by simpa [hx, hv] using hf
      rw [hs.mine]
      refine ⟨hs.unseen, fun a ha => ?_⟩
      obtain rfl : none = a := by simpa [hx, hv] using ha
      refine hnone s hs fun y hy => ?_
      obtain rfl : x = y := by simpa [hx] using hy
      exact hv
    | some v =>
      have hl : s.lock i (key x) = some s' := by simpa [hx, hv] using hf
      rw [mine_lock hl, hs.mine]
      refine ⟨unseen_lock hs.wf hl, fun a ha => ?_⟩
      obtain rfl : some ⟨x, v⟩ = a := by simpa [hx, hv] using ha
      exact hsome s x v hs hx hv

/-- Changing the visible row under a key. -/
theorem change {u : V k → Option (Option (V k))} {Q : Bool → Mine K V E → Prop}
    (hno : ∀ s, At κ ix C i φ m l s → ((s.view i).row k).bind u = none → Q false m)
    (hyes : ∀ s v w, At κ ix C i φ m l s → (s.view i).row k = some v → u v = some w →
      Q true ((m.hold k (s.pub.row k)).write k w)) :
    Body κ ix C i φ m (ReadCommitted.change ix l i k u : Prog K V E L ε Bool) Q :=
  BodyTo.body (BodyTo.change (fun s hs hu => hs.learns (fun _ hk => hk) (hno s hs hu))
    fun s v w hs hv hu => hs.learns (fun _ hk => Mine.held_hold k _ hk) (hyes s v w hs hv hu))

/-- `UPDATE ... WHERE`. -/
theorem update {p : V k → Bool} {u : V k → V k} {Q : Bool → Mine K V E → Prop}
    (hno : ∀ s, At κ ix C i φ m l s → (∀ v, (s.view i).row k = some v → p v = false) → Q false m)
    (hyes : ∀ s v, At κ ix C i φ m l s → (s.view i).row k = some v → p v = true →
      Q true ((m.hold k (s.pub.row k)).write k (some (u v)))) :
    Body κ ix C i φ m (ReadCommitted.update ix l i k p u : Prog K V E L ε Bool) Q :=
  BodyTo.body (BodyTo.update (fun s hs hu => hs.learns (fun _ hk => hk) (hno s hs hu))
    fun s v hs hv hp => hs.learns (fun _ hk => Mine.held_hold k _ hk) (hyes s v hs hv hp))

/-- `UPDATE ... WHERE` of a row that the transaction has locked and that is visible as `r`. -/
theorem update_held {p : V k → Bool} {u : V k → V k} {c : Option (V k)} {r : V k}
    {Q : Bool → Mine K V E → Prop} (hheld : m.held k = some c)
    (hread : (m.tx.writes k).getD c = some r) (hp : p r = true)
    (h : Q true (m.write k (some (u r)))) :
    Body κ ix C i φ m (ReadCommitted.update ix l i k p u : Prog K V E L ε Bool) Q := by
  have hview : ∀ {s}, At κ ix C i φ m l s → (s.view i).row k = some r := fun hs => by
    rw [hs.view, hs.held hheld, hread]
  refine update (fun s hs hno => ?_) fun s v hs hv _ => ?_
  · simpa [hp] using hno r (hview hs)
  · obtain rfl : r = v := Option.some.inj ((hview hs).symm.trans hv)
    rw [hs.held hheld, hold_held hheld]
    exact h

/-- `save` of a row that the transaction has locked and read as `r`. -/
theorem storeRow [DecidableEq (V k)] {entity r : V k} {save : V k → V k → V k} {c : Option (V k)}
    {Q : Unit → Mine K V E → Prop} (hself : save r r = entity) (hheld : m.held k = some c)
    (hread : (m.tx.writes k).getD c = some r) (hsame : entity = r → Q () m)
    (hdiff : entity ≠ r → Q () (m.write k (some entity))) :
    Body κ ix C i φ m
      (ReadCommitted.storeRow ix l i k entity save (some r) : Prog K V E L ε Unit) Q := by
  rw [ReadCommitted.storeRow]
  split_ifs with heq
  · exact pure (hsame (hself.symm.trans heq))
  · refine seq (update_held hheld hread rfl (pure ?_))
    rw [hself]
    exact hdiff fun h => heq (hself.trans h)

/-- `save` of a locked row that is read again. -/
theorem saveRow [DecidableEq (V k)] {entity r : V k} {save : V k → V k → V k} {c : Option (V k)}
    {reload : L} {Q : Unit → Mine K V E → Prop} (hself : save r r = entity)
    (hheld : m.held k = some c) (hread : (m.tx.writes k).getD c = some r)
    (hsame : entity = r → Q () m) (hdiff : entity ≠ r → Q () (m.write k (some entity))) :
    Body κ ix C i φ m
      (ReadCommitted.saveRow ix reload l i k entity save : Prog K V E L ε Unit) Q := by
  refine seq (selectIn fun s hs => ?_)
  rw [hs.view, hs.held hheld, hread]
  exact storeRow hself hheld hread hsame hdiff

/-- `DELETE ... WHERE`. -/
theorem delete {p : V k → Bool} {Q : Bool → Mine K V E → Prop}
    (hno : ∀ s, At κ ix C i φ m l s → (∀ v, (s.view i).row k = some v → p v = false) → Q false m)
    (hyes : ∀ s v, At κ ix C i φ m l s → (s.view i).row k = some v → p v = true →
      Q true ((m.hold k (s.pub.row k)).write k none)) :
    Body κ ix C i φ m (ReadCommitted.delete ix l i k p : Prog K V E L ε Bool) Q := by
  refine change (fun s hs hu => hno s hs fun v hv => ?_) fun s v w hs hv hu => ?_
  · rw [hv] at hu
    by_contra hp
    simp [hp] at hu
  · split_ifs at hu with hp
    obtain rfl : none = w := by simpa using hu
    exact hyes s v hs hv hp

/-- `INSERT` under a new key. -/
theorem insert {v : V k} {Q : Unit → Mine K V E → Prop}
    (h : ∀ s, At κ ix C i φ m l s → k ∉ s.keys → ix.clashes k v (s.view i) = false →
      Q () ((m.hold k none).write k (some v))) :
    Body κ ix C i φ m (ReadCommitted.insert ix l i k v : Prog K V E L ε Unit) Q := by
  refine stmt fun s s' hs hf => ?_
  by_cases hk : k ∈ s.keys
  · simp [hk] at hf
  rw [if_neg hk] at hf
  cases hl : s.lock i k with
  | none => simp [hl] at hf
  | some s₁ =>
    simp only [hl] at hf
    split_ifs at hf with hwait hclash
    · obtain rfl : s = s' := by simpa using hf
      exact ⟨hs.unseen, fun a ha => by simp [hclash] at ha⟩
    · obtain rfl : (s₁.addKey k).write i k (some v) = s' := by simpa using hf
      obtain ⟨hstep, hm⟩ := lock_write hs.wf hl (Or.inr ⟨hk, rfl⟩)
        (by simp [Store.addKey])
        (w := some v) (fun v' hv' => by simpa [← Option.some.inj hv'] using hclash)
        (fun v' hv' => by simpa [← Option.some.inj hv'] using hwait)
      have hrow : s.pub.row k = none := by
        by_contra hr
        exact hk (hs.wf.keys k hr)
      rw [hm, hs.mine, hrow]
      exact ⟨hstep, fun _ _ => h s hs hk (by simpa using hclash)⟩

/-- `INSERT ... ON CONFLICT`. -/
theorem upsert {merge : Option (V k) → Option (V k)} {Q : Bool → Mine K V E → Prop}
    (hno : ∀ s, At κ ix C i φ m l s → merge ((s.view i).row k) = none →
      Q false (m.hold k (s.pub.row k)))
    (hyes : ∀ s v, At κ ix C i φ m l s → merge ((s.view i).row k) = some v →
      Q true ((m.hold k (s.pub.row k)).write k (some v))) :
    Body κ ix C i φ m (ReadCommitted.upsert ix l i k merge : Prog K V E L ε Bool) Q := by
  refine stmt fun s s' hs hf => ?_
  cases hl : s.lock i k with
  | none => simp [hl] at hf
  | some s₁ =>
    simp only [hl] at hf
    cases hm : merge ((s.view i).row k) with
    | none =>
      obtain rfl : s₁ = s' := by simpa [hm] using hf
      rw [mine_lock hl, hs.mine]
      refine ⟨unseen_lock hs.wf hl, fun a ha => ?_⟩
      obtain rfl : false = a := by simpa [hm] using ha
      exact hno s hs hm
    | some v =>
      simp only [hm] at hf
      by_cases hwait : ix.waits i k v s
      · simp [hwait] at hf
      by_cases hclash : ix.clashes k v (s.view i)
      · obtain rfl : s = s' := by simpa [hwait, hclash] using hf
        exact ⟨hs.unseen, fun a ha => by simp [hclash] at ha⟩
      rw [if_neg hwait, if_neg hclash, Option.some.injEq] at hf
      subst hf
      have hk : k ∈ (if k ∈ s₁.keys then s₁ else s₁.addKey k).keys := by
        split_ifs with h
        · exact h
        · simp [Store.addKey]
      obtain ⟨hstep, hmine⟩ := lock_write hs.wf hl
        (by
          split_ifs with hnew
          · exact Or.inl rfl
          · exact Or.inr ⟨keys_lock hl ▸ hnew, rfl⟩) hk (w := some v)
        (fun v' hv' => by simpa [← Option.some.inj hv'] using hclash)
        (fun v' hv' => by simpa [← Option.some.inj hv'] using hwait)
      rw [hmine, hs.mine]
      refine ⟨hstep, fun a ha => ?_⟩
      obtain rfl : true = a := by simpa [hclash] using ha
      exact hyes s v hs hm

end Body

/-! ## Transactions that change each row only in certain ways -/

end Rules

/-- A way in which rows may change: a preorder on the values under each key, `none` being a
row that is not there. -/
structure Changes (K : Type) (V : K → Type) where
  rel : (k : K) → Option (V k) → Option (V k) → Prop
  refl : ∀ k v, rel k v v
  trans : ∀ k u v w, rel k u v → rel k v w → rel k u w

/-- A transaction so far: every row it has written is locked and has changed as `W` allows,
and every event it will send satisfies `T`. -/
structure Mine.Within (W : Changes K V) (T : E → Prop) (m : Mine K V E) : Prop where
  rows : ∀ k w, m.tx.writes k = some w → ∃ c, m.held k = some c ∧ W.rel k c w
  events : ∀ e ∈ m.tx.events, T e

section Within

variable {W : Changes K V} {T : E → Prop} {κ : StoreContract K V E} {ix : Index K V}
  {C : L → Store K V E → Prop} {i : ℕ} {φ : κ.TxAssert i} {m : Mine K V E} {l : L}
  {s : Store K V E} {k : K}

theorem within_idle : (Mine.idle : Mine K V E).Within W T where
  rows k w h := by simp [Mine.idle, Tx.empty] at h
  events e he := by simp [Mine.idle, Tx.empty] at he

/-- Locking a row that is locked already finds the value it was locked with. -/
theorem Mine.Within.hold (h : m.Within W T) (hs : At κ ix C i φ m l s) :
    (m.hold k (s.pub.row k)).Within W T where
  events := h.events
  rows k' w hw := by
    obtain ⟨c, hc, hW⟩ := h.rows k' w hw
    by_cases hk : k' = k
    · subst hk
      exact ⟨c, by simp [Mine.hold, hs.held hc], hW⟩
    · exact ⟨c, by simp [Mine.hold, Function.update_of_ne hk, hc], hW⟩

/-- Writing a row that is locked, given what becomes of its committed value. -/
theorem Mine.Within.writeHeld (h : m.Within W T) {c w : Option (V k)} (hc : m.held k = some c)
    (hW : W.rel k c w) : (m.write k w).Within W T where
  events := h.events
  rows k' w' hw := by
    by_cases hk : k' = k
    · subst hk
      obtain rfl : w = w' := by simpa [Mine.write, Tx.write] using hw
      exact ⟨c, hc, hW⟩
    · exact h.rows k' w' (by simpa [Mine.write, Tx.write, Function.update_of_ne hk] using hw)

/-- How far the visible row has come from the committed one. -/
theorem Mine.Within.view (h : m.Within W T) (hs : At κ ix C i φ m l s) (k : K) :
    W.rel k (s.pub.row k) ((s.view i).row k) := by
  rw [hs.view]
  cases hv : m.tx.writes k with
  | none => exact W.refl k (s.pub.row k)
  | some v =>
    obtain ⟨c, hc, hcv⟩ := h.rows k v hv
    rw [hs.held hc]
    exact hcv

/-- Writing a row, given what becomes of the visible row. -/
theorem Mine.Within.write (h : m.Within W T) (hs : At κ ix C i φ m l s) {w : Option (V k)}
    (hW : W.rel k ((s.view i).row k) w) :
    ((m.hold k (s.pub.row k)).write k w).Within W T := by
  refine (h.hold hs).writeHeld (c := s.pub.row k) (by simp [Mine.hold]) ?_
  exact W.trans k _ _ w (h.view hs k) hW

theorem Mine.Within.push (h : m.Within W T) {e : E} (he : T e) : (m.push e).Within W T where
  rows := h.rows
  events e' he' := by
    simp only [Mine.push, Tx.push, List.mem_append, List.mem_singleton] at he'
    rcases he' with he' | rfl
    · exact h.events e' he'
    · exact he

/-- What becomes of each row when the transaction commits. -/
theorem Mine.Within.commit (h : m.Within W T) (hs : At κ ix C i φ m l s) (k : K) :
    W.rel k (s.pub.row k) ((s.pub.commit i m.tx).row k) := by
  cases hw : m.tx.writes k with
  | none => simpa [Pub.commit, hw] using W.refl k (s.pub.row k)
  | some w =>
    obtain ⟨c, hc, hcw⟩ := h.rows k w hw
    simpa [Pub.commit, hw, hs.held hc] using hcw

namespace Body

theorem selectForUpdate_within {X : Type} {key : X → K} {find : Snapshot K V → Option X}
    (h : m.Within W T) : Body κ ix C i φ m
      (ReadCommitted.selectForUpdate l i key find : Prog K V E L ε _) fun _ m' => m'.Within W T :=
  selectForUpdate (fun _ _ _ => h) fun _ _ _ hs _ _ => h.hold hs

theorem update_within {p : V k → Bool} {u : V k → V k} (h : m.Within W T)
    (hW : ∀ v, p v = true → W.rel k (some v) (some (u v))) : Body κ ix C i φ m
      (ReadCommitted.update ix l i k p u : Prog K V E L ε Bool) fun _ m' => m'.Within W T :=
  update (fun _ _ _ => h) fun _ v hs hv hp => h.write hs (by rw [hv]; exact hW v hp)

theorem upsert_within {merge : Option (V k) → Option (V k)} (h : m.Within W T)
    (hW : ∀ c v, merge c = some v → W.rel k c (some v)) : Body κ ix C i φ m
      (ReadCommitted.upsert ix l i k merge : Prog K V E L ε Bool) fun _ m' => m'.Within W T :=
  upsert (fun _ hs _ => h.hold hs) fun _ v hs hv => h.write hs (hW _ v hv)

/-- `save` of a row that may change in any way. -/
theorem saveRow_within [DecidableEq (V k)] {entity : V k} {save : V k → V k → V k} {reload : L}
    (h : m.Within W T) (hW : ∀ a b, W.rel k a b) : Body κ ix C i φ m
      (ReadCommitted.saveRow ix reload l i k entity save : Prog K V E L ε Unit)
      fun _ m' => m'.Within W T := by
  refine seq (selectIn fun s hs => ?_)
  cases (s.view i).row k with
  | none => exact bind (upsert_within h fun _ _ _ => hW _ _) fun _ _ h => pure h
  | some r =>
    rw [ReadCommitted.storeRow]
    split_ifs
    · exact pure h
    · exact bind (update_within h fun _ _ => hW _ _) fun _ _ h => pure h

/-- An insertion that `W` allows. -/
theorem insert_within {v : V k} (h : m.Within W T) (hW : W.rel k none (some v)) :
    Body κ ix C i φ m
      (ReadCommitted.insert ix l i k v : Prog K V E L ε Unit) fun _ m' => m'.Within W T := by
  refine insert fun s hs hk _ => ?_
  have hrow : s.pub.row k = none := by
    by_contra hr
    exact hk (hs.wf.keys k hr)
  have hview : (s.view i).row k = none := by
    by_contra hv
    obtain ⟨v', hv'⟩ := Option.ne_none_iff_exists'.mp hv
    exact hk (hs.wf.mem_keys hv')
  rw [← hrow]
  exact h.write hs (hview ▸ hW)

theorem emit_within {e : E} (h : m.Within W T) (he : T e) : Body κ ix C i φ m
    (ReadCommitted.emit l i e : Prog K V E L ε Unit) fun _ m' => m'.Within W T :=
  emit (h.push he)

end Body

end Within

/-! ## Whole programs -/

section Rules

variable {κ : StoreContract K V E} {ix : Index K V} {C : L → Store K V E → Prop} {i : ℕ}

namespace Run

variable {φ ψ : κ.Assert i} {R : Except (Exn ε) α → κ.Assert i → Prop} {l : L}

theorem pure (h : R (.ok a) φ) : Run κ ix C i φ (Pure.pure a : Prog K V E L ε α) R :=
  fun _ _ hs => ⟨φ, h, hs⟩

theorem throw (h : R (.error e) φ) : Run κ ix C i φ (MonadExcept.throw e : Prog K V E L ε α) R :=
  fun _ _ hs => ⟨φ, h, hs⟩

theorem post {R' : Except (Exn ε) α → κ.Assert i → Prop} (h : Run κ ix C i φ p R)
    (hR : ∀ r ψ, R r ψ → R' r ψ) : Run κ ix C i φ p R' := by
  refine Contract.Ok.post h fun r s _ hr => ?_
  obtain ⟨ψ, hψ, hs⟩ := hr
  exact ⟨ψ, hR r ψ hψ, hs⟩

/-- Sequencing: an error of the first program ends the whole. -/
theorem seq {p : Prog K V E L ε β} (h : Run κ ix C i φ p fun r ψ => match r with
      | .ok b => Run κ ix C i ψ (g b) R
      | .error e => R (.error e) ψ) : Run κ ix C i φ (p >>= g) R := by
  refine Contract.Ok.bind h fun r => ?_
  refine Contract.Ok.exists fun ψ => Contract.Ok.assume fun hψ => ?_
  cases r with
  | ok b => exact hψ
  | error e => exact fun s _ hs => ⟨ψ, hψ, hs⟩

/-- Handling an error. -/
theorem tryCatch {g : Exn ε → Prog K V E L ε α} (h : Run κ ix C i φ p fun r ψ => match r with
      | .ok a => R (.ok a) ψ
      | .error e => Run κ ix C i ψ (g e) R) : Run κ ix C i φ (MonadExcept.tryCatch p g) R := by
  refine Contract.Ok.bind h fun r => ?_
  refine Contract.Ok.exists fun ψ => Contract.Ok.assume fun hψ => ?_
  cases r with
  | ok a => exact fun s _ hs => ⟨ψ, hψ, hs⟩
  | error e => exact hψ

/-- Reading, when what was read supports a new assertion. -/
theorem observe {g : Snapshot K V → α}
    (h : ∀ s, At κ ix C i φ Mine.idle l s → ∃ ψ : κ.Assert i, ψ.holds s.pub ∧ R (.ok (g s.now)) ψ)
    (hX : R (.error .database) φ) : Run κ ix C i φ (ReadCommitted.select l g) R := by
  refine ⟨fun s s' hi hs hc hf => ?_, fun _ s _ hs => ⟨φ, hX, hs⟩⟩
  obtain rfl : s = s' := by simpa using hf
  obtain ⟨hi', hr⟩ := silent (i := i) hi hi.1 rfl fun _ _ => rfl
  obtain ⟨ψ, hψ, hR⟩ := h s ⟨hi.1, hi.2, hs.1, hs.2.1, hs.2.2, hc⟩
  exact ⟨hi', hr, Local i Mine.idle ψ.tx, local_idle hs.1 hψ, local_stable _ _,
    fun t _ ht => ⟨ψ, hR, ht⟩⟩

/-- Reading. -/
theorem select {g : Snapshot K V → α}
    (h : ∀ s, At κ ix C i φ Mine.idle l s → R (.ok (g s.now)) φ)
    (hX : R (.error .database) φ) : Run κ ix C i φ (ReadCommitted.select l g) R :=
  observe (fun s hs => ⟨φ, hs.holds, h s hs⟩) hX

/-- Calling the outside world, while others hold any locks. -/
theorem recordTo {e : E} {R : Except (Exn ε) Unit → κ.Assert i → Prop}
    (h : ∀ s, At κ ix C i φ Mine.idle l s →
      (∀ k, κ.guard k s.pub (s.pub.commit i (Tx.empty.push e))) ∧
        ∃ ψ : κ.Assert i, κ.Step i (Tx.empty.push e) s.pub ψ.holds ∧ R (.ok ()) ψ) :
    Run κ ix C i φ (ReadCommitted.record l i e) R := by
  refine ⟨fun s s' hi hs hc hf => ?_, fun he => by simp at he⟩
  obtain rfl : s.settle i (Tx.empty.push e) = s' := by simpa using hf
  obtain ⟨hG, ψ, hstep, hR⟩ := h s ⟨hi.1, hi.2, hs.1, hs.2.1, hs.2.2, hc⟩
  have hw : ∀ k, (Tx.empty.push e : Tx K V E).writes k ≠ none → s.locked k = some i :=
    fun k hk => absurd rfl hk
  obtain ⟨hi', hr⟩ := visible (hi.1.settle_push e) rfl hstep (fun _ hj => mine_settle_ne hw hj)
    fun k _ => hG k
  exact ⟨hi', hr, Local i Mine.idle ψ.tx, local_idle hs.1 hstep.2.2, local_stable _ _,
    fun t _ ht => ⟨ψ, hR, ht⟩⟩

/-- Calling the outside world under a contract that says nothing about locks. -/
theorem record {e : E} {R : Except (Exn ε) Unit → κ.Assert i → Prop}
    (h : ∀ s, At κ ix C i φ Mine.idle l s →
      ∃ ψ : κ.Assert i, κ.Step i (Tx.empty.push e) s.pub ψ.holds ∧ R (.ok ()) ψ)
    (hG : ∀ k p p', κ.guard k p p' := by intros; trivial) :
    Run κ ix C i φ (ReadCommitted.record l i e) R :=
  recordTo fun s hs => ⟨fun k => hG k _ _, h s hs⟩

/-- A transaction: its commit is one step that the contract allows, also to those who hold other
locks.  The confirmation of the commit may be lost. -/
theorem transactionTo (h : BodyTo κ ix C i φ Mine.idle p fun a m χ => ∀ s, At κ ix C i χ m l s →
      (∀ k, m.held k = none → κ.guard k s.pub (s.pub.commit i m.tx)) ∧
        ∃ ψ : κ.Assert i, κ.Step i m.tx s.pub ψ.holds ∧ R (.ok a) ψ ∧ R (.error .database) ψ)
    (hX : ∀ e, R (.error e) φ) : Run κ ix C i φ (ReadCommitted.transaction l i p) R := by
  refine Contract.Ok.bind h fun r => ?_
  have hroll : ∀ (e : Exn ε) (P : Store K V E → Prop), (∀ s, P s → φ.holds s.pub) →
      (κ.full ix).Ok C i (fun r s => ∃ ψ, R r ψ ∧ Local i Mine.idle ψ.tx s)
        (Proc.act l false (fun s => some (s.rollback i)) fun _ => .ret (Except.error e)) P := by
    intro e P hP
    refine ⟨fun s s' hi hs hc hf => ?_, fun he => by simp at he⟩
    obtain rfl : s.rollback i = s' := by simpa using hf
    obtain ⟨hi', hr⟩ := silent_rollback (i := i) hi
    exact ⟨hi', hr, Local i Mine.idle φ.tx, local_rollback _ (hP s hs), local_stable _ _,
      fun t _ ht => ⟨φ, hX e, ht⟩⟩
  cases r with
  | error e => exact hroll e _ fun s hs => hs
  | ok a =>
    refine Contract.Ok.exists fun m => Contract.Ok.exists fun χ => ?_
    refine Contract.Ok.assume fun hm => Contract.Ok.assume fun hχ => ⟨?_, fun _ => ?_⟩
    · intro s s' hi hs hc hf
      obtain rfl : s.commit i = s' := by simpa using hf
      have htx : m.tx = s.tx i := by
        rw [← hs.1]
        rfl
      obtain ⟨hguard, ψ, hstep, hok, hlost⟩ :=
        hm s ⟨hi.1, hi.2, hs.1, hs.2.1, hs.2.2, hc⟩
      rw [htx] at hstep hguard
      have hne : ∀ j, j ≠ i → (s.commit i).mine j = s.mine j := fun j hj =>
        (mine_rollback_ne hj).trans (mine_settle_ne (hi.1.written i) hj)
      obtain ⟨hi', hr⟩ := visible hi.1.commit rfl hstep hne
        fun k hk => hguard k (by rw [← hs.1, hk])
      refine ⟨hi', hr, Local i Mine.idle ψ.tx, local_commit _ hstep.2.2, local_stable _ _, ?_⟩
      refine ⟨fun s s' hi hs _ hf => ?_, fun _ s _ hs => ⟨ψ, hlost, hs⟩⟩
      obtain rfl : s = s' := by simpa using hf
      obtain ⟨hi', hr⟩ := silent (i := i) hi hi.1 rfl fun _ _ => rfl
      exact ⟨hi', hr, Local i Mine.idle ψ.tx, hs, local_stable _ _, fun t _ ht => ⟨ψ, hok, ht⟩⟩
    · exact hroll _ _ fun s hs => hχ.holds _ hs.2.1

/-- A transaction under a contract that says nothing about locks. -/
theorem transaction (h : Body κ ix C i φ Mine.idle p fun a m => ∀ s, At κ ix C i φ m l s →
      ∃ ψ : κ.Assert i, κ.Step i m.tx s.pub ψ.holds ∧ R (.ok a) ψ ∧ R (.error .database) ψ)
    (hX : ∀ e, R (.error e) φ) (hG : ∀ k p p', κ.guard k p p' := by intros; trivial) :
    Run κ ix C i φ (ReadCommitted.transaction l i p) R := by
  refine transactionTo (BodyTo.post (Body.plain h) fun a m χ hm s hs => ?_) hX
  obtain ⟨rfl, hm⟩ := hm
  exact ⟨fun k _ => hG k _ _, hm s hs⟩

end Run

/-! ## Programs that change nothing the contract speaks about -/

variable (κ) in
/-- Changes and events that the contract does not care about: any transaction within them keeps the
invariant and is tolerated by every process, whatever locks it holds. -/
def StoreContract.Neutral (W : Changes K V) (T : E → Prop) : Prop :=
  ∀ i (t : Tx K V E) p, κ.inv p → (∀ k w, t.writes k = some w → W.rel k (p.row k) w) →
    (∀ e ∈ t.events, T e) → κ.inv (p.commit i t) ∧ (∀ j, κ.rely j p (p.commit i t)) ∧
      ∀ k, κ.guard k p (p.commit i t)

/-- The commit of a transaction within neutral changes keeps the assertion of its process. -/
theorem StoreContract.Neutral.step {W : Changes K V} {T : E → Prop} (hN : κ.Neutral W T)
    {φ : κ.Assert i} {l : L} (hm : m.Within W T) (hs : At κ ix C i φ m l s) :
    (∀ k, κ.guard k s.pub (s.pub.commit i m.tx)) ∧ κ.Step i m.tx s.pub φ.holds := by
  have hrows : ∀ k w, m.tx.writes k = some w → W.rel k (s.pub.row k) w := fun k w hw => by
    obtain ⟨c, hc, hcw⟩ := hm.rows k w hw
    rwa [hs.held hc]
  obtain ⟨hi, hr, hG⟩ := hN i m.tx s.pub hs.inv hrows hm.events
  exact ⟨hG, hi, fun j _ => hr j, φ.stable _ _ hs.inv hi hs.holds (hr (some i))⟩

variable (κ ix C i) in
/-- The program ends, with whatever result, where `φ` still holds. -/
def Keeps (φ : κ.Assert i) (p : Prog K V E L ε α) : Prop :=
  Run κ ix C i φ p fun _ ψ => ψ = φ

namespace Keeps

variable {φ : κ.Assert i} {l : L} {W : Changes K V} {T : E → Prop}

theorem pure : Keeps κ ix C i φ (Pure.pure a : Prog K V E L ε α) := Run.pure rfl

theorem throw : Keeps κ ix C i φ (MonadExcept.throw e : Prog K V E L ε α) :=
  Run.throw rfl

/-- Sequencing after a program that keeps `φ`. -/
theorem seq {p : Prog K V E L ε β} {R : Except (Exn ε) α → κ.Assert i → Prop}
    (h : Keeps κ ix C i φ p) (hg : ∀ b, Run κ ix C i φ (g b) R) (hX : ∀ e, R (.error e) φ) :
    Run κ ix C i φ (p >>= g) R := by
  refine Run.seq (Run.post h fun r ψ hψ => ?_)
  subst hψ
  cases r with
  | ok b => exact hg b
  | error e => exact hX e

theorem bind {p : Prog K V E L ε β} (h : Keeps κ ix C i φ p) (hg : ∀ b, Keeps κ ix C i φ (g b)) :
    Keeps κ ix C i φ (p >>= g) :=
  seq h hg fun _ => rfl

theorem tryCatch {g : Exn ε → Prog K V E L ε α} (h : Keeps κ ix C i φ p)
    (hg : ∀ e, Keeps κ ix C i φ (g e)) : Keeps κ ix C i φ (MonadExcept.tryCatch p g) := by
  refine Run.tryCatch (Run.post h fun r ψ hψ => ?_)
  subst hψ
  cases r with
  | ok a => rfl
  | error e => exact hg e

theorem select {g : Snapshot K V → α} :
    Keeps κ ix C i φ (ReadCommitted.select l g : Prog K V E L ε α) :=
  Run.select (fun _ _ => rfl) rfl

/-- A transaction within neutral changes. -/
theorem transaction (hN : κ.Neutral W T) (h : Body κ ix C i φ Mine.idle p fun _ m => m.Within W T) :
    Keeps κ ix C i φ (ReadCommitted.transaction l i p) :=
  Run.transactionTo (BodyTo.post (Body.plain h) fun _ _ χ hm s hs => by
    obtain ⟨rfl, hm⟩ := hm
    obtain ⟨hG, hstep⟩ := hN.step hm hs
    exact ⟨fun k _ => hG k, φ, hstep, rfl, rfl⟩) fun _ => rfl

end Keeps

end Rules

/-! ## Soundness -/

/-- A program as a process: nobody looks at its value. -/
def Prog.process (p : Prog K V E L ε α) : Proc (Store K V E) L Unit :=
  p.run >>= fun _ => .ret ()

/-- The system that starts `handler r` for a request `r`; a process may crash when `crashes`
is set, and then its open transaction is rolled back. -/
def service {Req : Type} (crashes : Bool) (handler : Req → ℕ → Prog K V E L ε α) :
    System (Store K V E) L Req where
  prog r i := (handler r i).process
  crash := if crashes then some Store.rollback else none

namespace StoreContract

variable {κ : StoreContract K V E} {ix : Index K V} {C : L → Store K V E → Prop} {Req : Type}
  {crashes : Bool} {handler : Req → ℕ → Prog K V E L ε α}

/-- Every handler follows the contract from its starting assertion on. -/
def Serves (κ : StoreContract K V E) (ix : Index K V) (C : L → Store K V E → Prop)
    (handler : Req → ℕ → Prog K V E L ε α) : Prop :=
  ∀ r i, Run κ ix C i (κ.atStart i) (handler r i) fun _ _ => True

/-- Serving handlers make a following service. -/
theorem Serves.follows (h : Serves κ ix C handler) :
    Contract.Follows (service crashes handler) (κ.full ix) C where
  start i := by
    rintro s s' ⟨-, hi⟩ ⟨-, hi'⟩ ⟨hm, hs⟩ ⟨hf, hr, -⟩
    exact ⟨hf.trans hm, κ.start_stable i _ _ hi hi' hs hr⟩
  prog r i := Contract.Ok.pre (Contract.Ok.bind (h r i) fun _ _ _ _ => trivial)
    fun _ _ hs => local_idle hs.1 hs.2
  crash g hg i s hs := by
    cases crashes with
    | false => simp [service] at hg
    | true =>
      obtain rfl : Store.rollback = g := by simpa [service] using hg
      exact silent_rollback hs

/-- **Soundness.**  Handlers that follow the contract alone keep it in every run. -/
theorem sound (h : Serves κ ix C handler) {keys : List K} (hkeys : ∀ k, p₀.row k ≠ none → k ∈ keys)
    (hix : ix.Respected p₀.row) (h₀ : κ.inv p₀) (hs : ∀ i, κ.start i p₀)
    (hc : Reach (service crashes handler) C (Store.initial keys p₀) c) :
    WF ix c.state ∧ κ.inv c.state.pub :=
  (Contract.sound h.follows ⟨WF.initial hkeys hix, h₀⟩
    (fun i => ⟨mine_initial keys p₀ i, hs i⟩) hc).inv

/-- Soundness for one move of a run: nothing is committed, or the observer's `rely none`
holds of it. -/
theorem sound_step (h : Serves κ ix C handler) {keys : List K}
    (hkeys : ∀ k, p₀.row k ≠ none → k ∈ keys) (hix : ix.Respected p₀.row) (h₀ : κ.inv p₀)
    (hs : ∀ i, κ.start i p₀) {c' : Config (Store K V E) L} {m : Move Req}
    (hc : Reach (service crashes handler) C (Store.initial keys p₀) c) (hm : Meets C c m)
    (ha : (service crashes handler).apply c m = some c') :
    κ.rely none c.state.pub c'.state.pub := by
  rcases Contract.sound_step h.follows ⟨WF.initial hkeys hix, h₀⟩
    (fun i => ⟨mine_initial keys p₀ i, hs i⟩) hc hm ha with he | hr
  · rw [he]
    exact κ.refl none _
  · exact hr

/-- Soundness for the rest of a run, when what an observer may count on adds up. -/
theorem sound_execIf {C : L → Store K V E → Bool}
    (h : Serves κ ix (fun l s => C l s = true) handler) {keys : List K}
    (hkeys : ∀ k, p₀.row k ≠ none → k ∈ keys) (hix : ix.Respected p₀.row) (h₀ : κ.inv p₀)
    (hs : ∀ i, κ.start i p₀) (htrans : ∀ p q r, κ.rely none p q → κ.rely none q r → κ.rely none p r)
    {c' : Config (Store K V E) L} (ms : List (Move Req))
    (hc : Reach (service crashes handler) (fun l s => C l s = true) (Store.initial keys p₀) c)
    (hrun : (service crashes handler).execIf C c ms = some c') :
    κ.rely none c.state.pub c'.state.pub := by
  induction ms generalizing c with
  | nil =>
    obtain rfl := Option.some.inj hrun
    exact κ.refl none _
  | cons m ms ih =>
    rw [System.execIf] at hrun
    split_ifs at hrun with hm
    obtain ⟨d, hd, hrest⟩ := Option.bind_eq_some_iff.mp hrun
    have hmeets := meets_of_passes hm
    exact htrans _ _ _ (sound_step h hkeys hix h₀ hs hc hmeets hd) (ih (hc.step m hmeets hd) hrest)

end StoreContract

/-! ## The history of a run -/

/-- The committed state after some more commits. -/
def Pub.after (p : Pub K V E) (cs : List (Commit K V E)) : Pub K V E :=
  cs.foldl (fun q c => q.commit c.process c.tx) p

@[simp] theorem Pub.after_nil (p : Pub K V E) : p.after [] = p := rfl

theorem Pub.after_append (p : Pub K V E) (cs : List (Commit K V E)) (c : Commit K V E) :
    p.after (cs ++ [c]) = (p.after cs).commit c.process c.tx := by
  simp [Pub.after]

namespace StoreContract

variable {κ : StoreContract K V E} {ix : Index K V} {C : L → Store K V E → Prop} {Req : Type}
  {crashes : Bool} {handler : Req → ℕ → Prog K V E L ε α}

/-- If an observer sees nothing but commits that are as `P` says, then every commit in the
history of a run, from the state before it, is so. -/
theorem sound_history {P : Pub K V E → Commit K V E → Prop} (h : Serves κ ix C handler)
    (hP : ∀ p p', κ.rely none p p' → p' = p ∨ ∃ c, p' = p.commit c.process c.tx ∧ P p c)
    {keys : List K} (hkeys : ∀ k, p₀.row k ≠ none → k ∈ keys) (hix : ix.Respected p₀.row)
    (h₀ : κ.inv p₀) (hs : ∀ i, κ.start i p₀) (hhistory : p₀.history = [])
    (hc : Reach (service crashes handler) C (Store.initial keys p₀) c) :
    c.state.pub = p₀.after c.state.pub.history ∧
      ∀ n commit, c.state.pub.history[n]? = some commit →
        P (p₀.after (c.state.pub.history.take n)) commit := by
  induction hc with
  | init => simp [Store.initial, hhistory]
  | @step d d' m hd hm ha ih =>
    obtain ⟨hafter, hall⟩ := ih
    rcases hP _ _ (sound_step h hkeys hix h₀ hs hd hm ha) with heq | ⟨commit, heq, hcommit⟩
    · rw [heq]
      exact ⟨hafter, hall⟩
    · have hlog : d'.state.pub.history = d.state.pub.history ++ [commit] := by
        rw [heq]
        rfl
      refine ⟨?_, fun n commit' hn => ?_⟩
      · rw [hlog, Pub.after_append, ← hafter]
        exact heq
      · rw [hlog] at hn ⊢
        rcases Nat.lt_or_ge n d.state.pub.history.length with hlt | hge
        · rw [List.getElem?_append_left hlt] at hn
          rw [List.take_append_of_le_length hlt.le]
          exact hall n commit' hn
        · -- the new commit is the last one
          rw [List.getElem?_append_right hge, List.getElem?_singleton] at hn
          split_ifs at hn with hzero
          obtain rfl : commit = commit' := Option.some.inj hn
          obtain rfl : n = d.state.pub.history.length := by omega
          rw [List.take_left', ← hafter]
          · exact hcommit
          · rfl

end StoreContract

end ReadCommitted
