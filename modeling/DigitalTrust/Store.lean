/-
# A transactional store under READ COMMITTED

A library model of a relational database as the interleaved programs of `Interleaving.lean` see it:

* rows are found under keys (`K`), the row type depends on the key (`V k`);
* a transaction collects its writes and events in its own `Tx`, unseen before `commit`;
* a row that a transaction has written or selected `FOR UPDATE` is locked until it ends;
* every statement sees what is committed when it runs, over the transaction's own writes, and an
  `UPDATE ... WHERE` checks its condition on the row as it is once the lock is obtained;
* a unique index is a symmetric relation between rows: a write that clashes with a visible row is
  refused, and one that clashes with a row another transaction is still writing waits for it.

A statement outside any transaction is a transaction of its own, and so is a call that a program
makes to the outside world.
-/
import DigitalTrust.Interleaving

namespace ReadCommitted

open Interleaving

/-- The uncommitted part of a transaction: the rows it wrote (`some none` is a deleted
row) and the events that become visible with its commit. -/
structure Tx (K : Type) (V : K → Type) (E : Type) where
  writes : (k : K) → Option (Option (V k))
  events : List E

/-- A committed transaction and the process that ran it. -/
structure Commit (K : Type) (V : K → Type) (E : Type) where
  process : ℕ
  tx : Tx K V E

/-- What is committed: the rows, the processes that created and last wrote them, and the
history of commits, the first one first. -/
structure Pub (K : Type) (V : K → Type) (E : Type) where
  row : (k : K) → Option (V k)
  creator : K → Option ℕ
  writer : K → Option ℕ
  history : List (Commit K V E)

/-- What a statement can read: the keys in use, in the order of their creation, and
the row under each key. -/
structure Snapshot (K : Type) (V : K → Type) where
  keys : List K
  row : (k : K) → Option (V k)

/-- The store: what is committed, the open transaction of each process and the process
that holds the lock of each row. -/
structure Store (K : Type) (V : K → Type) (E : Type) where
  keys : List K
  pub : Pub K V E
  tx : ℕ → Tx K V E
  locked : K → Option ℕ

/-- A unique index: which pairs of rows may not both exist. -/
structure Index (K : Type) (V : K → Type) where
  clash : (k : K) → V k → (k' : K) → V k' → Bool
  symm : ∀ k v k' v', clash k v k' v' = clash k' v' k v

/-- How a statement ends when it does not succeed: the database failed, a unique index
refused a write, or the program raised an error of its own. -/
inductive Exn (ε : Type) where
  | database
  | unique
  | thrown (e : ε)
  deriving DecidableEq

/-- A program over the store that may raise an error. -/
abbrev Prog (K : Type) (V : K → Type) (E L ε α : Type) :=
  ExceptT (Exn ε) (Proc (Store K V E) L) α

variable {K : Type} {V : K → Type} {E L ε α β : Type}

namespace Tx

def empty : Tx K V E := ⟨fun _ => none, []⟩

def write [DecidableEq K] (t : Tx K V E) (k : K) (w : Option (V k)) : Tx K V E :=
  { t with writes := Function.update t.writes k (some w) }

def push (t : Tx K V E) (e : E) : Tx K V E := { t with events := t.events ++ [e] }

end Tx

/-- Committing a transaction of process `i`. -/
def Pub.commit (i : ℕ) (t : Tx K V E) (p : Pub K V E) : Pub K V E where
  row k := (t.writes k).getD (p.row k)
  creator k := match t.writes k, p.row k with
    | some (some _), none => some i
    | _, _ => p.creator k
  writer k := if (t.writes k).isSome then some i else p.writer k
  history := p.history ++ [⟨i, t⟩]

/-- A store's committed part with the given rows and nothing else. -/
def Pub.ofRows [DecidableEq K] (rows : List ((k : K) × V k)) : Pub K V E where
  row k := rows.dlookup k
  creator _ := none
  writer _ := none
  history := []

/-- The events of all commits, in order. -/
def Pub.trace (p : Pub K V E) : List E := p.history.flatMap fun c => c.tx.events

@[simp] theorem Pub.trace_commit (i : ℕ) (t : Tx K V E) (p : Pub K V E) :
    (p.commit i t).trace = p.trace ++ t.events := by
  simp [Pub.trace, Pub.commit]

/-- The entries of a commit in the log: its events in order, and the commit itself. -/
def Commit.entries (c : Commit K V E) : List (Commit K V E × Option E) :=
  c.tx.events.map (fun e => (c, some e)) ++ [(c, none)]

def Pub.log (p : Pub K V E) : List (Commit K V E × Option E) := p.history.flatMap Commit.entries

@[simp] theorem Pub.log_commit (i : ℕ) (t : Tx K V E) (p : Pub K V E) :
    (p.commit i t).log = p.log ++ Commit.entries ⟨i, t⟩ := by
  simp [Pub.log, Pub.commit]

/-- An entry of the log belongs to a commit, and its event is one of the commit's. -/
theorem Pub.mem_log {p : Pub K V E} {entry : Commit K V E × Option E} (h : entry ∈ p.log) :
    entry.1 ∈ p.history ∧ ∀ e, entry.2 = some e → e ∈ entry.1.tx.events := by
  obtain ⟨c, hc, hentry⟩ := List.mem_flatMap.mp h
  simp only [Commit.entries, List.mem_append, List.mem_map, List.mem_singleton] at hentry
  rcases hentry with ⟨e, he, rfl⟩ | rfl
  · exact ⟨hc, fun e' he' => Option.some.inj he' ▸ he⟩
  · exact ⟨hc, fun e' he' => by simp at he'⟩

namespace Store

/-- What the transaction of process `i` reads: its own writes over the committed rows. -/
def view (i : ℕ) (s : Store K V E) : Snapshot K V :=
  ⟨s.keys, fun k => ((s.tx i).writes k).getD (s.pub.row k)⟩

/-- What a statement outside any transaction reads. -/
def now (s : Store K V E) : Snapshot K V := ⟨s.keys, s.pub.row⟩

/-- Write a row inside the transaction of process `i`. -/
def write [DecidableEq K] (i : ℕ) (k : K) (w : Option (V k)) (s : Store K V E) : Store K V E :=
  { s with tx := Function.update s.tx i ((s.tx i).write k w) }

/-- Add an event to the transaction of process `i`. -/
def push (i : ℕ) (e : E) (s : Store K V E) : Store K V E :=
  { s with tx := Function.update s.tx i ((s.tx i).push e) }

/-- A whole transaction of process `i` in one step. -/
def settle (i : ℕ) (t : Tx K V E) (s : Store K V E) : Store K V E :=
  { s with pub := s.pub.commit i t }

def addKey (k : K) (s : Store K V E) : Store K V E := { s with keys := s.keys ++ [k] }

/-- Take the lock of a row; `none` while another process holds it. -/
def lock [DecidableEq K] (i : ℕ) (k : K) (s : Store K V E) : Option (Store K V E) :=
  if s.locked k = none ∨ s.locked k = some i then
    some { s with locked := Function.update s.locked k (some i) }
  else none

/-- Roll the transaction of process `i` back and release its locks; also what a crash of
the process does. -/
def rollback (i : ℕ) (s : Store K V E) : Store K V E :=
  { s with
    tx := Function.update s.tx i Tx.empty
    locked := fun k => if s.locked k = some i then none else s.locked k }

/-- Commit the transaction of process `i`. -/
def commit (i : ℕ) (s : Store K V E) : Store K V E := (s.settle i (s.tx i)).rollback i

end Store

/-! ## Unique indexes -/

namespace Index

variable [DecidableEq K] (ix : Index K V)

/-- Whether a row to be written under `k` clashes with a visible row under another key. -/
def clashes (k : K) (v : V k) (d : Snapshot K V) : Bool :=
  d.keys.any fun k' => k' ≠ k && (d.row k').any fun v' => ix.clash k v k' v'

variable {ix} in
theorem clashes_eq_false {k : K} {v : V k} {d : Snapshot K V}
    (h : ∀ k' v', k' ≠ k → d.row k' = some v' → ix.clash k v k' v' = false) :
    ix.clashes k v d = false := by
  rw [clashes, List.any_eq_false]
  intro k' _ hclash
  rw [Bool.and_eq_true, decide_eq_true_eq, Option.any_eq_true_iff_get] at hclash
  obtain ⟨hne, hsome, hclash⟩ := hclash
  rw [h k' _ hne (Option.some_get hsome).symm] at hclash
  exact absurd hclash Bool.false_ne_true

/-- Whether it clashes with a row, old or new, that a process other than `i` is writing. -/
def waits (i : ℕ) (k : K) (v : V k) (s : Store K V E) : Bool :=
  s.keys.any fun k' => k' ≠ k && match s.locked k' with
    | none => false
    | some j => j ≠ i && match (s.tx j).writes k' with
      | none => false
      | some w => w.any (ix.clash k v k') || (s.pub.row k').any (ix.clash k v k')

end Index

/-! ## Statements -/

/-- A statement: its effect and the value read from the state it runs in. -/
def stmt (l : L) (f : Store K V E → Option (Store K V E))
    (g : Store K V E → Except (Exn ε) α) : Prog K V E L ε α :=
  ExceptT.mk (.act l true f fun r => match r with
    | some s => .ret (g s)
    | none => .ret (.error .database))

/-- `SELECT` outside any transaction. -/
def select (l : L) (g : Snapshot K V → α) : Prog K V E L ε α :=
  stmt l some fun s => .ok (g s.now)

/-- `SELECT` inside the transaction of process `i`. -/
def selectIn (l : L) (i : ℕ) (g : Snapshot K V → α) : Prog K V E L ε α :=
  stmt l some fun s => .ok (g (s.view i))

/-- Send an event with the commit of the transaction of process `i`. -/
def emit (l : L) (i : ℕ) (e : E) : Prog K V E L ε Unit :=
  stmt l (fun s => some (s.push i e)) fun _ => .ok ()

/-- Record a call of process `i` to the outside world. -/
def record (l : L) (i : ℕ) (e : E) : Prog K V E L ε Unit :=
  ExceptT.mk (.act l false (fun s => some (s.settle i (Tx.empty.push e))) fun _ => .ret (.ok ()))

/-- Run `body` as the transaction of process `i`: commit when it ends, roll back on an error or a
failed commit.  A commit whose confirmation is lost has taken effect and still raises an error. -/
def transaction (l : L) (i : ℕ) (body : Prog K V E L ε α) : Prog K V E L ε α :=
  ExceptT.mk (body.run >>= fun r => match r with
    | .error e => .act l false (fun s => some (s.rollback i)) fun _ => .ret (.error e)
    | .ok a => .act l true (fun s => some (s.commit i)) fun r => match r with
      | none => .act l false (fun s => some (s.rollback i)) fun _ => .ret (.error .database)
      | some _ => .act l true some fun r => match r with
        | none => .ret (.error .database)
        | some _ => .ret (.ok a))

section Writes

variable [DecidableEq K] (ix : Index K V)

/-- `SELECT ... FOR UPDATE` of the row under the key that `find` picks. -/
def selectForUpdate {X : Type} (l : L) (i : ℕ) (key : X → K) (find : Snapshot K V → Option X) :
    Prog K V E L ε (Option ((x : X) × V (key x))) :=
  stmt l
    (fun s => match find (s.view i) with
      | none => some s
      | some x => match (s.view i).row (key x) with
        | none => some s
        | some _ => s.lock i (key x))
    (fun s => .ok (match find (s.view i) with
      | none => none
      | some x => ((s.view i).row (key x)).map fun v => ⟨x, v⟩))

/-- What becomes of the visible row under `k`: `none` when the statement leaves it alone.
The row's lock is needed, and the unique index has its say about the new row. -/
def change (l : L) (i : ℕ) (k : K) (u : V k → Option (Option (V k))) : Prog K V E L ε Bool :=
  stmt l
    (fun s => match ((s.view i).row k).bind u with
      | none => some s
      | some w => match s.lock i k with
        | none => none
        | some s' =>
          if w.any fun v => ix.waits i k v s then none
          else if w.any fun v => ix.clashes k v (s.view i) then some s
          else some (s'.write i k w))
    (fun s => match ((s.view i).row k).bind u with
      | none => .ok false
      | some w => if w.any fun v => ix.clashes k v (s.view i) then .error .unique else .ok true)

/-- `UPDATE ... WHERE` of one row inside the transaction of process `i`; the value says
whether a row was updated. -/
def update (l : L) (i : ℕ) (k : K) (p : V k → Bool) (u : V k → V k) : Prog K V E L ε Bool :=
  change ix l i k fun v => if p v then some (some (u v)) else none

/-- `DELETE ... WHERE` of one row inside the transaction of process `i`. -/
def delete (l : L) (i : ℕ) (k : K) (p : V k → Bool) : Prog K V E L ε Bool :=
  change ix l i k fun v => if p v then some none else none

/-- `INSERT` of a row under a new key inside the transaction of process `i`.  Keys are
random identifiers: a statement whose key is already in use never runs. -/
def insert (l : L) (i : ℕ) (k : K) (v : V k) : Prog K V E L ε Unit :=
  stmt l
    (fun s =>
      if k ∈ s.keys then none
      else match s.lock i k with
        | none => none
        | some s' =>
          if ix.waits i k v s then none
          else if ix.clashes k v (s.view i) then some s
          else some ((s'.addKey k).write i k (some v)))
    (fun s => if ix.clashes k v (s.view i) then .error .unique else .ok ())

/-- `INSERT ... ON CONFLICT DO UPDATE ... WHERE`: `merge` gives the row to be written, and `none`
when the condition leaves it alone.  The row is locked in any case. -/
def upsert (l : L) (i : ℕ) (k : K) (merge : Option (V k) → Option (V k)) :
    Prog K V E L ε Bool :=
  stmt l
    (fun s => match s.lock i k with
      | none => none
      | some s' => match merge ((s.view i).row k) with
        | none => some s'
        | some v =>
          if ix.waits i k v s then none
          else if ix.clashes k v (s.view i) then some s
          else some ((if k ∈ s'.keys then s' else s'.addKey k).write i k (some v)))
    (fun s => match merge ((s.view i).row k) with
      | none => .ok false
      | some v => if ix.clashes k v (s.view i) then .error .unique else .ok true)

/-- The write of a `save` over the row that it has read: a row that is missing is inserted, and
`save read` sets the columns in which the entity differs from the row read. -/
def storeRow (l : L) (i : ℕ) (k : K) [DecidableEq (V k)] (entity : V k)
    (save : V k → V k → V k) : Option (V k) → Prog K V E L ε Unit
  | none => do
    let _ ← upsert ix l i k fun cur => match cur with
      | none => some entity
      | some _ => none
    pure ()
  | some read =>
    if save read read = read then pure ()
    else do
      let _ ← update ix l i k (fun _ => true) (save read)
      pure ()

/-- `save` of a repository inside the transaction of process `i`: read the row, then write it. -/
def saveRow (reload write : L) (i : ℕ) (k : K) [DecidableEq (V k)] (entity : V k)
    (save : V k → V k → V k) : Prog K V E L ε Unit := do
  let read ← selectIn reload i fun d => d.row k
  storeRow ix write i k entity save read

end Writes

end ReadCommitted
