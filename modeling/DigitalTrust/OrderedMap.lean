/-
# Maps in insertion order

A library model of the `Map` of JavaScript: entries under distinct keys, in the order in
which the keys were set first.  A `set` of a key that is present keeps its place, so a map
that deletes a key before it sets it holds its entries in the order of their age.

What a proof needs is the entry under each key (`get_set`, `get_remove`,
`get_of_get_makeRoom`) and the number of entries (`size_set_makeRoom`).
-/
import DigitalTrust.Table

/-- A map in insertion order. -/
abbrev OrderedMap (K V : Type) := Relational.Table K V

namespace OrderedMap

open Relational

variable {K V : Type} [DecidableEq K]

def empty : OrderedMap K V := ⟨[], List.nodup_nil⟩

def get (m : OrderedMap K V) (k : K) : Option V := m.row k

def remove (m : OrderedMap K V) (k : K) : OrderedMap K V := m.delete fun k' _ => k' = k

def set (m : OrderedMap K V) (k : K) (v : V) : OrderedMap K V := (m.insert k v).getD (m.put k v)

def size (m : OrderedMap K V) : ℕ := m.rows.length

/-- The map without the key that `keys().next()` yields. -/
def dropOldest (m : OrderedMap K V) : OrderedMap K V :=
  match m.rows.head? with
  | none => m
  | some oldest => m.remove oldest.1

/-- Room for one more entry: a full map drops its oldest one. -/
def makeRoom (m : OrderedMap K V) (bound : ℕ) : OrderedMap K V :=
  if m.size ≥ bound then m.dropOldest else m

@[simp] theorem get_empty (k : K) : (empty : OrderedMap K V).get k = none := rfl

@[simp] theorem get_remove (m : OrderedMap K V) (k k' : K) :
    (m.remove k).get k' = if k' = k then none else m.get k' := by
  rw [remove, get, Table.row_delete, get]
  by_cases h : k' = k
  · subst h
    cases m.row k' <;> simp
  · cases m.row k' <;> simp [h]

@[simp] theorem get_set (m : OrderedMap K V) (k : K) (v : V) (k' : K) :
    (m.set k v).get k' = if k' = k then some v else m.get k' := by
  unfold set get
  cases h : m.insert k v with
  | some m' => exact Table.row_insert h k'
  | none =>
    have hrow : m.row k ≠ none := by
      rw [Ne, Table.row_eq_none, not_not]
      by_contra hk
      simp [Table.insert, hk] at h
    obtain ⟨a, ha⟩ := Option.ne_none_iff_exists'.mp hrow
    simp [ha]

/-- What is left after the oldest entry is dropped was there before. -/
theorem get_of_get_dropOldest {m : OrderedMap K V} {k : K} {v : V}
    (h : m.dropOldest.get k = some v) : m.get k = some v := by
  unfold dropOldest at h
  split at h
  · exact h
  · rw [get_remove] at h
    split_ifs at h
    exact h

theorem size_remove_le (m : OrderedMap K V) (k : K) : (m.remove k).size ≤ m.size :=
  List.length_filter_le _ _

/-- A write adds one entry at most. -/
theorem size_set_le (m : OrderedMap K V) (k : K) (v : V) : (m.set k v).size ≤ m.size + 1 := by
  unfold set size
  cases h : m.insert k v with
  | none => simp [Table.put, Table.update]
  | some m' =>
    unfold Table.insert at h
    split_ifs at h
    simp [← Option.some.inj h]

/-- Dropping the oldest entry of a map that has one makes room. -/
theorem size_dropOldest (m : OrderedMap K V) (h : 0 < m.size) : m.dropOldest.size < m.size := by
  obtain ⟨x, l, hl⟩ := List.exists_cons_of_length_pos h
  have hhead : m.rows.head? = some x := by simp [hl]
  have hfilter : (m.dropOldest).rows = m.rows.filter fun y => !decide (y.1 = x.1) := by
    simp only [dropOldest, hhead]
    rfl
  rw [size, size, hfilter, hl, List.filter_cons_of_neg (by simp)]
  exact Nat.lt_succ_of_le (List.length_filter_le _ _)

theorem get_of_get_makeRoom {m : OrderedMap K V} {bound : ℕ} {k : K} {v : V}
    (h : (m.makeRoom bound).get k = some v) : m.get k = some v := by
  unfold makeRoom at h
  split_ifs at h
  · exact get_of_get_dropOldest h
  · exact h

/-- An entry that is set where room was made does not exceed the bound. -/
theorem size_set_makeRoom (m : OrderedMap K V) (k : K) (v : V) {bound : ℕ} (hbound : 0 < bound)
    (h : m.size ≤ bound) : ((m.makeRoom bound).set k v).size ≤ bound := by
  refine (size_set_le _ k v).trans ?_
  unfold makeRoom
  split_ifs with hfull
  · have hdrop := size_dropOldest m (by omega)
    omega
  · omega

end OrderedMap
