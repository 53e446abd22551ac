/-
# Tables whose statements run one after another

A library model of a relational table for calls that do not overlap: rows under distinct keys, in
the order of their creation.  An `UPDATE` of many rows that does overlap with others is `keys`
followed by `updateChosen`.  A call is a computation in `Except`: it either ends with a new table or
leaves the table as it was.
-/
import Mathlib

namespace Relational

/-! ## Calls that may be refused -/

section Calls

variable {ε α β : Type}

/-- Go on only if the condition holds. -/
def ensure (c : Prop) [Decidable c] (e : ε) : Except ε Unit := if c then .ok () else .error e

/-- The value that has to be there. -/
def need (o : Option α) (e : ε) : Except ε α := o.elim (.error e) .ok

@[simp] theorem ensure_eq_ok {c : Prop} [Decidable c] {e : ε} {u : Unit} :
    ensure c e = .ok u ↔ c := by
  by_cases h : c <;> simp [ensure, h]

@[simp] theorem need_eq_ok {o : Option α} {e : ε} {a : α} : need o e = .ok a ↔ o = some a := by
  cases o <;> simp [need]

/-- A sequence of computations succeeds if each of them does. -/
@[simp] theorem bind_eq_ok {x : Except ε α} {f : α → Except ε β} {b : β} :
    (x >>= f) = .ok b ↔ ∃ a, x = .ok a ∧ f a = .ok b := by
  cases x <;> simp [bind, Except.bind]

@[simp] theorem pure_eq_ok {a b : α} : (pure a : Except ε α) = .ok b ↔ a = b := by
  simp [pure, Except.pure]

end Calls

/-! ## Tables -/

/-- A table: rows under distinct keys, in the order of their creation. -/
structure Table (ι α : Type) where
  rows : List (ι × α)
  nodup : (rows.map Prod.fst).Nodup
  deriving DecidableEq

namespace Table

variable {ι α : Type} [DecidableEq ι]

def row (t : Table ι α) (k : ι) : Option α := t.rows.lookup k

/-- The rows that satisfy a condition, in the order of their creation. -/
def select (t : Table ι α) (p : ι → α → Bool) : List (ι × α) := t.rows.filter fun x => p x.1 x.2

/-- How many rows satisfy a condition. -/
def count (t : Table ι α) (p : ι → α → Bool) : ℕ := (t.select p).length

/-- The first row that satisfies a condition. -/
def first (t : Table ι α) (p : ι → α → Bool) : Option (ι × α) := (t.select p).head?

/-- `INSERT`: refused when the key is in use. -/
def insert (t : Table ι α) (k : ι) (a : α) : Option (Table ι α) :=
  if h : k ∈ t.rows.map Prod.fst then none
  else some ⟨t.rows ++ [(k, a)], by
    rw [List.map_append, List.nodup_append]
    refine ⟨t.nodup, by simp, ?_⟩
    intro k' hk' x hx
    obtain rfl : x = k := by simpa using hx
    exact fun e => h (e ▸ hk')⟩

/-- `UPDATE ... WHERE`. -/
def update (t : Table ι α) (p : ι → α → Bool) (u : α → α) : Table ι α :=
  ⟨t.rows.map fun x => (x.1, if p x.1 x.2 then u x.2 else x.2), by
    rw [List.map_map]
    exact t.nodup⟩

/-- Write the row under one key. -/
def put (t : Table ι α) (k : ι) (a : α) : Table ι α := t.update (fun k' _ => k' = k) fun _ => a

/-- `DELETE ... WHERE`. -/
def delete (t : Table ι α) (p : ι → α → Bool) : Table ι α :=
  ⟨t.rows.filter fun x => !p x.1 x.2, (t.nodup.sublist (List.filter_sublist.map _))⟩

/-! ### The row under each key -/

omit [DecidableEq ι] in
/-- Two rows under one key are the same row. -/
theorem eq_of_mem {t : Table ι α} {k : ι} {a b : α} (ha : (k, a) ∈ t.rows) (hb : (k, b) ∈ t.rows) :
    a = b := by
  have h := List.inj_on_of_nodup_map t.nodup ha hb rfl
  exact (Prod.mk.inj h).2

/-- The row under a key is the one that the list has for it. -/
theorem row_eq_some {t : Table ι α} {k : ι} {a : α} : t.row k = some a ↔ (k, a) ∈ t.rows := by
  constructor
  · intro h
    obtain ⟨l₁, l₂, hl, -⟩ := List.lookup_eq_some_iff.mp h
    simp [hl]
  · intro h
    cases hr : t.row k with
    | none => simpa using List.lookup_eq_none_iff.mp hr (k, a) h
    | some b =>
      obtain ⟨l₁, l₂, hl, -⟩ := List.lookup_eq_some_iff.mp hr
      rw [eq_of_mem h (b := b) (by simp [hl])]

theorem row_eq_none {t : Table ι α} {k : ι} : t.row k = none ↔ k ∉ t.rows.map Prod.fst := by
  rw [Option.eq_none_iff_forall_ne_some]
  simp [row_eq_some]

/-- The rows that a query finds. -/
theorem mem_select {t : Table ι α} {p : ι → α → Bool} {x : ι × α} :
    x ∈ t.select p ↔ t.row x.1 = some x.2 ∧ p x.1 x.2 = true := by
  rw [select, List.mem_filter, row_eq_some]

theorem first_eq_some {t : Table ι α} {p : ι → α → Bool} {x : ι × α} (h : t.first p = some x) :
    t.row x.1 = some x.2 ∧ p x.1 x.2 = true :=
  mem_select.mp (List.mem_of_mem_head? h)

/-- A query that finds nothing: no row satisfies the condition. -/
theorem first_eq_none {t : Table ι α} {p : ι → α → Bool} :
    t.first p = none ↔ ∀ k a, t.row k = some a → p k a = false := by
  rw [first, List.head?_eq_none_iff, List.eq_nil_iff_forall_not_mem]
  simp only [mem_select, Prod.forall, not_and, Bool.not_eq_true]

/-- The rows after an insertion. -/
theorem row_insert {t t' : Table ι α} {k : ι} {a : α} (h : t.insert k a = some t') (k' : ι) :
    t'.row k' = if k' = k then some a else t.row k' := by
  unfold insert at h
  split at h
  · simp at h
  · rename_i hk
    obtain rfl := Option.some.inj h
    split
    · rename_i e
      exact row_eq_some.mpr (by simp [e])
    · rename_i e
      ext b
      simp [row_eq_some, e]

/-- A row is inserted under a key that was free. -/
theorem row_of_insert {t t' : Table ι α} {k : ι} {a : α} (h : t.insert k a = some t') :
    t.row k = none := by
  unfold insert at h
  split at h
  · simp at h
  · rename_i hk
    exact row_eq_none.mpr hk

@[simp] theorem row_update (t : Table ι α) (p : ι → α → Bool) (u : α → α) (k : ι) :
    (t.update p u).row k = (t.row k).map fun a => if p k a then u a else a := by
  ext b
  simp only [row_eq_some, update, List.mem_map, Option.map_eq_some_iff, Prod.mk.injEq]
  constructor
  · rintro ⟨⟨k', a⟩, hm, rfl, rfl⟩
    exact ⟨a, hm, rfl⟩
  · rintro ⟨a, hm, rfl⟩
    exact ⟨(k, a), hm, rfl, rfl⟩

@[simp] theorem row_put (t : Table ι α) (k : ι) (a : α) (k' : ι) :
    (t.put k a).row k' = if k' = k then (t.row k).map fun _ => a else t.row k' := by
  rw [put, row_update]
  by_cases e : k' = k
  · simp [e]
  · simp [e]

@[simp] theorem row_delete (t : Table ι α) (p : ι → α → Bool) (k : ι) :
    (t.delete p).row k = (t.row k).filter fun a => !p k a := by
  ext b
  simp only [row_eq_some, delete, List.mem_filter, Option.filter_eq_some_iff]

/-! ### Counting -/

omit [DecidableEq ι] in
/-- The keys of the rows found are distinct. -/
theorem nodup_select (t : Table ι α) (p : ι → α → Bool) : ((t.select p).map Prod.fst).Nodup :=
  t.nodup.sublist (List.filter_sublist.map _)

omit [DecidableEq ι] in
/-- A weaker condition counts at least as many rows. -/
theorem count_mono (t : Table ι α) {p q : ι → α → Bool} (h : ∀ k a, p k a = true → q k a = true) :
    t.count p ≤ t.count q :=
  (List.monotone_filter_right t.rows fun x hx => h x.1 x.2 hx).length_le

/-- Beside the row under `k` another one is counted. -/
theorem one_lt_count {t : Table ι α} {p : ι → α → Bool} (h : 1 < t.count p) (k : ι) :
    ∃ k' a, k' ≠ k ∧ t.row k' = some a ∧ p k' a = true := by
  obtain ⟨x, y, l, hl⟩ : ∃ x y l, t.select p = x :: y :: l := by
    match hs : t.select p with
    | [] => simp [count, hs] at h
    | [x] => simp [count, hs] at h
    | x :: y :: l => exact ⟨x, y, l, rfl⟩
  have hne : x.1 ≠ y.1 := by
    have := t.nodup_select p
    rw [hl] at this
    simp only [List.map_cons, List.nodup_cons, List.mem_cons, not_or] at this
    exact this.1.1
  have hmem : ∀ z ∈ [x, y], t.row z.1 = some z.2 ∧ p z.1 z.2 = true := fun z hz =>
    mem_select.mp (hl ▸ by simp only [List.mem_cons, List.not_mem_nil] at hz ⊢; tauto)
  by_cases hx : x.1 = k
  · exact ⟨y.1, y.2, fun e => hne (hx.trans e.symm), hmem y (by simp)⟩
  · exact ⟨x.1, x.2, hx, hmem x (by simp)⟩

/-! ### Updates that overlap

Under READ COMMITTED an `UPDATE ... WHERE` chooses its rows when it begins, and writes those
of them that still satisfy its condition. -/

/-- The keys of the rows that satisfy a condition. -/
def keys (t : Table ι α) (p : α → Bool) : List ι := (t.select fun _ => p).map Prod.fst

/-- Write the chosen rows that satisfy a condition. -/
def updateChosen (t : Table ι α) (chosen : List ι) (p : α → Bool) (u : α → α) : Table ι α :=
  t.update (fun k a => decide (k ∈ chosen) && p a) u

theorem mem_keys {t : Table ι α} {p : α → Bool} {k : ι} :
    k ∈ t.keys p ↔ ∃ a, t.row k = some a ∧ p a = true := by
  simp only [keys, List.mem_map, mem_select, Prod.exists, exists_and_right, exists_eq_right]

/-- No row satisfies a condition. -/
theorem keys_eq_nil {t : Table ι α} {p : α → Bool} (h : t.keys p = []) {k : ι} {a : α}
    (ha : t.row k = some a) : p a = false := by
  by_contra hp
  have hmem : k ∈ t.keys p := mem_keys.mpr ⟨a, ha, by simpa using hp⟩
  rw [h] at hmem
  exact List.not_mem_nil hmem

/-- After an update that ends its condition, a row that still satisfies it was not chosen. -/
theorem mem_keys_updateChosen {t : Table ι α} {p : α → Bool} {u : α → α} {chosen : List ι}
    (hu : ∀ a, p (u a) = false) {k : ι} (h : k ∈ (t.updateChosen chosen p u).keys p) :
    k ∈ t.keys p ∧ k ∉ chosen := by
  obtain ⟨b, hb, hp⟩ := mem_keys.mp h
  rw [updateChosen, row_update] at hb
  obtain ⟨a, ha, rfl⟩ := Option.map_eq_some_iff.mp hb
  split_ifs at hp with hcond
  · rw [hu] at hp
    exact absurd hp Bool.false_ne_true
  · refine ⟨mem_keys.mpr ⟨a, ha, hp⟩, fun hmem => hcond ?_⟩
    rw [hp, Bool.and_true]
    exact decide_eq_true hmem

end Table

end Relational
