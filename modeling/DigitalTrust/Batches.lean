/-
# Deleting in batches

A library for jobs that take rows away in bounded batches.  A batch is what a query with an order
and a limit may return; among rows that are equal in the order any may come first (`IsBatch`).  A
`Picker` is one way of answering such a query in every round.  Rounds follow one another, and more
rows may be due in each (`rest`).
-/
import Mathlib

namespace Batches

variable {α : Type*} {key : α → ℤ} {n : ℕ}

/-! ## Batches -/

/-- What a query ordered by `key` and limited to `n` rows may return. -/
structure IsBatch (key : α → ℤ) (n : ℕ) (rows chosen : List α) : Prop where
  nodup : chosen.Nodup
  subset : chosen ⊆ rows
  length : chosen.length = min n rows.length
  le : ∀ a ∈ chosen, ∀ b ∈ rows, b ∉ chosen → key a ≤ key b

/-- A way of answering the query, in every round and for all rows. -/
structure Picker (key : α → ℤ) (n : ℕ) where
  pick : ℕ → List α → List α
  isBatch : ∀ (j : ℕ) {rows : List α}, rows.Nodup → IsBatch key n rows (pick j rows)

variable {q : α → Bool} {i j : ℕ} {x : α}

/-- Distinct rows that are counted are no more than the count. -/
theorem length_le_countP {l rows : List α} (hl : l.Nodup) (h : ∀ a ∈ l, a ∈ rows ∧ q a = true) :
    l.length ≤ rows.countP q := by
  rw [List.countP_eq_length_filter]
  exact List.Subperm.length_le
    (List.subperm_of_subset hl fun a ha => List.mem_filter.mpr (h a ha))

/-- A list that has all rows that are counted is no shorter than the count. -/
theorem countP_le_length {l rows : List α} (hrows : rows.Nodup)
    (h : ∀ a ∈ rows, q a = true → a ∈ l) : rows.countP q ≤ l.length := by
  rw [List.countP_eq_length_filter]
  refine List.Subperm.length_le (List.subperm_of_subset (hrows.filter q) fun a ha => ?_)
  exact h a (List.mem_of_mem_filter ha) (List.mem_filter.mp ha).2

namespace IsBatch

variable {rows chosen : List α} {x : α}

theorem length_le (h : IsBatch key n rows chosen) : chosen.length ≤ n := by
  rw [h.length]
  exact min_le_left _ _

/-- A batch that leaves a row out is full. -/
theorem length_eq (h : IsBatch key n rows chosen) (hx : x ∈ rows) (hnot : x ∉ chosen) :
    chosen.length = n := by
  by_contra hne
  have hlength := h.length
  have hall : rows.length ≤ chosen.length := by omega
  have hperm : chosen.Perm rows :=
    (List.subperm_of_subset h.nodup h.subset).perm_of_length_le hall
  exact hnot (hperm.mem_iff.mpr hx)

/-- A row is in every batch if the limit leaves room for all rows that may come before it. -/
theorem mem_of_countP_le (h : IsBatch key n rows chosen) (hx : x ∈ rows)
    (hfew : rows.countP (fun a => key a ≤ key x) ≤ n) : x ∈ chosen := by
  by_contra hnot
  have hmany : (x :: chosen).length ≤ rows.countP fun a => key a ≤ key x := by
    refine length_le_countP (List.nodup_cons.mpr ⟨hnot, h.nodup⟩) fun a ha => ?_
    rcases List.mem_cons.mp ha with rfl | ha
    · exact ⟨hx, by simp⟩
    · exact ⟨h.subset ha, by simpa using h.le a ha x hx hnot⟩
  have hfull := h.length_eq hx hnot
  rw [List.length_cons] at hmany
  omega

/-- A row is in no batch if the rows that come before it reach the limit. -/
theorem not_mem_of_le_countP [DecidableEq α] (h : IsBatch key n rows chosen) (hrows : rows.Nodup)
    (hmany : n ≤ rows.countP fun a => key a < key x) : x ∉ chosen := by
  intro hx
  have hfew : rows.countP (fun a => key a < key x) ≤ (chosen.erase x).length := by
    refine countP_le_length hrows fun a ha hlt => ?_
    rw [decide_eq_true_eq] at hlt
    have hne : a ≠ x := by
      rintro rfl
      exact lt_irrefl _ hlt
    rw [List.mem_erase_of_ne hne]
    by_contra hnot
    exact absurd (h.le x hx a ha hnot) (not_le.mpr hlt)
  have hpos : 0 < chosen.length := List.length_pos_of_mem hx
  have hle := h.length_le
  rw [List.length_erase_of_mem hx] at hfew
  omega

end IsBatch

/-- Another way in one round. -/
def Picker.replace (P : Picker key n) (j : ℕ) (Q : Picker key n) : Picker key n where
  pick i := if i = j then Q.pick i else P.pick i
  isBatch i rows hrows := by
    split
    · exact Q.isBatch i hrows
    · exact P.isBatch i hrows

@[simp] theorem Picker.replace_pick_self (P Q : Picker key n) (j : ℕ) :
    (P.replace j Q).pick j = Q.pick j := if_pos rfl

theorem Picker.replace_pick_of_ne (P Q : Picker key n) (h : i ≠ j) :
    (P.replace j Q).pick i = P.pick i := if_neg h

variable [DecidableEq α]

/-- Sorting the rows is one way. -/
def Picker.sorted (key : α → ℤ) (n : ℕ) : Picker key n where
  pick _ rows := (rows.insertionSort fun a b => key a ≤ key b).take n
  isBatch _ rows hrows := by
    set sorted := rows.insertionSort fun a b => key a ≤ key b with hsorted
    have hperm : sorted.Perm rows := List.perm_insertionSort _ rows
    have hpair : sorted.Pairwise fun a b => key a ≤ key b := by
      have htotal : Std.Total fun a b : α => key a ≤ key b := ⟨fun a b => le_total _ _⟩
      have htrans : IsTrans α fun a b => key a ≤ key b := ⟨fun a b c => le_trans⟩
      exact List.pairwise_insertionSort _ rows
    refine ⟨(hperm.nodup_iff.mpr hrows).sublist (List.take_sublist n sorted), ?_, ?_, ?_⟩
    · exact fun a ha => hperm.mem_iff.mp (List.mem_of_mem_take ha)
    · rw [List.length_take, hperm.length_eq]
    · intro a ha b hb hnot
      -- a row that is not among the first ones is among the others
      rw [← List.take_append_drop n sorted, List.pairwise_append] at hpair
      have hmem : b ∈ sorted.take n ++ sorted.drop n := by
        rw [List.take_append_drop]
        exact hperm.mem_iff.mpr hb
      exact hpair.2.2 a ha b ((List.mem_append.mp hmem).resolve_left hnot)

def Picker.coarsen {key' : α → ℤ} (P : Picker key' n) (h : ∀ a b, key' a ≤ key' b → key a ≤ key b) :
    Picker key n where
  pick := P.pick
  isBatch j rows hrows := by
    obtain ⟨hnodup, hsubset, hlength, hle⟩ := P.isBatch j hrows
    exact ⟨hnodup, hsubset, hlength, fun a ha b hb hnot => h a b (hle a ha b hb hnot)⟩

/-- A way that takes a row after all others that are equal to it. -/
def Picker.last (key : α → ℤ) (n : ℕ) (x : α) : Picker key n :=
  (Picker.sorted (fun a => 2 * key a + if a = x then 1 else 0) n).coarsen fun a b h => by
    split_ifs at h <;> omega

/-- A way that takes a row before all others that are equal to it. -/
def Picker.first (key : α → ℤ) (n : ℕ) (x : α) : Picker key n :=
  (Picker.sorted (fun a => 2 * key a + if a = x then 0 else 1) n).coarsen fun a b h => by
    split_ifs at h <;> omega

/-- `last` leaves `x` out while over `n` rows come no later. -/
theorem Picker.not_mem_last {rows : List α} (hrows : rows.Nodup) (j : ℕ)
    (hmany : n < rows.countP fun a => key a ≤ key x) : x ∉ (Picker.last key n x).pick j rows := by
  intro hx
  have hbatch := (Picker.sorted (fun a => 2 * key a + if a = x then 1 else 0) n).isBatch j hrows
  have hfew : rows.countP (fun a => key a ≤ key x) ≤
      ((Picker.last key n x).pick j rows).length := by
    refine countP_le_length hrows fun a ha hle => ?_
    rw [decide_eq_true_eq] at hle
    by_contra hnot
    have hne : a ≠ x := fun h => hnot (h ▸ hx)
    have hbehind := hbatch.le x hx a ha hnot
    simp only [if_true, if_neg hne] at hbehind
    omega
  have hle := hbatch.length_le
  exact absurd (hfew.trans hle) (not_le.mpr hmany)

/-- `first` takes `x` once under `n` rows come before it. -/
theorem Picker.mem_first {rows : List α} (hrows : rows.Nodup) (j : ℕ) (hx : x ∈ rows)
    (hfew : rows.countP (fun a => key a < key x) < n) : x ∈ (Picker.first key n x).pick j rows := by
  by_contra hnot
  have hbatch := (Picker.sorted (fun a => 2 * key a + if a = x then 0 else 1) n).isBatch j hrows
  have hmany : ((Picker.first key n x).pick j rows).length ≤
      rows.countP fun a => key a < key x := by
    refine length_le_countP hbatch.nodup fun a ha => ⟨hbatch.subset ha, ?_⟩
    have hne : a ≠ x := fun h => hnot (h ▸ ha)
    have hahead := hbatch.le a ha x hx hnot
    simp only [if_true, if_neg hne] at hahead
    rw [decide_eq_true_eq]
    omega
  have hfull : ((Picker.first key n x).pick j rows).length = n := hbatch.length_eq hx hnot
  omega

/-- The rows that a batch leaves. -/
def remove (rows chosen : List α) : List α := rows.filter (· ∉ chosen)

theorem mem_remove {rows chosen : List α} {a : α} :
    a ∈ remove rows chosen ↔ a ∈ rows ∧ a ∉ chosen := by
  simp [remove]

/-- A batch whose rows are all counted lowers the count by its length. -/
theorem countP_remove {rows chosen : List α} (hrows : rows.Nodup) (hchosen : chosen.Nodup)
    (hsubset : chosen ⊆ rows) (hq : ∀ a ∈ chosen, q a = true) :
    (remove rows chosen).countP q + chosen.length = rows.countP q := by
  have hperm : (rows.filter (· ∈ chosen)).Perm chosen := by
    refine (List.perm_ext_iff_of_nodup (hrows.filter _) hchosen).mpr fun a => ?_
    simp only [List.mem_filter, decide_eq_true_eq]
    exact ⟨fun h => h.2, fun h => ⟨hsubset h, h⟩⟩
  have hall : (rows.filter (· ∈ chosen)).countP q = chosen.length := by
    rw [hperm.countP_eq, List.countP_eq_length.mpr hq]
  have hsplit := List.countP_eq_countP_filter_add rows q (· ∈ chosen)
  simp only [hall, remove, decide_not] at hsplit ⊢
  omega

/-- No batch lowers a count by more than its length. -/
theorem countP_le_remove {rows : List α} (hrows : rows.Nodup) (chosen : List α) (q : α → Bool) :
    rows.countP q ≤ (remove rows chosen).countP q + chosen.length := by
  have hle : (rows.filter (· ∈ chosen)).length ≤ chosen.length := by
    refine List.Subperm.length_le (List.subperm_of_subset (hrows.filter _) fun a ha => ?_)
    simpa using (List.mem_filter.mp ha).2
  have hcount : (rows.filter (· ∈ chosen)).countP q ≤ (rows.filter (· ∈ chosen)).length :=
    List.countP_le_length
  have hsplit := List.countP_eq_countP_filter_add rows q (· ∈ chosen)
  simp only [remove, decide_not] at hsplit ⊢
  omega

/-! ## Rounds -/

section Rounds

variable (P : Picker key n) (due : ℕ → α → Bool) (rows : List α)

/-- The rows that are left before a round. -/
def rest : ℕ → List α
  | 0 => rows
  | j + 1 => remove (rest j) (P.pick j ((rest j).filter (due j)))

def batch (j : ℕ) : List α := P.pick j ((rest P due rows j).filter (due j))

/-- The number of rows taken away before a round, from the numbers of rows due. -/
def taken (n : ℕ) (E : ℕ → ℕ) : ℕ → ℕ
  | 0 => 0
  | j + 1 => min (E j) (taken n E j + n)

variable {rows} (hrows : rows.Nodup)

theorem rest_succ (j : ℕ) :
    rest P due rows (j + 1) = remove (rest P due rows j) (batch P due rows j) := rfl

include hrows

theorem rest_nodup (j : ℕ) : (rest P due rows j).Nodup := by
  induction j with
  | zero => exact hrows
  | succ j ih => exact ih.filter _

theorem batch_isBatch (j : ℕ) :
    IsBatch key n ((rest P due rows j).filter (due j)) (batch P due rows j) :=
  P.isBatch j ((rest_nodup P due hrows j).filter _)

theorem batch_subset_rest (j : ℕ) : batch P due rows j ⊆ rest P due rows j := fun _ ha =>
  List.mem_of_mem_filter ((batch_isBatch P due hrows j).subset ha)

theorem due_of_mem_batch {a : α} (ha : a ∈ batch P due rows j) : due j a = true :=
  (List.mem_filter.mp ((batch_isBatch P due hrows j).subset ha)).2

theorem length_batch (j : ℕ) :
    (batch P due rows j).length = min n ((rest P due rows j).countP (due j)) := by
  rw [(batch_isBatch P due hrows j).length, List.countP_eq_length_filter]

theorem length_batch_le (j : ℕ) : (batch P due rows j).length ≤ n := by
  rw [length_batch P due hrows]
  exact min_le_left _ _

/-- A round whose batch is counted as a whole. -/
theorem countP_rest_succ (j : ℕ) (hq : ∀ a ∈ batch P due rows j, q a = true) :
    (rest P due rows (j + 1)).countP q + (batch P due rows j).length =
      (rest P due rows j).countP q :=
  countP_remove (rest_nodup P due hrows j) (batch_isBatch P due hrows j).nodup
    (batch_subset_rest P due hrows j) hq

/-- Rounds take away no more than the limit each. -/
theorem countP_le_rest (q : α → Bool) (j : ℕ) :
    rows.countP q ≤ (rest P due rows j).countP q + n * j := by
  induction j with
  | zero => simp [rest]
  | succ j ih =>
    have hstep := countP_le_remove (rest_nodup P due hrows j) (batch P due rows j) q
    have hlength := length_batch_le P due hrows j
    rw [rest_succ, Nat.mul_succ]
    omega

omit hrows in
/-- Rows only leave. -/
theorem rest_subset (hij : i ≤ j) : rest P due rows j ⊆ rest P due rows i := by
  induction j, hij using Nat.le_induction with
  | base => exact List.Subset.refl _
  | succ j _ ih => exact fun a ha => ih (mem_remove.mp ha).1

/-! ### The number of rows due -/

omit hrows [DecidableEq α] in
theorem taken_le (E : ℕ → ℕ) (hE : Monotone E) (j : ℕ) : taken n E j ≤ E j := by
  cases j with
  | zero => exact Nat.zero_le _
  | succ j => exact (min_le_left _ _).trans (hE (Nat.le_succ j))

/-- How many rows that come to be due are left before a round. -/
theorem countP_due_rest (hdue : ∀ a, Monotone fun j => due j a) (hij : j ≤ i) :
    (rest P due rows j).countP (due i) + taken n (fun j => rows.countP (due j)) j =
      rows.countP (due i) := by
  induction j generalizing i with
  | zero => rfl
  | succ j ih =>
    have hlater : ∀ a ∈ batch P due rows j, due i a = true := by
      intro a ha
      have hnow := due_of_mem_batch P due hrows ha
      exact Bool.eq_true_of_true_le (hnow ▸ hdue a (Nat.le_of_succ_le hij))
    have hmono : Monotone fun j => rows.countP (due j) := by
      intro j j' hj
      refine List.countP_mono_left fun a _ ha => ?_
      exact Bool.eq_true_of_true_le (ha ▸ hdue a hj)
    have hstep := countP_rest_succ P due hrows j hlater
    have hlength := length_batch P due hrows j
    have hnow := ih le_rfl
    have hthen := ih (Nat.le_of_succ_le hij)
    have htaken := taken_le (n := n) _ hmono j
    rw [taken]
    omega

/-! ### Rows that are ahead of all others -/

/-- Rows that are due from the start and ahead of all others are taken first. -/
theorem countP_first_rest {first : α → Bool} (hdue : ∀ j a, first a = true → due j a = true)
    (hahead : ∀ a b, first a = true → first b = false → key a < key b) (j : ℕ) :
    (rest P due rows j).countP first = rows.countP first - n * j := by
  induction j with
  | zero => simp [rest]
  | succ j ih =>
    have hbatch := batch_isBatch P due hrows j
    have hle := length_batch_le P due hrows j
    by_cases hall : ∀ a ∈ batch P due rows j, first a = true
    · have hstep := countP_rest_succ P due hrows j hall
      have hlength := length_batch P due hrows j
      have hcount : (rest P due rows j).countP first ≤ (rest P due rows j).countP (due j) :=
        List.countP_mono_left fun a _ ha => hdue j a ha
      rw [Nat.mul_succ]
      omega
    · -- a row that is not ahead was taken, so all that are ahead were
      push Not at hall
      obtain ⟨b, hb, hlate⟩ := hall
      rw [ne_eq, Bool.not_eq_true] at hlate
      have hsub : ∀ a ∈ rest P due rows j, first a = true → a ∈ batch P due rows j := by
        intro a ha hfirst
        by_contra hnot
        have hmem : a ∈ (rest P due rows j).filter (due j) :=
          List.mem_filter.mpr ⟨ha, hdue j a hfirst⟩
        exact absurd (hbatch.le b hb a hmem hnot) (not_le.mpr (hahead a b hfirst hlate))
      have hzero : (rest P due rows (j + 1)).countP first = 0 := by
        rw [List.countP_eq_zero]
        intro a ha hfirst
        obtain ⟨hrest, hnot⟩ := mem_remove.mp ha
        exact hnot (hsub a hrest hfirst)
      have hfew : (rest P due rows j).countP first ≤ n :=
        (countP_le_length (rest_nodup P due hrows j) hsub).trans hle
      rw [hzero, Nat.mul_succ]
      omega

/-! ### How long a row can be left out -/

/-- The rows due in a round that may come before a row, with that row. -/
def upTo (key : α → ℤ) (due : ℕ → α → Bool) (x : α) (j : ℕ) (a : α) : Bool :=
  due j a && decide (key a ≤ key x)

/-- A row that has been left out in every round so far has had a full batch before it in each. -/
theorem countP_upTo_rest (hdue : ∀ a, Monotone fun j => due j a) (hx : due 0 x = true)
    (hij : j ≤ i + 1) (hrest : x ∈ rest P due rows j) :
    (rest P due rows j).countP (upTo key due x i) + n * j = rows.countP (upTo key due x i) := by
  induction j with
  | zero => simp [rest]
  | succ j ih =>
    obtain ⟨hbefore, hnot⟩ := mem_remove.mp hrest
    have hbatch := batch_isBatch P due hrows j
    have hxdue : due j x = true := Bool.eq_true_of_true_le (hx ▸ hdue x (Nat.zero_le j))
    have hxmem : x ∈ (rest P due rows j).filter (due j) := List.mem_filter.mpr ⟨hbefore, hxdue⟩
    have hcounted : ∀ a ∈ batch P due rows j, upTo key due x i a = true := by
      intro a ha
      have hnow := due_of_mem_batch P due hrows ha
      have hthen : due i a = true :=
        Bool.eq_true_of_true_le (hnow ▸ hdue a (Nat.le_of_succ_le_succ hij))
      simp [upTo, hthen, hbatch.le a ha x hxmem hnot]
    -- the batch is full, for a row that was due was left out
    have hfull := hbatch.length_eq hxmem hnot
    have hstep := countP_rest_succ P due hrows j hcounted
    have hprev := ih (by omega) hbefore
    rw [Nat.mul_succ]
    omega

/-- **A row that is left out** through a round has that many full batches before it, however the
query is answered. -/
theorem lt_countP_of_mem_rest (hdue : ∀ a, Monotone fun j => due j a) (hx : due 0 x = true)
    (hrest : x ∈ rest P due rows (j + 1)) : n * (j + 1) < rows.countP (upTo key due x j) := by
  have hcount := countP_upTo_rest P due hrows hdue hx le_rfl hrest
  have hpos : 0 < (rest P due rows (j + 1)).countP (upTo key due x j) := by
    rw [List.countP_pos_iff]
    refine ⟨x, hrest, ?_⟩
    have hxdue : due j x = true := Bool.eq_true_of_true_le (hx ▸ hdue x (Nat.zero_le j))
    simp [upTo, hxdue]
  omega

/-- **A row can be left out** as long as it has that many full batches before it: some way of
answering the query does so. -/
theorem exists_mem_rest (key : α → ℤ) (n : ℕ) (hx : x ∈ rows) :
    ∃ P : Picker key n, ∀ k, (∀ j < k, n * (j + 1) < rows.countP (upTo key due x j)) →
      x ∈ rest P due rows k := by
  refine ⟨.last key n x, fun k hk => ?_⟩
  induction k with
  | zero => exact hx
  | succ j ih =>
    have hrest := ih fun i hi => hk i (Nat.lt_succ_of_lt hi)
    refine mem_remove.mpr ⟨hrest, ?_⟩
    have hnodup := rest_nodup (.last key n x) due hrows j
    refine Picker.not_mem_last (hnodup.filter _) j ?_
    have hcount : ((rest (.last key n x) due rows j).filter (due j)).countP
        (fun a => key a ≤ key x) =
          (rest (.last key n x) due rows j).countP (upTo key due x j) := by
      rw [List.countP_filter]
      refine List.countP_congr fun a _ => ?_
      simp [upTo, and_comm]
    have hmany := hk j (Nat.lt_succ_self j)
    have hlow := countP_le_rest (.last key n x) due hrows (upTo key due x j) j
    rw [Nat.mul_succ] at hmany
    rw [hcount]
    omega

end Rounds

end Batches
