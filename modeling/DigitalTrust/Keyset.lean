/-
# Keyset pagination

A library model of a listing that is read page by page: one more row than asked for tells whether
there is a further page, and the last row of the page yields the condition of the next query.
`visits_iff` says when following the pages visits the whole listing, each row once and in order.
-/
import Mathlib

namespace Keyset

variable {α : Type}

/-- A page of the listing `L`: at most `limit` rows that satisfy `p`, and the row to continue
after if there are more. -/
def page (L : List α) (limit : ℕ) (p : α → Bool) : List α × Option α :=
  let rows := (L.filter p).take (limit + 1)
  if limit < rows.length then (rows.take limit, (rows.take limit).getLast?) else (rows, none)

/-- Follow the pages of the listing, at most `fuel` of them.  `resume` makes the condition of
the next page from the last row of a page; it may be refused. -/
def traverse (L : List α) (limit : ℕ) (resume : α → Option (α → Bool)) :
    ℕ → (α → Bool) → Option (List α)
  | 0, _ => none
  | fuel + 1, p =>
    match page L limit p with
    | (items, none) => some items
    | (items, some last) =>
      (resume last).bind fun q => (traverse L limit resume fuel q).map fun rest => items ++ rest

/-- Following the pages ends after the whole listing was visited, each row once, in order. -/
def Visits (L : List α) (limit : ℕ) (resume : α → Option (α → Bool)) : Prop :=
  ∃ fuel, traverse L limit resume fuel (fun _ => true) = some L

/-- At the end of a page after which `n` rows have been visited and more are to come, the last
row visited yields the condition that selects exactly those. -/
def ExactAt (L : List α) (resume : α → Option (α → Bool)) (n : ℕ) : Prop :=
  ∀ a, L[n - 1]? = some a → ∃ q, resume a = some q ∧ L.filter q = L.drop n

/-! ## One page -/

variable {L : List α} {limit : ℕ} {resume : α → Option (α → Bool)} {p : α → Bool}

/-- The last page. -/
theorem page_of_le {j : ℕ} (hp : L.filter p = L.drop j) (h : L.length ≤ j + limit) :
    page L limit p = (L.drop j, none) := by
  have hlen : (L.drop j).length ≤ limit := by
    rw [List.length_drop]
    omega
  rw [page, hp, List.take_of_length_le (by omega)]
  simp only [if_neg (not_lt.mpr hlen)]

/-- A page that is followed by another one. -/
theorem page_of_lt {j : ℕ} (hp : L.filter p = L.drop j) (hlimit : 1 ≤ limit)
    (h : j + limit < L.length) :
    page L limit p = ((L.drop j).take limit, L[j + limit - 1]?) := by
  have hlen : ((L.drop j).take (limit + 1)).length = limit + 1 := by
    rw [List.length_take, List.length_drop]
    omega
  have hlast : ((L.drop j).take limit).getLast? = L[j + limit - 1]? := by
    rw [List.getLast?_eq_getElem?, List.length_take, List.length_drop,
      List.getElem?_take_of_lt (by omega), List.getElem?_drop]
    congr 1
    omega
  rw [page, hp]
  simp only [hlen, Nat.lt_succ_self, if_true, List.take_take, Nat.min_eq_left (Nat.le_succ limit),
    hlast]

/-- What a traversal visits first. -/
theorem traverse_head {j fuel : ℕ} {M : List α} (hp : L.filter p = L.drop j) (hlimit : 1 ≤ limit)
    (h : traverse L limit resume fuel p = some M) : M.head? = L[j]? := by
  cases fuel with
  | zero => simp [traverse] at h
  | succ fuel =>
    rw [traverse] at h
    rcases Nat.lt_or_ge (j + limit) L.length with hlt | hge
    · rw [page_of_lt hp hlimit hlt, List.getElem?_eq_getElem (by omega)] at h
      obtain ⟨q, -, h⟩ := Option.bind_eq_some_iff.mp h
      obtain ⟨rest, -, rfl⟩ := Option.map_eq_some_iff.mp h
      rw [List.head?_append, List.head?_take, if_neg (by omega), List.head?_drop,
        List.getElem?_eq_getElem (by omega)]
      rfl
    · rw [page_of_le hp hge] at h
      rw [← Option.some.inj h, List.head?_drop]

/-! ## The whole listing -/

/-- Conditions that select what comes after each boundary lead through the listing. -/
theorem traverse_of_exact (hlimit : 1 ≤ limit)
    (hexact : ∀ k, 1 ≤ k → k * limit < L.length → ExactAt L resume (k * limit)) (m : ℕ) :
    ∀ k p, L.length ≤ k * limit + m → L.filter p = L.drop (k * limit) →
      ∃ fuel, traverse L limit resume fuel p = some (L.drop (k * limit)) := by
  -- the induction is on a bound for the number of rows still to come
  induction m with
  | zero =>
    intro k p hm hp
    exact ⟨1, by rw [traverse, page_of_le hp (by omega)]⟩
  | succ m ih =>
    intro k p hm hp
    rcases Nat.lt_or_ge (k * limit + limit) L.length with hlt | hge
    · have hnext : (k + 1) * limit = k * limit + limit := Nat.succ_mul k limit
      obtain ⟨a, ha⟩ : ∃ a, L[(k + 1) * limit - 1]? = some a :=
        ⟨_, List.getElem?_eq_getElem (by omega)⟩
      obtain ⟨q, hq, hfilter⟩ := hexact (k + 1) (by omega) (by omega) a ha
      obtain ⟨fuel, hfuel⟩ := ih (k + 1) q (by omega) hfilter
      refine ⟨fuel + 1, ?_⟩
      rw [traverse, page_of_lt hp hlimit hlt, ← hnext, ha]
      simp only [hq, hfuel, Option.bind_some, Option.map_some, Option.some.injEq]
      rw [hnext, ← List.drop_drop, List.take_append_drop]
    · exact ⟨1, by rw [traverse, page_of_le hp hge]⟩

/-- A traversal that visits exactly what is left was exact at every boundary. -/
theorem exact_of_traverse (hL : L.Nodup) (hlimit : 1 ≤ limit)
    (hsuffix : ∀ a q, a ∈ L → resume a = some q → ∃ j, L.filter q = L.drop j) (fuel : ℕ) :
    ∀ j p, L.filter p = L.drop j → traverse L limit resume fuel p = some (L.drop j) →
      ∀ k, 1 ≤ k → j + k * limit < L.length → ExactAt L resume (j + k * limit) := by
  induction fuel with
  | zero => simp [traverse]
  | succ fuel ih =>
    intro j p hp h k hk hlt
    have hfirst : j + limit < L.length := by
      have := Nat.le_mul_of_pos_left limit hk
      omega
    rw [traverse, page_of_lt hp hlimit hfirst, List.getElem?_eq_getElem (by omega)] at h
    obtain ⟨q, hq, h⟩ := Option.bind_eq_some_iff.mp h
    obtain ⟨rest, hrest, happend⟩ := Option.map_eq_some_iff.mp h
    have hrest' : rest = L.drop (j + limit) := by
      have hsplit := List.take_append_drop limit (L.drop j)
      rw [List.drop_drop] at hsplit
      exact List.append_cancel_left (happend.trans hsplit.symm)
    subst hrest'
    -- the next page starts where this one ended, since a row occurs only once
    obtain ⟨i, hi⟩ := hsuffix _ q (List.getElem_mem _) hq
    have hhead := traverse_head hi hlimit hrest
    rw [List.head?_drop, List.getElem?_eq_getElem hfirst] at hhead
    obtain ⟨hilt, hieq⟩ := List.getElem?_eq_some_iff.mp hhead.symm
    obtain rfl : i = j + limit := (hL.getElem_inj_iff).mp hieq
    match k, hk with
    | 1, _ =>
      intro a ha
      rw [Nat.one_mul, List.getElem?_eq_getElem (by omega)] at ha
      obtain rfl := Option.some.inj ha
      exact ⟨q, hq, by rw [Nat.one_mul]; exact hi⟩
    | k + 2, _ =>
      have hsum : j + (k + 2) * limit = j + limit + (k + 1) * limit := by ring
      rw [hsum] at hlt ⊢
      exact ih (j + limit) q hi hrest (k + 1) (by omega) hlt

/-- **Following the pages visits the listing exactly if every page boundary is exact.** -/
theorem visits_iff (hL : L.Nodup) (hlimit : 1 ≤ limit)
    (hsuffix : ∀ a q, a ∈ L → resume a = some q → ∃ j, L.filter q = L.drop j) :
    Visits L limit resume ↔
      ∀ k, 1 ≤ k → k * limit < L.length → ExactAt L resume (k * limit) := by
  have hall : L.filter (fun _ => true) = L.drop 0 := by simp
  constructor
  · rintro ⟨fuel, h⟩ k hk hlt
    have := exact_of_traverse hL hlimit hsuffix fuel 0 _ hall (by rw [h, List.drop_zero]) k hk
    rw [Nat.zero_add] at this
    exact this hlt
  · intro hexact
    obtain ⟨fuel, h⟩ := traverse_of_exact hlimit hexact L.length 0 (fun _ => true) (by omega)
      (by rw [hall, Nat.zero_mul])
    exact ⟨fuel, by rw [h, Nat.zero_mul, List.drop_zero]⟩

/-! ## Sorted listings -/

section Sorted

variable {K : Type} [LinearOrder K]

/-- In a listing by increasing keys, the rows beyond a key are the last ones. -/
theorem filter_lt_eq_drop (key : α → K) (c : K) (hL : L.Pairwise fun a b => key a < key b) :
    ∃ j, L.filter (fun a => decide (c < key a)) = L.drop j := by
  induction L with
  | nil => exact ⟨0, rfl⟩
  | cons a L ih =>
    obtain ⟨ha, hL⟩ := List.pairwise_cons.mp hL
    by_cases hc : c < key a
    · refine ⟨0, ?_⟩
      rw [List.filter_eq_self.mpr, List.drop_zero]
      intro b hb
      rcases List.mem_cons.mp hb with rfl | hb
      · simpa using hc
      · simpa using hc.trans (ha b hb)
    · obtain ⟨j, hj⟩ := ih hL
      exact ⟨j + 1, by rw [List.filter_cons_of_neg (by simpa using hc), hj, List.drop_succ_cons]⟩

/-- What follows a row is selected by a key exactly if the key is not before the row and before
everything that follows. -/
theorem filter_lt_eq_drop_iff (key : α → K) (c : K) (hL : L.Pairwise fun a b => key a < key b)
    {n : ℕ} {a : α} (hn : 1 ≤ n) (ha : L[n - 1]? = some a) :
    L.filter (fun b => decide (c < key b)) = L.drop n ↔
      key a ≤ c ∧ ∀ b ∈ L.drop n, c < key b := by
  obtain ⟨hlt, rfl⟩ := List.getElem?_eq_some_iff.mp ha
  have hsplit : L = L.take n ++ L.drop n := (List.take_append_drop n L).symm
  have hmem : L[n - 1] ∈ L.take n := by
    refine List.mem_take_iff_getElem.mpr ⟨n - 1, by omega, rfl⟩
  have hbefore : ∀ b ∈ L.take n, key b ≤ key L[n - 1] := by
    intro b hb
    obtain ⟨i, hi, rfl⟩ := List.mem_take_iff_getElem.mp hb
    rcases Nat.lt_or_ge i (n - 1) with hlt' | hge
    · exact (List.pairwise_iff_getElem.mp hL i (n - 1) (by omega) hlt hlt').le
    · obtain rfl : i = n - 1 := by omega
      exact le_rfl
  constructor
  · intro h
    refine ⟨?_, fun b hb => ?_⟩
    · by_contra hc
      have hin : L[n - 1] ∈ L.drop n := by
        rw [← h, List.mem_filter]
        exact ⟨List.getElem_mem _, by simpa using hc⟩
      obtain ⟨i, hi, he⟩ := List.mem_drop_iff_getElem.mp hin
      have := List.pairwise_iff_getElem.mp hL (n - 1) (n + i) hlt (by omega) (by omega)
      rw [he] at this
      exact lt_irrefl _ this
    · rw [← h, List.mem_filter] at hb
      simpa using hb.2
  · rintro ⟨hle, hafter⟩
    conv_lhs => rw [hsplit]
    rw [List.filter_append, List.filter_eq_nil_iff.mpr, List.filter_eq_self.mpr, List.nil_append]
    · intro b hb
      simpa using hafter b hb
    · intro b hb
      simpa using (hbefore b hb).trans hle

end Sorted

end Keyset
