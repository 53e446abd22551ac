/-
# Listings

The paginated listings of the service are one definition (`Listing.findPage`, `Listing.list`) with
the values of the member: its filter, its direction and how the creation time is written into the
cursor.  `follow_eq_traverse` says that what a caller sees is a traversal of `Keyset`.
-/
import DigitalTrust.CursorPagination
import DigitalTrust.Keyset

namespace DigitalTrust

open Json Timestamps

/-! ## Order -/

/-- The direction of a listing, for both columns. -/
inductive Direction where
  | ascending
  | descending

def Direction.lt : Direction → SortKey → SortKey → Prop
  | .ascending, a, b => a < b
  | .descending, a, b => b < a

def Direction.le : Direction → SortKey → SortKey → Prop
  | .ascending, a, b => a ≤ b
  | .descending, a, b => b ≤ a

instance (d : Direction) (a b : SortKey) : Decidable (d.lt a b) := by
  cases d <;> unfold Direction.lt <;> infer_instance

instance (d : Direction) (a b : SortKey) : Decidable (d.le a b) := by
  cases d <;> unfold Direction.le <;> infer_instance

section Direction

variable {d : Direction} {a b c : SortKey}

theorem Direction.le_total : d.le a b ∨ d.le b a := by
  cases d
  · exact LinearOrder.le_total a b
  · exact LinearOrder.le_total b a

theorem Direction.le_trans (hab : d.le a b) (hbc : d.le b c) : d.le a c := by
  cases d
  · exact LE.le.trans hab hbc
  · exact LE.le.trans hbc hab

theorem Direction.lt_iff : d.lt a b ↔ d.le a b ∧ a ≠ b := by
  cases d
  · exact lt_iff_le_and_ne
  · exact lt_iff_le_and_ne.trans (and_congr_right fun _ => ne_comm)

end Direction

/-! ## A page -/

/-- A listing: the parts in which the listings of the service differ. -/
structure Listing (R F : Type) where
  direction : Direction
  matchesFilter : F → R → Bool
  createdAt : R → Instant
  id : R → RowId
  /-- The creation time as the cursor has it. -/
  cursorTime : Instant → Text
  /-- Whether an empty `cursor` is taken for none. -/
  ignoresEmptyCursor : Bool

variable {R F : Type}

/-- What the rows are ordered by. -/
def Listing.key (l : Listing R F) (r : R) : SortKey := toLex (l.createdAt r, (l.id r).value)

/-- A table: no two rows have the same id and creation time. -/
structure Rows (l : Listing R F) where
  rows : List R
  nodup : (rows.map l.key).Nodup

/-- `ORDER BY created_at, id` in the direction of the listing. -/
def Listing.orderBy (l : Listing R F) (rows : List R) : List R :=
  rows.insertionSort fun a b => l.direction.le (l.key a) (l.key b)

def Listing.all (l : Listing R F) (table : Rows l) (filter : F) : List R :=
  l.orderBy (table.rows.filter (l.matchesFilter filter))

def Listing.cursorOf (l : Listing R F) (r : R) : Cursor :=
  ⟨l.cursorTime (l.createdAt r), (l.id r).text⟩

/-- `(created_at, id) > (CAST(…), CAST(…))`, with `<` in a descending listing. -/
def Listing.after (l : Listing R F) (k : SortKey) (r : R) : Bool := l.direction.lt k (l.key r)

/-- The condition that a cursor adds to the query. -/
def Listing.condition (l : Listing R F) : Option Cursor → Except Failure (R → Bool)
  | none => .ok fun _ => true
  | some c =>
    match c.key with
    | some k => .ok (l.after k)
    | none => .error (.other "invalid input syntax")

/-- `ConnectionPage` and its likes. -/
structure Page (R : Type) where
  items : List R
  nextCursor : Option Cursor
  hasMore : Bool

/-- `findPage`, `findPageForTenant` of the repositories. -/
def Listing.findPage (l : Listing R F) (table : Rows l) (filter : F) (limit : ℕ)
    (cursor : Option Cursor) : Except Failure (Page R) :=
  (l.condition cursor).map fun condition =>
    let rows := (l.orderBy (table.rows.filter fun r =>
      l.matchesFilter filter r && condition r)).take
      (limit + 1)
    let hasMore := decide (limit < rows.length)
    let items := if hasMore then rows.take limit else rows
    { items := items
      nextCursor := if hasMore then items.getLast?.map l.cursorOf else none
      hasMore := hasMore }

/-- `PaginatedConnections` and its likes. -/
structure Paginated (R : Type) where
  data : List R
  nextCursor : Option Text
  hasMore : Bool

def defaultLimit : ℕ := 20

/-- The `cursor` parameter of a request, decoded. -/
def Listing.decode (l : Listing R F) : Option Text → Except Failure (Option Cursor)
  | none => .ok none
  | some raw =>
    if l.ignoresEmptyCursor ∧ raw = [] then .ok none else (decodeCursor raw).map some

/-- `list`, `listForTenant`, `findByTenantId` of the services. -/
def Listing.list (l : Listing R F) (table : Rows l) (filter : F) (limit : Option ℕ)
    (cursor : Option Text) : Except Failure (Paginated R) :=
  (l.decode cursor).bind fun cursor =>
    (l.findPage table filter (limit.getD defaultLimit) cursor).map fun page =>
      ⟨page.items, page.nextCursor.map encodeCursor, page.hasMore⟩

/-- What a caller collects who follows `next_cursor` until it is null, with at most `fuel`
requests; nothing if a request fails. -/
def follow (request : Option Text → Except Failure (Paginated R)) :
    ℕ → Option Text → Option (List R)
  | 0, _ => none
  | fuel + 1, cursor =>
    match request cursor with
    | .error _ => none
    | .ok page =>
      match page.nextCursor with
      | none => some page.data
      | some next => (follow request fuel (some next)).map fun rest => page.data ++ rest

/-- Following the cursors from the first page ends, and has visited every matching row exactly
once, in the order of the listing. -/
def Listing.Visits (l : Listing R F) (table : Rows l) (filter : F) (limit : ℕ) : Prop :=
  ∃ fuel, follow (l.list table filter (some limit)) fuel none = some (l.all table filter)

/-! ## The order of the rows -/

section Sorted

variable {l : Listing R F} {table : Rows l} {filter : F}

theorem pairwise_le_orderBy (rows : List R) :
    (l.orderBy rows).Pairwise fun a b => l.direction.le (l.key a) (l.key b) := by
  have : Std.Total fun a b => l.direction.le (l.key a) (l.key b) := ⟨fun _ _ => Direction.le_total⟩
  have : IsTrans R fun a b => l.direction.le (l.key a) (l.key b) :=
    ⟨fun _ _ _ => Direction.le_trans⟩
  exact List.pairwise_insertionSort _ rows

theorem perm_orderBy (rows : List R) : (l.orderBy rows).Perm rows := List.perm_insertionSort _ rows

/-- Distinct keys, in order. -/
theorem pairwise_lt_orderBy {rows : List R} (h : (rows.map l.key).Nodup) :
    (l.orderBy rows).Pairwise fun a b => l.direction.lt (l.key a) (l.key b) := by
  have hne : (l.orderBy rows).Pairwise fun a b => l.key a ≠ l.key b :=
    List.pairwise_map.mp (((perm_orderBy rows).map l.key).nodup_iff.mpr h)
  exact ((pairwise_le_orderBy rows).and hne).imp fun h => Direction.lt_iff.mpr h

/-- A condition may be added before or after sorting. -/
theorem orderBy_filter {rows : List R} (h : (rows.map l.key).Nodup) (p : R → Bool) :
    l.orderBy (rows.filter p) = (l.orderBy rows).filter p := by
  have hsub : ((rows.filter p).map l.key).Nodup := h.sublist (List.filter_sublist.map l.key)
  have hperm : (l.orderBy (rows.filter p)).Perm ((l.orderBy rows).filter p) :=
    (perm_orderBy _).trans ((perm_orderBy rows).filter p).symm
  refine hperm.eq_of_pairwise ?_ (pairwise_lt_orderBy hsub)
    ((pairwise_lt_orderBy h).sublist List.filter_sublist)
  intro a b _ _ hab hba
  rw [Direction.lt_iff] at hab hba
  -- two rows cannot come before each other
  cases hd : l.direction
  · rw [hd] at hab hba
    exact absurd (le_antisymm hab.1 hba.1) hab.2
  · rw [hd] at hab hba
    exact absurd (le_antisymm hba.1 hab.1) hab.2

theorem nodup_matching : ((table.rows.filter (l.matchesFilter filter)).map l.key).Nodup :=
  table.nodup.sublist (List.filter_sublist.map l.key)

theorem pairwise_all (table : Rows l) (filter : F) :
    (l.all table filter).Pairwise fun a b => l.direction.lt (l.key a) (l.key b) :=
  pairwise_lt_orderBy nodup_matching

/-- The query with a cursor selects from the listing. -/
theorem orderBy_matching_and (p : R → Bool) :
    l.orderBy (table.rows.filter fun r => l.matchesFilter filter r && p r) =
      (l.all table filter).filter p := by
  have hfilter : (table.rows.filter fun r => l.matchesFilter filter r && p r) =
      (table.rows.filter (l.matchesFilter filter)).filter p := by
    rw [List.filter_filter]
    exact List.filter_congr fun r _ => Bool.and_comm _ _
  rw [hfilter, orderBy_filter nodup_matching, Listing.all]

theorem nodup_all : (l.all table filter).Nodup :=
  (pairwise_all table filter).imp fun h heq => (Direction.lt_iff.mp h).2 (congrArg l.key heq)

/-- The rows after a key are the last ones of the listing. -/
theorem filter_after_eq_drop (k : SortKey) :
    ∃ j, (l.all table filter).filter (l.after k) = (l.all table filter).drop j := by
  have hsorted := pairwise_all table filter
  unfold Listing.after
  cases hd : l.direction
  · rw [hd] at hsorted
    exact Keyset.filter_lt_eq_drop l.key k hsorted
  · rw [hd] at hsorted
    exact Keyset.filter_lt_eq_drop (fun r => OrderDual.toDual (l.key r))
      (OrderDual.toDual k) hsorted

/-- They are those after a given row exactly if the key does not come before that row, and comes
before those after it. -/
theorem filter_after_eq_drop_iff {n : ℕ} {a : R} (k : SortKey) (hn : 1 ≤ n)
    (ha : (l.all table filter)[n - 1]? = some a) :
    (l.all table filter).filter (l.after k) = (l.all table filter).drop n ↔
      l.direction.le (l.key a) k ∧
        ∀ b ∈ (l.all table filter).drop n, l.direction.lt k (l.key b) := by
  have hsorted := pairwise_all table filter
  unfold Listing.after
  cases hd : l.direction
  · rw [hd] at hsorted
    exact Keyset.filter_lt_eq_drop_iff l.key k hsorted hn ha
  · rw [hd] at hsorted
    exact Keyset.filter_lt_eq_drop_iff (fun r => OrderDual.toDual (l.key r)) (OrderDual.toDual k)
      hsorted hn ha

end Sorted

/-! ## Following the cursors is a traversal -/

/-- The place that the cursor of a row stands for once it has come back. -/
def Listing.place (l : Listing R F) (r : R) : Option SortKey :=
  match decodeCursor (encodeCursor (l.cursorOf r)) with
  | .ok c => c.key
  | .error _ => none

/-- The condition of the page after a row. -/
def Listing.resume (l : Listing R F) (r : R) : Option (R → Bool) := (l.place r).map l.after

theorem utf8_ne_nil {t : Text} (ht : t ≠ []) : utf8 t ≠ [] := by
  intro h
  have hnil : utf8 [] = [] := rfl
  have heq := ofUtf8_utf8 t
  rw [h, ← hnil, ofUtf8_utf8] at heq
  exact ht (Option.some.inj heq).symm

/-- A cursor is not the empty text. -/
theorem encodeCursor_ne_nil (c : Cursor) : encodeCursor c ≠ [] := by
  intro h
  have hdecode := Base64Url.decode_encode (utf8 (stringifyStrings c.members))
  rw [show Base64Url.encode (utf8 (stringifyStrings c.members)) = [] from h] at hdecode
  exact utf8_ne_nil (t := stringifyStrings c.members) (List.cons_ne_nil _ _) hdecode.symm

section Follow

variable {l : Listing R F} {table : Rows l} {filter : F} {limit : ℕ}

/-- A query whose condition is `p` returns the page of the traversal. -/
theorem list_of_condition (table : Rows l) (filter : F) (limit : ℕ) {raw : Option Text}
    {cursor : Option Cursor} {p : R → Bool}
    (hraw : l.decode raw = .ok cursor) (hp : l.condition cursor = .ok p) :
    ∃ more, l.list table filter (some limit) raw =
      .ok ⟨(Keyset.page (l.all table filter) limit p).1,
        (Keyset.page (l.all table filter) limit p).2.map fun r =>
          encodeCursor (l.cursorOf r), more⟩ := by
  rw [Listing.list, hraw]
  simp only [Except.bind, Listing.findPage, hp, Except.map, Option.getD_some, orderBy_matching_and,
    Keyset.page]
  by_cases hmore : limit < (((l.all table filter).filter p).take (limit + 1)).length
  · simp only [hmore, decide_true, if_true, Option.map_map]
    exact ⟨_, rfl⟩
  · simp only [hmore, decide_false, Bool.false_eq_true, if_false, Option.map_none]
    exact ⟨_, rfl⟩

/-- A request with the cursor of a row. -/
theorem list_cursorOf (table : Rows l) (filter : F) (limit : ℕ) (r : R) :
    (∃ p, l.resume r = some p ∧ ∃ cursor,
      l.decode (some (encodeCursor (l.cursorOf r))) = .ok cursor ∧
      l.condition cursor = .ok p) ∨
    (l.resume r = none ∧ ∃ e,
      l.list table filter (some limit) (some (encodeCursor (l.cursorOf r))) =
      .error e) := by
  have hdecode : l.decode (some (encodeCursor (l.cursorOf r))) =
      (decodeCursor (encodeCursor (l.cursorOf r))).map some :=
    if_neg fun h => encodeCursor_ne_nil _ h.2
  cases hc : decodeCursor (encodeCursor (l.cursorOf r)) with
  | error e =>
    rw [hc] at hdecode
    refine Or.inr ⟨?_, e, ?_⟩
    · simp only [Listing.resume, Listing.place, hc, Option.map_none]
    · rw [Listing.list, hdecode]
      rfl
  | ok c =>
    rw [hc] at hdecode
    cases hk : c.key with
    | none =>
      refine Or.inr ⟨?_, .other "invalid input syntax", ?_⟩
      · simp only [Listing.resume, Listing.place, hc, hk, Option.map_none]
      · rw [Listing.list, hdecode]
        simp only [Except.map, Except.bind, Listing.findPage, Listing.condition, hk]
    | some k =>
      refine Or.inl ⟨l.after k, ?_, some c, hdecode, ?_⟩
      · simp only [Listing.resume, Listing.place, hc, hk, Option.map_some]
      · simp only [Listing.condition, hk]

/-- **Refinement**: following the cursors is traversing the listing. -/
theorem follow_eq_traverse (fuel : ℕ) :
    ∀ raw cursor p, l.decode raw = .ok cursor → l.condition cursor = .ok p →
      follow (l.list table filter (some limit)) fuel raw =
        Keyset.traverse (l.all table filter) limit l.resume fuel p := by
  induction fuel with
  | zero => intros; rfl
  | succ fuel ih =>
    intro raw cursor p hraw hp
    obtain ⟨more, hlist⟩ := list_of_condition table filter limit hraw hp
    rw [follow, hlist, Keyset.traverse]
    -- whether there is a further page
    cases hpage : Keyset.page (l.all table filter) limit p with
    | mk items next =>
      cases next with
      | none => rfl
      | some last =>
        simp only [Option.map_some]
        rcases list_cursorOf table filter limit last with
          ⟨q, hq, cursor', hraw', hq'⟩ | ⟨hnone, e, herror⟩
        · rw [ih _ cursor' q hraw' hq', hq, Option.bind_some]
        · rw [hnone, Option.bind_none]
          cases fuel with
          | zero => rfl
          | succ fuel => rw [follow, herror, Option.map_none]

/-- After `n` rows of the listing the cursor still tells where the caller is. -/
def Listing.KeepsPlace (l : Listing R F) (table : Rows l) (filter : F) (n : ℕ) : Prop :=
  ∀ a, (l.all table filter)[n - 1]? = some a →
    ∃ k, l.place a = some k ∧ l.direction.le (l.key a) k ∧
      ∀ b ∈ (l.all table filter).drop n, l.direction.lt k (l.key b)

/-- **When following the cursors visits every row once, in order.** -/
theorem visits_iff_keepsPlace (hlimit : 1 ≤ limit) :
    l.Visits table filter limit ↔
      ∀ k, 1 ≤ k → k * limit < (l.all table filter).length →
        l.KeepsPlace table filter (k * limit) := by
  have htraverse : l.Visits table filter limit ↔
      Keyset.Visits (l.all table filter) limit l.resume := by
    refine exists_congr fun fuel => ?_
    rw [follow_eq_traverse fuel none none (fun _ => true) rfl rfl]
  have hsuffix : ∀ a q, a ∈ l.all table filter → l.resume a = some q →
      ∃ j, (l.all table filter).filter q = (l.all table filter).drop j := by
    intro a q _ hq
    obtain ⟨k, -, rfl⟩ := Option.map_eq_some_iff.mp hq
    exact filter_after_eq_drop k
  rw [htraverse, Keyset.visits_iff nodup_all hlimit hsuffix]
  refine forall_congr' fun k => forall_congr' fun hk => imp_congr_right fun _ => ?_
  refine forall_congr' fun a => forall_congr' fun ha => ?_
  have hpos : 1 ≤ k * limit := Nat.mul_pos hk hlimit
  constructor
  · rintro ⟨q, hq, hdrop⟩
    obtain ⟨key, hkey, rfl⟩ := Option.map_eq_some_iff.mp hq
    exact ⟨key, hkey, (filter_after_eq_drop_iff key hpos ha).mp hdrop⟩
  · rintro ⟨key, hkey, h⟩
    exact ⟨l.after key, by rw [Listing.resume, hkey, Option.map_some],
      (filter_after_eq_drop_iff key hpos ha).mpr h⟩

end Follow

end DigitalTrust
