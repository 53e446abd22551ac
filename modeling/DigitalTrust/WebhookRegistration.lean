/-
# Registering webhooks at a shared wallet

`traction-webhook-registrar.service.ts`.  The wallet's `wallet_webhook_urls` can only be replaced as
a whole, so `ensureWebhookRegistered` reads the list, replaces the entry of its own webhook URL and
puts the list back, under an advisory lock that is held until the transaction ends.  That an entry
is nobody else's rests on webhook URLs having no `#`.
-/
import DigitalTrust.Interleaving

namespace DigitalTrust.WebhookRegistration

open Interleaving

/-! ## Entries of the wallet -/

def isOurEntry (entry webhookUrl : String) : Bool :=
  entry = webhookUrl || (webhookUrl ++ "#").toList.isPrefixOf entry.toList

def entryOf (webhookUrl webhookSecret : String) : String := webhookUrl ++ "#" ++ webhookSecret

/-- The list that a registration puts in the place of the one it has read. -/
def register (webhookUrl webhookSecret : String) (entries : List String) : List String :=
  (entries.filter fun entry => !isOurEntry entry webhookUrl) ++ [entryOf webhookUrl webhookSecret]

/-- Texts without `#` that are followed by `#` are told apart by what follows. -/
theorem eq_of_hash_isPrefix {u v secret : List Char} (hu : '#' ∉ u) (hv : '#' ∉ v)
    (h : u ++ ['#'] <+: v ++ '#' :: secret) : u = v := by
  -- along both texts: the first `#` stands at the same place
  induction u generalizing v with
  | nil =>
    cases v with
    | nil => rfl
    | cons a v =>
      have ha : '#' = a := (List.cons_prefix_cons.mp h).1
      exact absurd (ha ▸ List.mem_cons_self) hv
  | cons b u ih =>
    cases v with
    | nil =>
      have hb : b = '#' := (List.cons_prefix_cons.mp h).1
      exact absurd (hb ▸ List.mem_cons_self) hu
    | cons a v =>
      obtain ⟨rfl, hrest⟩ := List.cons_prefix_cons.mp h
      rw [ih (fun hmem => hu (List.mem_cons_of_mem _ hmem))
        (fun hmem => hv (List.mem_cons_of_mem _ hmem)) hrest]

/-- The entry of a webhook URL belongs to that URL only. -/
theorem isOurEntry_entryOf {webhookUrl webhookUrl' : String} (secret : String)
    (h : '#' ∉ webhookUrl.toList) (h' : '#' ∉ webhookUrl'.toList) :
    isOurEntry (entryOf webhookUrl' secret) webhookUrl = true ↔ webhookUrl' = webhookUrl := by
  have hentry : (entryOf webhookUrl' secret).toList =
      webhookUrl'.toList ++ '#' :: secret.toList := by
    simp [entryOf, String.toList_append]
  have hours : (webhookUrl ++ "#").toList = webhookUrl.toList ++ ['#'] := by
    simp [String.toList_append]
  rw [isOurEntry, Bool.or_eq_true, decide_eq_true_eq, List.isPrefixOf_iff_prefix, hentry, hours]
  constructor
  · rintro (heq | hprefixed)
    · -- the entry contains a `#` and the URL does not
      have hmem : '#' ∈ webhookUrl.toList := by
        rw [← heq, hentry]
        simp
      exact absurd hmem h
    · exact String.toList_injective (eq_of_hash_isPrefix h h' hprefixed).symm
  · rintro rfl
    right
    exact ⟨secret.toList, by simp⟩

/-! ## The registrar -/

/-- A call of `ensureWebhookRegistered`: the connector and the secret. -/
structure Call (Connector : Type) where
  connector : Connector
  webhookSecret : String

/-- The wallet's list with the advisory lock of its endpoint, the calls in the order in which they
acquired it, without those that failed, and the calls that failed. -/
structure Wallet where
  lock : Option ℕ
  walletWebhookUrls : Option (List String)
  acquired : List ℕ
  failed : List ℕ

def Wallet.entries (w : Wallet) : List String := w.walletWebhookUrls.getD []

def Wallet.start (initial : Option (List String)) : Wallet := ⟨none, initial, [], []⟩

/-- The lock is free, and call `i` takes it. -/
def Wallet.acquire (i : ℕ) (w : Wallet) : Option Wallet :=
  if w.lock = none then some { w with lock := some i, acquired := w.acquired ++ [i] } else none

/-- The transaction of call `i` ends. -/
def Wallet.commit (w : Wallet) : Wallet := { w with lock := none }

/-- The transaction of call `i` is rolled back, which releases the lock if it was taken. -/
def Wallet.rollback (i : ℕ) (w : Wallet) : Wallet :=
  { w with
    lock := if w.lock = some i then none else w.lock
    acquired := w.acquired.filter fun j => j ≠ i
    failed := i :: w.failed }

abbrev Program := Proc Wallet Unit Unit

def fail (i : ℕ) : Program := .act () false (fun w => some (w.rollback i)) fun _ => .ret ()

def finish : Program := .act () false (fun w => some w.commit) fun _ => .ret ()

/-- The PUT, of the list made from the entries that were read. -/
def putEntries (i : ℕ) (webhookUrl webhookSecret : String) (entries : List String) : Program :=
  .act () true
    (fun w => some { w with walletWebhookUrls := some (register webhookUrl webhookSecret entries) })
    fun r => match r with
      | some _ => finish
      | none => fail i

/-- `fetchCurrentEntries`, which fails if the URL is not safe or there is no token. -/
def fetchCurrentEntries (i : ℕ) (k : List String → Program) : Program :=
  .act () true some fun r => match r with
    | some w => k w.entries
    | none => fail i

/-- `ensureWebhookRegistered`, as call `i`. -/
def ensureWebhookRegistered (i : ℕ) (webhookUrl webhookSecret : String) : Program :=
  .act () true (Wallet.acquire i) fun r => match r with
    | some _ => fetchCurrentEntries i (putEntries i webhookUrl webhookSecret)
    | none => fail i

section Registrar

variable {Connector : Type} (webhookUrl : Connector → String) (calls : ℕ → Call Connector)

/-- The calls of the connectors that share the wallet, one after the other started. -/
def registrar : System Wallet Unit Unit where
  prog _ i := ensureWebhookRegistered i (webhookUrl (calls i).connector) (calls i).webhookSecret
  crash := none

/-- What call `i` makes of the wallet's list, run alone. -/
def registerCall (entries : List String) (i : ℕ) : List String :=
  register (webhookUrl (calls i).connector) (calls i).webhookSecret entries

/-- What the calls make of the wallet's list, run one after the other. -/
def registerAll (initial : List String) (order : List ℕ) : List String :=
  order.foldl (registerCall webhookUrl calls) initial

/-- The entry that call `i` adds. -/
def entry (i : ℕ) : String := entryOf (webhookUrl (calls i).connector) (calls i).webhookSecret

/-- The entry belongs to none of the calls. -/
def foreign (order : List ℕ) (e : String) : Bool :=
  order.all fun i => !isOurEntry e (webhookUrl (calls i).connector)

def lastCalls [DecidableEq Connector] (order : List ℕ) : List ℕ :=
  order.pwFilter fun i j => (calls i).connector ≠ (calls j).connector

end Registrar

/-! ## Calls that run one after the other -/

section Sequence

variable {Connector : Type} [DecidableEq Connector] {webhookUrl : Connector → String}
  {calls : ℕ → Call Connector}

/-- A call is later than all calls of its connector iff it is later than their last one. -/
theorem forall_mem_lastCalls (i : ℕ) (order : List ℕ) :
    (∀ j ∈ lastCalls calls order, (calls i).connector ≠ (calls j).connector) ↔
      ∀ j ∈ order, (calls i).connector ≠ (calls j).connector := by
  refine List.forall_mem_pwFilter ?_ i order
  intro x y z hne
  by_contra hboth
  rw [not_or, not_not, not_not] at hboth
  exact hne (hboth.1.trans hboth.2)

theorem lastCalls_cons (i : ℕ) (order : List ℕ) :
    lastCalls calls (i :: order) =
      if ∀ j ∈ order, (calls i).connector ≠ (calls j).connector then i :: lastCalls calls order
      else lastCalls calls order := by
  by_cases hlast : ∀ j ∈ order, (calls i).connector ≠ (calls j).connector
  · rw [if_pos hlast]
    exact List.pwFilter_cons_of_pos ((forall_mem_lastCalls i order).mpr hlast)
  · rw [if_neg hlast]
    exact List.pwFilter_cons_of_neg fun h => hlast ((forall_mem_lastCalls i order).mp h)

/-- One more call takes the place of its connector's last one. -/
theorem lastCalls_concat (order : List ℕ) (k : ℕ) :
    lastCalls calls (order ++ [k]) =
      ((lastCalls calls order).filter fun i =>
        (calls i).connector ≠ (calls k).connector) ++ [k] := by
  induction order with
  | nil => rfl
  | cons i order ih =>
    rw [List.cons_append, lastCalls_cons, lastCalls_cons, ih]
    by_cases hlast : ∀ j ∈ order, (calls i).connector ≠ (calls j).connector
    · by_cases hk : (calls i).connector = (calls k).connector
      · -- the new call is the connector's own
        have hnot : ¬ ∀ j ∈ order ++ [k], (calls i).connector ≠ (calls j).connector :=
          fun h => h k (by simp) hk
        rw [if_neg hnot, if_pos hlast, List.filter_cons_of_neg (by simp [hk])]
      · have hstill : ∀ j ∈ order ++ [k], (calls i).connector ≠ (calls j).connector := by
          intro j hj
          rcases List.mem_append.mp hj with hold | hnew
          · exact hlast j hold
          · exact List.mem_singleton.mp hnew ▸ hk
        rw [if_pos hstill, if_pos hlast, List.filter_cons_of_pos (by simp [hk]), List.cons_append]
    · have hnot : ¬ ∀ j ∈ order ++ [k], (calls i).connector ≠ (calls j).connector :=
        fun h => hlast fun j hj => h j (List.mem_append_left _ hj)
      rw [if_neg hnot, if_neg hlast]

/-- After a connector's last call, only other connectors have calls. -/
theorem split_of_mem_lastCalls {order : List ℕ} {k : ℕ} (hk : k ∈ lastCalls calls order) :
    ∃ before after, order = before ++ k :: after ∧
      ∀ j ∈ after, (calls j).connector ≠ (calls k).connector := by
  induction order with
  | nil => simp [lastCalls] at hk
  | cons i order ih =>
    rw [lastCalls_cons] at hk
    split_ifs at hk with hlast
    · rcases List.mem_cons.mp hk with rfl | hrest
      · exact ⟨[], order, rfl, fun j hj => (hlast j hj).symm⟩
      · obtain ⟨before, after, rfl, hafter⟩ := ih hrest
        exact ⟨i :: before, after, rfl, hafter⟩
    · obtain ⟨before, after, rfl, hafter⟩ := ih hk
      exact ⟨i :: before, after, rfl, hafter⟩

/-- Every connector that calls has a last call. -/
theorem exists_mem_lastCalls {order : List ℕ} {i : ℕ} (hi : i ∈ order) :
    ∃ k ∈ lastCalls calls order, (calls k).connector = (calls i).connector := by
  by_contra hnone
  have hdiffer : ∀ k ∈ lastCalls calls order, (calls i).connector ≠ (calls k).connector :=
    fun k hk heq => hnone ⟨k, hk, heq.symm⟩
  exact (forall_mem_lastCalls i order).mp hdiffer i hi rfl

/-- No connector has two last calls. -/
theorem nodup_lastCalls (order : List ℕ) :
    ((lastCalls calls order).map fun i => (calls i).connector).Nodup := by
  rw [List.Nodup, List.pairwise_map]
  exact List.pairwise_pwFilter order

omit [DecidableEq Connector] in
theorem registerAll_concat (initial : List String) (order : List ℕ) (k : ℕ) :
    registerAll webhookUrl calls initial (order ++ [k]) =
      registerCall webhookUrl calls (registerAll webhookUrl calls initial order) k := by
  rw [registerAll, List.foldl_append]
  rfl

/-- A call removes the entry of its connector's earlier call and no other call's. -/
theorem filter_entries (hinj : Function.Injective webhookUrl)
    (hhash : ∀ x, '#' ∉ (webhookUrl x).toList) (l : List ℕ) (k : ℕ) :
    ((l.map (entry webhookUrl calls)).filter fun e =>
        !isOurEntry e (webhookUrl (calls k).connector)) =
      (l.filter fun i => (calls i).connector ≠ (calls k).connector).map
        (entry webhookUrl calls) := by
  rw [List.filter_map]
  congr 1
  apply List.filter_congr
  intro i _
  have hours : isOurEntry (entry webhookUrl calls i) (webhookUrl (calls k).connector) = true ↔
      (calls i).connector = (calls k).connector := by
    rw [entry, isOurEntry_entryOf _ (hhash _) (hhash _)]
    exact hinj.eq_iff
  rw [Function.comp_apply, Bool.eq_iff_iff, Bool.not_eq_true', decide_eq_true_eq,
    ← Bool.not_eq_true, hours]

/-- What a sequence of calls leaves: the entries that belong to none of them as they were,
then the entry of each connector's last call. -/
theorem registerAll_eq (hinj : Function.Injective webhookUrl)
    (hhash : ∀ x, '#' ∉ (webhookUrl x).toList) (initial : List String) (order : List ℕ) :
    registerAll webhookUrl calls initial order =
      initial.filter (foreign webhookUrl calls order) ++
        (lastCalls calls order).map (entry webhookUrl calls) := by
  -- from the first call on: the last call of the sequence acts on what the others leave
  induction order using List.reverseRecOn with
  | nil =>
    have hall : initial.filter (foreign webhookUrl calls []) = initial :=
      List.filter_eq_self.mpr fun _ _ => rfl
    rw [hall]
    simp [registerAll, lastCalls]
  | append_singleton order k ih =>
    have hforeign : (initial.filter (foreign webhookUrl calls order)).filter
        (fun e => !isOurEntry e (webhookUrl (calls k).connector)) =
          initial.filter (foreign webhookUrl calls (order ++ [k])) := by
      rw [List.filter_filter]
      apply List.filter_congr
      intro e _
      simp [foreign, Bool.and_comm]
    rw [registerAll_concat, ih, registerCall, register, List.filter_append, hforeign,
      filter_entries hinj hhash, lastCalls_concat, List.map_append, List.append_assoc]
    rfl

end Sequence

/-! ## Calls that run interleaved -/

section Interleaved

variable {Connector : Type} {webhookUrl : Connector → String} {calls : ℕ → Call Connector}
  {initial : List String}

/-- No call acquires the lock twice, and while nobody holds it the list is what the calls leave when
they run in the order of their acquisitions. -/
structure Invariant (webhookUrl : Connector → String) (calls : ℕ → Call Connector)
    (initial : List String) (w : Wallet) : Prop where
  nodup : w.acquired.Nodup
  idle : w.lock = none → w.entries = registerAll webhookUrl calls initial w.acquired

/-- What call `i` may count on while others run: nobody touches the list while it holds the
lock, and nobody takes the lock or fails in its name. -/
structure Tolerates (i : ℕ) (w w' : Wallet) : Prop where
  held : w.lock = some i →
    w'.lock = some i ∧ w'.walletWebhookUrls = w.walletWebhookUrls ∧ w'.acquired = w.acquired
  free : w.lock ≠ some i → w'.lock ≠ some i
  mem : i ∈ w'.acquired ↔ i ∈ w.acquired
  failed : i ∈ w.failed → i ∈ w'.failed

/-- The calls keep the list consistent, and each of them touches it under the lock only. -/
def contract (webhookUrl : Connector → String) (calls : ℕ → Call Connector)
    (initial : List String) : Contract Wallet where
  inv := Invariant webhookUrl calls initial
  rely j w w' := ∀ i, j = some i → Tolerates i w w'
  start i w := w.lock ≠ some i ∧ i ∉ w.acquired

/-- What a call has brought about when it has returned. -/
def Returned (i : ℕ) (w : Wallet) : Prop := w.lock ≠ some i ∧ (i ∈ w.acquired ∨ i ∈ w.failed)

/-- Call `i` holds the lock, and the list is what the calls before it have left. -/
def Holding (webhookUrl : Connector → String) (calls : ℕ → Call Connector)
    (initial : List String) (i : ℕ) (w : Wallet) : Prop :=
  w.lock = some i ∧ ∃ before, w.acquired = before ++ [i] ∧
    w.entries = registerAll webhookUrl calls initial before

/-- Call `i` holds the lock, and the list is what the calls up to it leave. -/
def Written (webhookUrl : Connector → String) (calls : ℕ → Call Connector)
    (initial : List String) (i : ℕ) (w : Wallet) : Prop :=
  w.lock = some i ∧ i ∈ w.acquired ∧
    w.entries = registerAll webhookUrl calls initial w.acquired

theorem Tolerates.entries {i : ℕ} {w w' : Wallet} (h : Tolerates i w w')
    (hlock : w.lock = some i) : w'.entries = w.entries := by
  rw [Wallet.entries, Wallet.entries, (h.held hlock).2.1]

theorem stable_start (i : ℕ) :
    (contract webhookUrl calls initial).Stable i ((contract webhookUrl calls initial).start i) := by
  intro w w' _ _ hstart hrely
  have h := hrely i rfl
  exact ⟨h.free hstart.1, fun hmem => hstart.2 (h.mem.mp hmem)⟩

theorem stable_returned (i : ℕ) : (contract webhookUrl calls initial).Stable i (Returned i) := by
  intro w w' _ _ hreturned hrely
  have h := hrely i rfl
  exact ⟨h.free hreturned.1, hreturned.2.imp h.mem.mpr h.failed⟩

theorem stable_holding (i : ℕ) :
    (contract webhookUrl calls initial).Stable i (Holding webhookUrl calls initial i) := by
  intro w w' _ _ hholding hrely
  obtain ⟨hlock, before, hacquired, hentries⟩ := hholding
  have h := hrely i rfl
  obtain ⟨hlock', -, hacquired'⟩ := h.held hlock
  exact ⟨hlock', before, hacquired'.trans hacquired, (h.entries hlock).trans hentries⟩

theorem stable_written (i : ℕ) :
    (contract webhookUrl calls initial).Stable i (Written webhookUrl calls initial i) := by
  intro w w' _ _ hwritten hrely
  obtain ⟨hlock, hmem, hentries⟩ := hwritten
  have h := hrely i rfl
  obtain ⟨hlock', -, hacquired'⟩ := h.held hlock
  refine ⟨hlock', hacquired'.symm ▸ hmem, ?_⟩
  rw [h.entries hlock, hacquired', hentries]

/-- A step by which call `i` changes nothing but what it alone may change. -/
theorem tolerates_of_others {i : ℕ} {w w' : Wallet}
    (hlock : ∀ j ≠ i, w.lock ≠ some j ∧ w'.lock ≠ some j)
    (hmem : ∀ j ≠ i, (j ∈ w'.acquired ↔ j ∈ w.acquired))
    (hfailed : ∀ j ∈ w.failed, j ∈ w'.failed) :
    ∀ j, j ≠ some i → (contract webhookUrl calls initial).rely j w w' := by
  rintro j hj k rfl
  have hk : k ≠ i := fun heq => hj (heq ▸ rfl)
  exact ⟨fun h => absurd h (hlock k hk).1, fun _ => (hlock k hk).2, hmem k hk, hfailed k⟩

/-- While `i` holds the lock, no other call does. -/
theorem lock_ne_of_held {i : ℕ} {w : Wallet} (hlock : w.lock = some i) :
    ∀ j ≠ i, w.lock ≠ some j := by
  intro j hj heq
  rw [hlock] at heq
  exact hj (Option.some.inj heq).symm

/-! ### Programs -/

/-- Before it has the lock, a call that fails changes nothing. -/
theorem fail_ok_of_start (i : ℕ) :
    (contract webhookUrl calls initial).Ok Always i (fun _ => Returned i) (fail i)
      ((contract webhookUrl calls initial).start i) := by
  refine ⟨fun w w' hinv hstart _ hrun => ?_, fun h => nomatch h⟩
  obtain rfl := Option.some.inj hrun
  have hsame : w.acquired.filter (fun j => j ≠ i) = w.acquired := by
    rw [List.filter_eq_self]
    intro j hj
    exact decide_eq_true fun heq => hstart.2 (heq ▸ hj)
  have hrolled : w.rollback i = { w with failed := i :: w.failed } := by
    rw [Wallet.rollback, if_neg hstart.1, hsame]
  rw [hrolled]
  refine ⟨⟨hinv.nodup, hinv.idle⟩, ?_, Returned i, ⟨hstart.1, Or.inr List.mem_cons_self⟩,
    stable_returned i, fun _ _ h => h⟩
  rintro j hj k rfl
  exact ⟨fun h => ⟨h, rfl, rfl⟩, fun h => h, Iff.rfl, List.mem_cons_of_mem _⟩

/-- A call that fails before its PUT leaves the list as it found it. -/
theorem fail_ok_of_holding (i : ℕ) :
    (contract webhookUrl calls initial).Ok Always i (fun _ => Returned i) (fail i)
      (Holding webhookUrl calls initial i) := by
  refine ⟨fun w w' hinv hholding _ hrun => ?_, fun h => nomatch h⟩
  obtain rfl := Option.some.inj hrun
  obtain ⟨hlock, before, hacquired, hentries⟩ := hholding
  have hnodup : (before ++ [i]).Nodup := hacquired ▸ hinv.nodup
  have hfresh : ∀ j ∈ before, j ≠ i := by
    intro j hj heq
    exact List.disjoint_of_nodup_append hnodup (heq ▸ hj) List.mem_cons_self
  have hbefore : w.acquired.filter (fun j => j ≠ i) = before := by
    rw [hacquired, List.filter_append, List.filter_eq_self.mpr fun j hj => by simp [hfresh j hj]]
    simp
  have hrolled : w.rollback i = ⟨none, w.walletWebhookUrls, before, i :: w.failed⟩ := by
    rw [Wallet.rollback, if_pos hlock, hbefore]
  rw [hrolled]
  refine ⟨⟨hnodup.of_append_left, fun _ => hentries⟩, ?_, Returned i,
    ⟨by simp, Or.inr List.mem_cons_self⟩, stable_returned i, fun _ _ h => h⟩
  refine tolerates_of_others (fun j hj => ⟨lock_ne_of_held hlock j hj, by simp⟩) ?_
    fun j hj => List.mem_cons_of_mem _ hj
  intro j hj
  simp [hacquired, hj]

/-- The commit. -/
theorem finish_ok (i : ℕ) :
    (contract webhookUrl calls initial).Ok Always i (fun _ => Returned i) finish
      (Written webhookUrl calls initial i) := by
  refine ⟨fun w w' hinv hwritten _ hrun => ?_, fun h => nomatch h⟩
  obtain rfl := Option.some.inj hrun
  obtain ⟨hlock, hmem, hentries⟩ := hwritten
  refine ⟨⟨hinv.nodup, fun _ => hentries⟩, ?_, Returned i,
    ⟨by simp [Wallet.commit], Or.inl hmem⟩, stable_returned i, fun _ _ h => h⟩
  exact tolerates_of_others
    (fun j hj => ⟨lock_ne_of_held hlock j hj, by simp [Wallet.commit]⟩)
    (fun _ _ => Iff.rfl) fun _ hj => hj

/-- The PUT of what the call makes of the list that the calls before it have left. -/
theorem putEntries_ok (i : ℕ) (entries : List String) :
    (contract webhookUrl calls initial).Ok Always i (fun _ => Returned i)
      (putEntries i (webhookUrl (calls i).connector) (calls i).webhookSecret entries)
      (fun w => Holding webhookUrl calls initial i w ∧ w.entries = entries) := by
  refine ⟨fun w w' hinv hread _ hrun => ?_,
    fun _ => (fail_ok_of_holding i).pre fun _ _ h => h.1⟩
  obtain rfl := Option.some.inj hrun
  obtain ⟨⟨hlock, before, hacquired, hentries⟩, rfl⟩ := hread
  refine ⟨⟨hinv.nodup, fun hnone => absurd (hlock.symm.trans hnone) (by simp)⟩, ?_,
    Written webhookUrl calls initial i, ⟨hlock, ?_, ?_⟩, stable_written i, finish_ok i⟩
  · exact tolerates_of_others
      (fun j hj => ⟨lock_ne_of_held hlock j hj, lock_ne_of_held hlock j hj⟩)
      (fun _ _ => Iff.rfl) fun _ hj => hj
  · show i ∈ w.acquired
    rw [hacquired]
    simp
  · show register _ _ w.entries = registerAll webhookUrl calls initial w.acquired
    rw [hacquired, registerAll_concat, registerCall, hentries]

/-- One call, run among any others. -/
theorem ensureWebhookRegistered_ok (i : ℕ) :
    (contract webhookUrl calls initial).Ok Always i (fun _ => Returned i)
      (ensureWebhookRegistered i (webhookUrl (calls i).connector) (calls i).webhookSecret)
      ((contract webhookUrl calls initial).start i) := by
  refine ⟨fun w w' hinv hstart _ hrun => ?_, fun _ => fail_ok_of_start i⟩
  simp only [Wallet.acquire] at hrun
  split_ifs at hrun with hfree
  obtain rfl := Option.some.inj hrun
  refine ⟨⟨?_, fun hnone => nomatch hnone⟩, ?_, Holding webhookUrl calls initial i,
    ⟨rfl, w.acquired, rfl, hinv.idle hfree⟩, stable_holding i, ?_⟩
  · rw [List.nodup_append]
    refine ⟨hinv.nodup, List.nodup_singleton i, ?_⟩
    rintro j hj k hk rfl
    exact hstart.2 (List.mem_singleton.mp hk ▸ hj)
  · refine tolerates_of_others (fun j hj => ⟨by simp [hfree], ?_⟩) ?_ fun _ hj => hj
    · intro heq
      exact hj (Option.some.inj heq).symm
    · intro j hj
      simp [hj]
  · -- the GET: what is read stays in the wallet, since the lock is held
    refine ⟨fun v v' hinv' hholding _ hget => ?_, fun _ => fail_ok_of_holding i⟩
    obtain rfl := Option.some.inj hget
    refine ⟨hinv', ?_, fun u => Holding webhookUrl calls initial i u ∧ u.entries = v.entries,
      ⟨hholding, rfl⟩, ?_, putEntries_ok i v.entries⟩
    · rintro j - k -
      exact ⟨fun h => ⟨h, rfl, rfl⟩, fun h => h, Iff.rfl, fun h => h⟩
    · intro u u' hu hu' hread hrely
      exact ⟨stable_holding i u u' hu hu' hread.1 hrely,
        ((hrely i rfl).entries hread.1.1).trans hread.2⟩

/-- Every call follows the contract. -/
theorem registrar_follows :
    Contract.FollowsTo (registrar webhookUrl calls) (contract webhookUrl calls initial) Always
      Returned :=
  ⟨stable_start, fun _ i => ensureWebhookRegistered_ok i, fun g hg => by simp [registrar] at hg,
    fun g hg => by simp [registrar] at hg⟩

/-- When every call has returned, nobody holds the lock, and every call has had it or failed. -/
theorem all_returned {initial : Option (List String)} {c : Config Wallet Unit}
    (hc : Reach (registrar webhookUrl calls) Always (Wallet.start initial) c)
    (hreturned : ∀ p ∈ c.procs, p = .ret ()) :
    Invariant webhookUrl calls (initial.getD []) c.state ∧ c.state.lock = none ∧
      (∀ i ∈ c.state.acquired, i < c.procs.length) ∧
      ∀ i < c.procs.length, i ∈ c.state.acquired ∨ i ∈ c.state.failed := by
  have hinit : Invariant webhookUrl calls (initial.getD []) (Wallet.start initial) :=
    ⟨List.nodup_nil, fun _ => rfl⟩
  have hstart : ∀ i, (contract webhookUrl calls (initial.getD [])).start i
      (Wallet.start initial) :=
    fun i => ⟨by simp [Wallet.start], by simp [Wallet.start]⟩
  have hgood := Contract.soundTo registrar_follows hinit hstart hc
  have hpost : ∀ i < c.procs.length, Returned i c.state := by
    intro i hi
    refine Contract.sound_post registrar_follows hinit hstart hc ?_
    rw [List.getElem?_eq_getElem hi, hreturned _ (List.getElem_mem hi)]
  refine ⟨hgood.inv, ?_, ?_, fun i hi => (hpost i hi).2⟩
  · cases hlock : c.state.lock with
    | none => rfl
    | some i =>
      by_cases hi : i < c.procs.length
      · exact absurd hlock (hpost i hi).1
      · exact absurd hlock (hgood.start i (Nat.le_of_not_lt hi)).1
  · intro i hi
    by_contra hlarge
    exact (hgood.start i (Nat.le_of_not_lt hlarge)).2 hi

end Interleaved

/-! ### The wallet -/

/-- **The wallet after all calls have returned**, each of them answered.  The list is the initial
one without the entries of the connectors' webhook URLs, followed by one entry for each connector
that called, with the secret of its call that was the last to acquire the lock. -/
theorem wallet_after_registrations {Connector : Type} [DecidableEq Connector]
    (webhookUrl : Connector → String) (hinj : Function.Injective webhookUrl)
    (hhash : ∀ x, '#' ∉ (webhookUrl x).toList) (calls : ℕ → Call Connector)
    (initial : Option (List String)) (c : Config Wallet Unit)
    (hc : Reach (registrar webhookUrl calls) Always (Wallet.start initial) c)
    (hreturned : ∀ p ∈ c.procs, p = .ret ()) (hanswered : c.state.failed = []) :
    c.state.acquired.Perm (List.range c.procs.length) ∧
      c.state.entries =
        (initial.getD []).filter (foreign webhookUrl calls (List.range c.procs.length)) ++
          (lastCalls calls c.state.acquired).map (entry webhookUrl calls) ∧
      ((lastCalls calls c.state.acquired).map fun k => (calls k).connector).Nodup ∧
      (∀ i < c.procs.length, ∃ k ∈ lastCalls calls c.state.acquired,
        (calls k).connector = (calls i).connector) ∧
      ∀ k ∈ lastCalls calls c.state.acquired, ∃ before after,
        c.state.acquired = before ++ k :: after ∧
          ∀ j ∈ after, (calls j).connector ≠ (calls k).connector := by
  obtain ⟨hinv, hlock, hbound, hall⟩ := all_returned hc hreturned
  have hacquired : ∀ i < c.procs.length, i ∈ c.state.acquired := by
    intro i hi
    rcases hall i hi with hmem | hfailed
    · exact hmem
    · rw [hanswered] at hfailed
      exact absurd hfailed List.not_mem_nil
  have hperm : c.state.acquired.Perm (List.range c.procs.length) := by
    rw [List.perm_ext_iff_of_nodup hinv.nodup List.nodup_range]
    intro i
    rw [List.mem_range]
    exact ⟨hbound i, hacquired i⟩
  have hforeign : foreign webhookUrl calls c.state.acquired =
      foreign webhookUrl calls (List.range c.procs.length) := by
    funext e
    exact hperm.all_eq
  refine ⟨hperm, ?_, nodup_lastCalls _, fun i hi => exists_mem_lastCalls (hacquired i hi),
    fun k hk => split_of_mem_lastCalls hk⟩
  rw [hinv.idle hlock, registerAll_eq hinj hhash, hforeign]

/-! ### A run -/

def sampleUrl (x : Bool) : String := if x then "https://dts/a" else "https://dts/b"

/-- The first connector calls twice, the second once in between. -/
def sampleCalls (i : ℕ) : Call Bool :=
  if i = 0 then ⟨true, "old"⟩ else if i = 1 then ⟨false, "secret"⟩ else ⟨true, "new"⟩

/-- The three calls are started, and get the lock in the order 0, 2, 1. -/
def sampleRun : List (Move Unit) :=
  [.spawn (), .spawn (), .spawn (), .run 0, .run 0, .run 0, .run 0, .run 2, .run 2, .run 2, .run 2,
    .run 1, .run 1, .run 1, .run 1]

/-- A wallet with an entry of the first connector and one of another service. -/
def sampleWallet : Option (List String) := some ["https://dts/a#stale", "https://other#x"]

theorem wallet_after_registrations_three :
    ∃ c, Reach (registrar sampleUrl sampleCalls) Always (Wallet.start sampleWallet) c ∧
      c.procs.length = 3 ∧ c.state.acquired = [0, 2, 1] ∧
      c.state.entries = ["https://other#x", "https://dts/a#new", "https://dts/b#secret"] ∧
      c.state.acquired.Perm (List.range c.procs.length) := by
  have hresult : ((registrar sampleUrl sampleCalls).exec ⟨Wallet.start sampleWallet, []⟩
      sampleRun).map (fun c => (c.procs.all Proc.hasReturned, c.procs.length, c.state.acquired,
        c.state.failed, c.state.entries)) =
      some (true, 3, [0, 2, 1], [],
        ["https://other#x", "https://dts/a#new", "https://dts/b#secret"]) := by
    decide +kernel
  obtain ⟨c, hexec, hfinal⟩ := Option.map_eq_some_iff.mp hresult
  simp only [Prod.mk.injEq] at hfinal
  obtain ⟨hdone, hlength, hacquired, hfailed, hentries⟩ := hfinal
  have hreach := reach_exec hexec
  have hreturned : c.Returned := Config.returned_of_all hdone
  have hinj : Function.Injective sampleUrl := by
    intro x y
    revert x y
    decide
  exact ⟨c, hreach, hlength, hacquired, hentries,
    (wallet_after_registrations sampleUrl hinj (by decide) sampleCalls sampleWallet c hreach
      hreturned hfailed).1⟩

end DigitalTrust.WebhookRegistration
