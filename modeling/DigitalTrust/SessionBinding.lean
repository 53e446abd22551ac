/-
# Who has logged in

A login that `interaction` finishes takes its account from the row of `oidc_upstream_interaction`,
and a callback puts it there.  The callback is found by its `state`; that it comes from the browser
which holds the cookie of the interaction is not checked anywhere.
-/
import DigitalTrust.UpstreamLogin

namespace DigitalTrust.Federation

open Interleaving ReadCommitted

/-! ## Logins -/

variable {uid : String} {p : Committed} {state : ℕ}

section Binding

variable (env : Surroundings)

/-- Every login that was finished: before it, the browser with the cookie has authenticated the
account for that interaction, and no other browser has. -/
def LoginsBound (trace : List Event) : Prop :=
  ∀ before after uid account, trace = before ++ .finished uid account :: after →
    .authenticated (env.holder uid) uid account ∈ before ∧
      ∀ browser, .authenticated browser uid account ∈ before → browser = env.holder uid

/-- What a row says is known: its `state` was issued for the interaction, and its account was
authenticated for it by the browser with the cookie. -/
structure RowKnown (trace : List Event) (uid : String) (r : UpstreamInteraction) : Prop where
  issued : .initiated uid r.state ∈ trace
  bound : ∀ account, r.tenantUserId = some account →
    .authenticated (env.holder uid) uid account ∈ trace

structure Bound (p : Committed) : Prop where
  rows : ∀ uid (r : UpstreamInteraction), p.row (.interaction uid) = some r →
    RowKnown env p.trace uid r
  oneUid : ∀ uid uid' state, .initiated uid state ∈ p.trace → .initiated uid' state ∈ p.trace →
    uid = uid'
  byHolder : ∀ browser uid account, .authenticated browser uid account ∈ p.trace →
    browser = env.holder uid
  logins : LoginsBound env p.trace

/-- An event that process `i` may add to a trace. -/
def Allowed (i : ℕ) (trace : List Event) : Event → Prop
  | .initiated _ state => state = i ∧ ∀ uid, .initiated uid state ∉ trace
  | .authenticated browser uid _ => browser = env.holder uid
  | .finished uid account => .authenticated (env.holder uid) uid account ∈ trace
  | .consented _ _ => True

/-- Nothing is forgotten, and nobody else issues the `state` of process `j`. -/
def Extends (j : Option ℕ) (p p' : Committed) : Prop :=
  p.trace <+: p'.trace ∧ ∀ i uid, j = some i → .initiated uid i ∈ p'.trace →
    .initiated uid i ∈ p.trace

variable {r : UpstreamInteraction}

theorem RowKnown.mono {env : Surroundings} {trace trace' : List Event}
    (h : RowKnown env trace uid r) (ht : trace <+: trace') : RowKnown env trace' uid r :=
  ⟨ht.subset h.issued, fun account ha => ht.subset (h.bound account ha)⟩

/-- Each column of a saved row is the entity's or the current row's. -/
theorem RowKnown.save {env : Surroundings} {trace : List Event}
    {entity read current : UpstreamInteraction} (he : RowKnown env trace uid entity)
    (hc : RowKnown env trace uid current) : RowKnown env trace uid (entity.save read current) := by
  constructor
  · simp only [UpstreamInteraction.save, saveColumn]
    split_ifs
    · exact hc.issued
    · exact he.issued
  · simp only [UpstreamInteraction.save, saveColumn]
    split_ifs
    · exact hc.bound
    · exact he.bound

def loginContract : StoreContract Key Row Event where
  inv := Bound env
  rely := Extends
  start i p := ∀ uid, .initiated uid i ∉ p.trace
  refl _ _ := ⟨List.prefix_rfl, fun _ _ _ h => h⟩
  start_stable i _ _ _ _ h hr uid hmem := h uid (hr.2 i uid rfl hmem)

variable {env}

/-! ## One commit -/

/-- A finished login at the end of a trace, or before it. -/
theorem LoginsBound.concat {i : ℕ} {trace : List Event} {e : Event} (h : LoginsBound env trace)
    (hby : ∀ browser uid account, .authenticated browser uid account ∈ trace →
      browser = env.holder uid) (he : Allowed env i trace e) : LoginsBound env (trace ++ [e]) := by
  intro before after uid account hsplit
  rcases List.eq_nil_or_concat after with rfl | ⟨after', e', rfl⟩
  · obtain ⟨rfl, rfl⟩ := List.append_inj' hsplit rfl |>.imp_right List.singleton_inj.mp
    exact ⟨he, fun browser hb => hby browser uid account hb⟩
  · rw [List.concat_eq_append, ← List.cons_append, ← List.append_assoc] at hsplit
    exact h before after' uid account (List.append_inj' hsplit rfl).1

/-- A commit with at most one event, which is allowed, and with rows that say what is known. -/
theorem Bound.commit {i : ℕ} {t : Tx Key Row Event} (h : Bound env p) (e : Option Event)
    (hevents : t.events = e.toList) (hallowed : ∀ x, e = some x → Allowed env i p.trace x)
    (hrows : ∀ uid w, t.writes (.interaction uid) = some w →
      ∃ r : UpstreamInteraction, w = some r ∧ RowKnown env (p.trace ++ t.events) uid r) :
    Bound env (p.commit i t) ∧ ∀ j, j ≠ some i → Extends j p (p.commit i t) := by
  have htrace : (p.commit i t).trace = p.trace ++ e.toList := by rw [Pub.trace_commit, hevents]
  have hnew : ∀ x, x ∈ (p.commit i t).trace → x ∈ p.trace ∨ e = some x := by
    intro x hx
    rw [htrace, List.mem_append, Option.mem_toList] at hx
    exact hx
  refine ⟨⟨fun uid r hr => ?_, fun uid uid' state hu hu' => ?_,
    fun browser uid account hb => ?_, ?_⟩,
    fun j hj => ⟨?_, fun i' uid hi' hu => ?_⟩⟩
  · rw [Pub.trace_commit]
    cases hw : t.writes (.interaction uid) with
    | none =>
      refine (h.rows uid r ?_).mono (List.prefix_append _ _)
      simpa [Pub.commit, hw] using hr
    | some w =>
      obtain ⟨r', rfl, hknown⟩ := hrows uid w hw
      obtain rfl : r' = r := by simpa [Pub.commit, hw] using hr
      exact hknown
  · rcases hnew _ hu with hu | hu <;> rcases hnew _ hu' with hu' | hu'
    · exact h.oneUid uid uid' state hu hu'
    · exact absurd hu ((hallowed _ hu').2 uid)
    · exact absurd hu' ((hallowed _ hu).2 uid')
    · exact (Event.initiated.inj (Option.mem_unique hu hu')).1
  · rcases hnew _ hb with hb | hb
    · exact h.byHolder browser uid account hb
    · exact hallowed _ hb
  · rw [htrace]
    cases e with
    | none => simpa using h.logins
    | some x => exact h.logins.concat h.byHolder (hallowed x rfl)
  · rw [htrace]
    exact List.prefix_append _ _
  · rcases hnew _ hu with hu | hu
    · exact hu
    · exact absurd (hi'.trans (congrArg some (hallowed _ hu).1)) hj

/-! ## Statements -/

variable {C : Label → Db → Prop} {i : ℕ} {φ : (loginContract env).Assert i}

/-- What process `i` knows about a row that it has read. -/
def known (φ : (loginContract env).Assert i) (uid : String) (r : UpstreamInteraction) :
    (loginContract env).Assert i where
  holds p := φ.holds p ∧ RowKnown env p.trace uid r
  stable p p' hp hp' h hr := ⟨φ.stable p p' hp hp' h.1 hr, h.2.mono hr.1⟩

/-- What process `i` knows once its callback has authenticated an account. -/
def authenticated (i : ℕ) (uid : String) (state : ℕ) (account : Uuid) :
    (loginContract env).Assert i where
  holds p := .initiated uid state ∈ p.trace ∧
    .authenticated (env.holder uid) uid account ∈ p.trace
  stable _ _ _ _ h hr := ⟨hr.1.subset h.1, hr.1.subset h.2⟩

/-- A commit without events keeps every assertion. -/
theorem keeps_step {m : Mine Key Row Event} {l : Label} {s : Db}
    (hs : At (loginContract env) index C i φ m l s) (hevents : m.tx.events = [])
    (hrows : ∀ uid w, m.tx.writes (.interaction uid) = some w →
      ∃ r : UpstreamInteraction, w = some r ∧ RowKnown env s.pub.trace uid r) :
    (loginContract env).Step i m.tx s.pub φ.holds := by
  have hsame : (s.pub.commit i m.tx).trace = s.pub.trace := by
    rw [Pub.trace_commit, hevents, List.append_nil]
  obtain ⟨hinv, hrely⟩ := Bound.commit (i := i) (t := m.tx) hs.inv none hevents (by simp)
    (by rwa [hevents, List.append_nil])
  refine ⟨hinv, hrely, φ.stable _ _ hs.inv hinv hs.holds ⟨?_, fun i' uid _ hu => ?_⟩⟩
  · rw [hsame]
  · rwa [hsame] at hu

/-- A statement on the users. -/
theorem changeUsers_keeps {α : Type} {f : Users → Except Failure (Users × α)} :
    Keeps (loginContract env) index C i φ (changeUsers i f) := by
  have hnothing : ∀ (m : Mine Key Row Event), m.tx.events = [] →
      (∀ uid, m.tx.writes (.interaction uid) = none) →
        ∀ s, At (loginContract env) index C i φ m .step s →
      (loginContract env).Step i m.tx s.pub φ.holds := by
    intro m hevents hwrites s hs
    refine keeps_step hs hevents fun uid w hw => ?_
    rw [hwrites uid] at hw
    exact absurd hw (by simp)
  refine Run.transaction (Body.post (Q := fun _ m => m.tx.events = [] ∧
      ∀ uid, m.tx.writes (.interaction uid) = none) ?_ fun _ m hm s hs =>
        ⟨φ, hnothing m hm.1 hm.2 s hs, rfl, rfl⟩) fun _ => rfl
  refine Body.seq (Body.selectForUpdate (fun _ _ _ => Body.throw) fun s x v hs _ hv => ?_)
  dsimp only
  split
  · exact Body.throw
  · exact Body.seq (Body.update (fun _ _ _ => Body.pure ⟨rfl, fun _ => rfl⟩)
      fun s' v hs' _ _ => Body.pure ⟨rfl, fun uid => Mine.write_of_ne _ _ (by simp) _⟩)

theorem call_keeps : Keeps (loginContract env) index C i φ call := Keeps.select

/-- Claiming invites keeps the login contract. -/
theorem claimInvites_keeps {externalUserId : String} (invites : List (Uuid × TenantUser)) :
    ∀ (taken : List Uuid) (claimed : List (Uuid × TenantUser)),
      Keeps (loginContract env) index C i φ
        (claimInvites i externalUserId invites taken claimed) := by
  induction invites with
  | nil => exact fun _ _ => Keeps.pure
  | cons invite invites ih =>
    intro taken claimed
    rw [claimInvites]
    split_ifs
    · exact ih _ _
    · refine Keeps.bind changeUsers_keeps fun won => ?_
      cases won with
      | false => exact ih _ _
      | true => exact Keeps.bind Keeps.select fun _ => ih _ _

/-- Resolving the user touches no interaction. -/
theorem resolveUser_keeps {q : UserQueries} {tenantId id : Uuid} {claims : Claims} {createdAt : ℕ} :
    Keeps (loginContract env) index C i φ (resolveUser q i tenantId claims id createdAt) := by
  refine Keeps.bind Keeps.select fun prior => Keeps.bind ?_ fun claimed => ?_
  · unfold claimInvited
    split
    · exact Keeps.pure
    · split_ifs
      · exact Keeps.pure
      · refine Keeps.bind Keeps.select fun invites => ?_
        split_ifs
        · exact Keeps.pure
        · exact Keeps.bind Keeps.select fun existing => claimInvites_keeps invites _ _
  · split
    · exact Keeps.pure
    · refine Keeps.bind Keeps.select fun found => ?_
      split
      · split_ifs
        · exact Keeps.pure
        · exact Keeps.throw
      · refine Keeps.bind Keeps.select fun existing => ?_
        split
        · exact Keeps.throw
        · exact changeUsers_keeps

theorem exchange_keeps {code : Code} : Keeps (loginContract env) index C i φ (exchange r code) := by
  refine Keeps.bind call_keeps fun _ => ?_
  split_ifs
  · split
    · exact Keeps.throw
    · split
      · exact Keeps.throw
      · exact Keeps.pure
  · exact Keeps.throw

/-- Saving an entity that says what is known. -/
theorem saveInteraction_keeps {entity : UpstreamInteraction}
    (hφ : ∀ p, Bound env p → φ.holds p → RowKnown env p.trace uid entity) :
    Keeps (loginContract env) index C i φ (saveInteraction i uid entity) := by
  refine Run.transaction (Body.seq (Body.selectIn fun s hs => ?_)) fun _ => rfl
  cases hread : (s.view i).row (.interaction uid) with
  | none =>
    refine Body.seq (Body.upsert (fun s' hs' _ => Body.pure fun s₂ hs₂ => ?_)
      fun s' v hs' hv => Body.pure fun s₂ hs₂ => ?_)
    · exact ⟨φ, keeps_step hs₂ rfl fun _ _ hw => by simp at hw, rfl, rfl⟩
    · obtain rfl : v = entity := by
        split at hv
        · exact (Option.some.inj hv).symm
        · exact absurd hv (by simp)
      refine ⟨φ, keeps_step hs₂ rfl fun uid' w hw => ?_, rfl, rfl⟩
      by_cases hu : uid' = uid
      · subst hu
        exact ⟨v, by simpa using hw.symm, hφ _ hs₂.inv hs₂.holds⟩
      · rw [Mine.write_of_ne _ _ (by simpa using hu)] at hw
        simp at hw
  | some read =>
    rw [storeRow]
    split_ifs
    · exact Body.pure fun s₂ hs₂ => ⟨φ, keeps_step hs₂ rfl fun _ _ hw => by simp at hw, rfl, rfl⟩
    · refine Body.seq (Body.update (fun s' hs' _ => Body.pure fun s₂ hs₂ => ?_)
        fun s' v hs' hv _ => Body.pure fun s₂ hs₂ => ?_)
      · exact ⟨φ, keeps_step hs₂ rfl fun _ _ hw => by simp at hw, rfl, rfl⟩
      · rw [hs'.view] at hv
        have hrow : s₂.pub.row (.interaction uid) = some v := hs₂.held (by simpa using hv)
        refine ⟨φ, keeps_step hs₂ rfl fun uid' w hw => ?_, rfl, rfl⟩
        by_cases hu : uid' = uid
        · subst hu
          exact ⟨_, by simpa using hw.symm,
            (hφ _ hs₂.inv hs₂.holds).save (hs₂.inv.rows uid' v hrow)⟩
        · rw [Mine.write_of_ne _ _ (by simpa using hu)] at hw
          simp at hw

/-- The row that `findByState` finds. -/
theorem row_of_findByState {d : Snapshot Key Row} (h : (d.keys.findSome? fun
      | .interaction uid =>
        ((d.row (.interaction uid)).filter fun r => r.state = state).map (uid, ·)
      | .users => none) = some (uid, r)) : d.row (.interaction uid) = some r ∧ r.state = state := by
  obtain ⟨k, -, hk⟩ := List.exists_of_findSome?_eq_some h
  cases k with
  | interaction uid' =>
    obtain ⟨r', hr', heq⟩ := Option.map_eq_some_iff.mp hk
    obtain ⟨rfl, rfl⟩ := Prod.mk.inj heq
    obtain ⟨hrow, hstate⟩ := Option.filter_eq_some_iff.mp hr'
    exact ⟨hrow, of_decide_eq_true hstate⟩
  | users => exact absurd hk (by simp)

/-- What a row found by its `state` says is known. -/
theorem validateInteraction_run {now : ℕ}
    {R : Except (Exn Failure) (String × UpstreamInteraction) → (loginContract env).Assert i → Prop}
    (h : ∀ uid r, r.state = state → R (.ok (uid, r)) (known φ uid r)) (hX : ∀ e, R (.error e) φ) :
    Run (loginContract env) index C i φ (validateInteraction state now) R := by
  refine Run.seq (Run.observe (fun s hs => ?_) (hX _))
  dsimp only
  generalize hfound : s.now.keys.findSome? _ = found
  match found with
  | none => exact ⟨φ, hs.holds, Run.throw (hX _)⟩
  | some (uid, r) =>
    obtain ⟨hrow, hstate⟩ := row_of_findByState hfound
    dsimp only
    split_ifs
    · exact ⟨φ, hs.holds, Run.throw (hX _)⟩
    · exact ⟨known φ uid r, ⟨hs.holds, hs.inv.rows uid r hrow⟩, Run.pure (h uid r hstate)⟩

/-! ## Requests -/

/-- Writing the account that the callback has authenticated. -/
theorem setTenantUserId_run {now : ℕ} {account : Uuid} :
    Run (loginContract env) index C i (authenticated i uid state account)
      (setTenantUserIdForInteraction i state account now) fun _ _ => True := by
  refine Run.seq (validateInteraction_run (fun uid' r hstate => ?_) fun _ => trivial)
  refine Run.post (saveInteraction_keeps fun p hp hknown => ?_) fun _ _ _ => trivial
  obtain ⟨⟨hissued, hauth⟩, hrow⟩ := hknown
  -- the row found now is the one of the interaction: a `state` belongs to one
  have hissued' : .initiated uid' state ∈ p.trace := hstate ▸ hrow.issued
  obtain rfl := hp.oneUid uid uid' state hissued hissued'
  exact ⟨hrow.issued, fun a ha => Option.some.inj ha ▸ hauth⟩

theorem consumeInteraction_run {now : ℕ} :
    Run (loginContract env) index C i φ (consumeInteraction i state now) fun _ _ => True := by
  refine Run.seq (validateInteraction_run (fun uid r _ => ?_) fun _ => trivial)
  refine Run.post (saveInteraction_keeps fun p hp hknown => ?_) fun _ _ _ => trivial
  exact ⟨hknown.2.issued, hknown.2.bound⟩

end Binding

/-! ## The condition -/

/-- A callback that authenticates a user for an interaction comes from the browser that holds
the interaction's cookie. -/
def callbackByHolder (env : Surroundings) : Label → Db → Bool
  | .authenticated browser uid, _ => browser = env.holder uid
  | .step, _ => true

section Requests

variable {env : Surroundings} {i : ℕ} {φ : (loginContract env).Assert i}

/-- A callback keeps the login contract. -/
theorem handleUpstreamCallback_run {browser : ℕ} {r : Callback} {code : Code} :
    Run (loginContract env) index (fun l s => callbackByHolder env l s = true) i φ
      (handleUpstreamCallback env i browser r code state) fun _ _ => True := by
  refine Run.seq (validateInteraction_run (fun uid row hstate => ?_) fun _ => trivial)
  refine Keeps.seq exchange_keeps (fun claims => Keeps.seq resolveUser_keeps (fun account => ?_)
    fun _ => trivial) fun _ => trivial
  refine Run.seq (Run.record fun s hs => ⟨authenticated i uid state account, ?_, ?_⟩)
  · have hholder : browser = env.holder uid := of_decide_eq_true hs.cond
    obtain ⟨hinv, hrely⟩ :=
      Bound.commit (i := i) (t := Tx.empty.push (.authenticated browser uid account))
      hs.inv (some (.authenticated browser uid account)) rfl
      (fun x hx => Option.some.inj hx ▸ hholder) fun _ _ hw => by simp [Tx.push, Tx.empty] at hw
    refine ⟨hinv, hrely, ?_, ?_⟩
    · rw [Pub.trace_commit]
      exact List.mem_append_left _ (hstate ▸ hs.holds.2.issued)
    · rw [Pub.trace_commit, hholder]
      exact List.mem_append_right _ (by simp [Tx.push, Tx.empty])
  · refine Keeps.seq call_keeps (fun _ => ?_) fun _ => trivial
    refine Run.seq (Run.post setTenantUserId_run fun r ψ _ => ?_)
    cases r with
    | ok _ => exact consumeInteraction_run
    | error e => trivial

variable {C : Label → Db → Prop}

/-- Recording an event that issues no `state` keeps every assertion. -/
theorem record_step {l : Label} {s : Db} {e : Event}
    (hs : At (loginContract env) index C i φ Mine.idle l s)
    (he : ∀ uid state, e ≠ .initiated uid state) (hallowed : Allowed env i s.pub.trace e) :
    (loginContract env).Step i (Tx.empty.push e) s.pub φ.holds := by
  obtain ⟨hinv, hrely⟩ := Bound.commit (i := i) (t := Tx.empty.push e) hs.inv (some e) rfl
    (fun x hx => Option.some.inj hx ▸ hallowed) fun _ _ hw => by simp [Tx.push, Tx.empty] at hw
  refine ⟨hinv, hrely, φ.stable _ _ hs.inv hinv hs.holds ⟨?_, fun i' uid _ hu => ?_⟩⟩
  · rw [Pub.trace_commit]
    exact List.prefix_append _ _
  · rw [Pub.trace_commit, List.mem_append] at hu
    refine hu.resolve_right fun hu => ?_
    exact he uid i' (List.mem_singleton.mp hu).symm

/-- The row starts anew with a `state` that nobody else has drawn. -/
theorem upsertByInteractionUid_run {entity : UpstreamInteraction} (hstate : entity.state = i) :
    Run (loginContract env) index C i ((loginContract env).atStart i)
      (upsertByInteractionUid i uid entity) fun _ _ => True := by
  let anything : (loginContract env).Assert i := ⟨fun _ => True, fun _ _ _ _ _ _ => trivial⟩
  refine Run.seq (Run.transaction (Body.seq (Body.upsert (fun _ _ hno => by simp at hno)
    fun s v hs hv => Body.emit fun s₂ hs₂ => ⟨anything, ?_, ?_, trivial⟩)) fun _ => trivial)
  rotate_left
  -- the row is read again, whatever has become of it
  · refine Keeps.seq Keeps.select (fun saved => ?_) fun _ => trivial
    cases saved with
    | none => exact Run.throw trivial
    | some _ => exact Run.pure trivial
  obtain rfl := Option.some.inj hv
  have hfresh : ∀ uid', .initiated uid' i ∉ s₂.pub.trace := hs₂.holds
  refine (Bound.commit hs₂.inv (some (.initiated uid entity.state)) rfl
    (fun x hx => Option.some.inj hx ▸ ⟨hstate, hstate ▸ hfresh⟩) fun uid' w hw => ?_).imp_right
      fun hrely => ⟨hrely, trivial⟩
  by_cases hu : uid' = uid
  · subst hu
    refine ⟨_, by simpa using hw.symm, List.mem_append_right _ ?_, fun a ha => by simp at ha⟩
    exact List.mem_singleton.mpr rfl
  · rw [Mine.push_writes, Mine.write_of_ne _ _ (by simpa using hu)] at hw
    simp at hw

/-- A login that starts draws a `state` of its own. -/
theorem startUpstreamLogin_run {details : Details} :
    Run (loginContract env) index C i ((loginContract env).atStart i) (startUpstreamLogin i details)
      fun _ _ => True := by
  unfold startUpstreamLogin
  split
  · exact Run.throw trivial
  · split
    · exact Run.throw trivial
    · refine Keeps.seq call_keeps (fun _ => ?_) fun _ => trivial
      split
      · exact Run.throw trivial
      · unfold initiateUpstreamLogin
        split_ifs
        · exact Run.throw trivial
        · exact upsertByInteractionUid_run rfl

/-- A grant for an account of which something is known. -/
theorem createAndSaveGrant_run {account : Option Uuid} {missing : Option (List String)}
    {R : Except (Exn Failure) Uuid → (loginContract env).Assert i → Prop}
    (h : ∀ a, account = some a → R (.ok a) φ) (hX : ∀ e, R (.error e) φ) :
    Run (loginContract env) index C i φ (createAndSaveGrant env account missing) R := by
  refine Run.seq (Run.select (fun s hs => ?_) (hX _))
  dsimp only
  split
  · exact Run.throw (hX _)
  · rename_i a user hfound
    obtain ⟨hfound, -⟩ := Option.filter_eq_some_iff.mp hfound
    obtain ⟨a', ha', hrow⟩ := Option.bind_eq_some_iff.mp hfound
    obtain ⟨u, -, heq⟩ := Option.map_eq_some_iff.mp hrow
    obtain ⟨rfl, rfl⟩ := Prod.mk.inj heq
    refine Keeps.seq call_keeps (fun _ => ?_) hX
    split_ifs
    · exact Keeps.seq call_keeps (fun _ => Run.pure (h a' ha')) hX
    · exact Run.throw (hX _)

/-- A login is finished with an account that the browser has authenticated. -/
theorem finishLogin_run {details : Details} {row : UpstreamInteraction} :
    Run (loginContract env) index C i (known φ details.uid row) (finishLogin env i details row)
      fun _ _ => True := by
  refine Run.seq (createAndSaveGrant_run (fun account haccount => ?_) fun _ => trivial)
  refine Run.record fun s hs => ⟨known φ details.uid row, ?_, trivial⟩
  have hauth := hs.holds.2.bound account haccount
  exact record_step hs (by simp) hauth

/-- Every request follows the contract. -/
theorem handler_serves_login (env : Surroundings) :
    (loginContract env).Serves index (fun l s => callbackByHolder env l s = true)
      (handler env) := by
  intro r i
  cases r with
  | interaction details =>
    change Run _ _ _ _ _ (interaction env i details) _
    unfold interaction
    cases details.prompt with
    | login =>
      refine Run.seq (Run.observe (fun s hs => ?_) trivial)
      dsimp only
      cases hfound : (s.now.row (.interaction details.uid)).filter fun r =>
        r.consumedAt.isSome with
      | none => exact ⟨_, hs.holds, startUpstreamLogin_run⟩
      | some row =>
        have hrow := (Option.filter_eq_some_iff.mp hfound).1
        refine ⟨known ((loginContract env).atStart i) details.uid row, ?_, finishLogin_run⟩
        exact ⟨hs.holds, hs.inv.rows _ row hrow⟩
    | consent =>
      cases details.accountId with
      | none => exact Run.throw trivial
      | some a =>
        refine Run.seq (createAndSaveGrant_run (fun account _ => ?_) fun _ => trivial)
        exact Run.record fun s hs => ⟨_, record_step hs (by simp) trivial, trivial⟩
    | other name => exact Run.throw trivial
  | callback browser r =>
    change Run _ _ _ _ _ (callback env i browser r) _
    unfold callback
    split
    · exact Run.throw trivial
    · split
      · split
        · exact Run.throw trivial
        · exact handleUpstreamCallback_run
      · exact Run.throw trivial

end Requests

/-! ## Every run -/

/-- Before the first request: no interaction and no login. -/
structure LoginStart (keys : List Key) (p : Committed) : Prop where
  keys : ∀ k, p.row k ≠ none → k ∈ keys
  empty : ∀ uid, p.row (.interaction uid) = none
  trace : p.trace = []

/-- Nothing is unbound at the start. -/
theorem LoginStart.bound {env : Surroundings} {keys : List Key} (h : LoginStart keys p) :
    Bound env p where
  rows uid r hr := by
    rw [h.empty uid] at hr
    exact absurd hr (by simp)
  oneUid uid uid' state hu := by
    rw [h.trace] at hu
    exact absurd hu List.not_mem_nil
  byHolder browser uid account hb := by
    rw [h.trace] at hb
    exact absurd hb List.not_mem_nil
  logins before after uid account hsplit := by
    rw [h.trace] at hsplit
    exact absurd hsplit (by simp)

theorem LoginStart.respected {keys : List Key} (h : LoginStart keys p) : index.Respected p.row := by
  intro k k' v v' hne hk hk'
  cases k with
  | users => rfl
  | interaction uid =>
    rw [h.empty uid] at hk
    exact absurd hk (by simp)

/-- **Logins are bound to their browser** in every run in which the callbacks that authenticate a
user for an interaction come from the browser that holds its cookie. -/
theorem logins_bound (env : Surroundings) {keys : List Key} {p₀ : Committed}
    (h₀ : LoginStart keys p₀) {c : Config Db Label}
    (hc : Reach (service true (handler env)) (fun l s => callbackByHolder env l s = true)
      (Store.initial keys p₀) c) : LoginsBound env c.state.pub.trace :=
  (StoreContract.sound (handler_serves_login env) h₀.keys h₀.respected h₀.bound
    (fun i uid hu => by rw [h₀.trace] at hu; exact List.not_mem_nil hu) hc).2.logins

/-- Browser 0 holds the cookies. -/
def oneHolder : Surroundings := ⟨fun _ => 0, plainQueries, fun _ _ => []⟩

def member : TenantUser := ⟨1, some "sub", "user", none, .readonly, .active, false, 0⟩

def oneMember : List ((k : Key) × Row k) := [⟨.users, ⟨[(7, member)], by decide⟩⟩]

def oneMemberConfig : Config Db Label :=
  ⟨Store.initial (oneMember.map Sigma.fst) (Pub.ofRows oneMember), []⟩

theorem oneMember_start : LoginStart (oneMember.map Sigma.fst) (Pub.ofRows oneMember) where
  keys _ hk := Pub.keys_ofRows hk
  empty _ := rfl
  trace := rfl

def loginPrompt : Details := ⟨"interaction", .login, none, none, some "client", some 1, 10⟩

/-- The answer of the upstream provider when the member follows the link with `state` 0. -/
def memberAnswer : Callback :=
  ⟨none, some ⟨0, 0, some ⟨some "sub", none, none⟩⟩, some 0, some "host", 20, 21, 22, 8, 20⟩

/-- The login is started, a browser comes back from the upstream provider, and the login is
finished. -/
def loginWith (browser : ℕ) : List (Move Request) :=
  .spawn (.interaction loginPrompt) :: List.replicate 7 (.run 0) ++
    .spawn (.callback browser memberAnswer) :: List.replicate 15 (.run 1) ++
      .spawn (.interaction loginPrompt) :: List.replicate 5 (.run 2)

/-- The browser with the cookie comes back itself. -/
theorem logins_bound_own :
    ∃ c, (service true (handler oneHolder)).execIf (callbackByHolder oneHolder) oneMemberConfig
        (loginWith 0) = some c ∧
      .finished "interaction" 7 ∈ c.state.pub.trace ∧ LoginsBound oneHolder c.state.pub.trace := by
  have hresult : ((service true (handler oneHolder)).execIf (callbackByHolder oneHolder)
      oneMemberConfig (loginWith 0)).map (fun c =>
        decide (.finished "interaction" 7 ∈ c.state.pub.trace)) =
        some true := by
    decide +kernel
  obtain ⟨c, hexec, hfinished⟩ := Option.map_eq_some_iff.mp hresult
  exact ⟨c, hexec, of_decide_eq_true hfinished, logins_bound oneHolder oneMember_start
    (reach_execIf hexec)⟩

/-- Another browser follows the link: the holder of the cookie is logged in as its user. -/
theorem forwarded_login :
    ∃ c, Reach (service true (handler oneHolder)) Always
        (Store.initial (oneMember.map Sigma.fst) (Pub.ofRows oneMember)) c ∧
      ¬LoginsBound oneHolder c.state.pub.trace := by
  have hresult : ((service true (handler oneHolder)).exec oneMemberConfig (loginWith 1)).map
      (fun c => c.state.pub.trace) = some ([.initiated "interaction" 0,
        .authenticated 1 "interaction" 7] ++ .finished "interaction" 7 :: []) := by
    decide +kernel
  obtain ⟨c, hexec, htrace⟩ := Option.map_eq_some_iff.mp hresult
  refine ⟨c, reach_exec hexec, fun hbound => ?_⟩
  have hother := (hbound _ _ _ _ htrace).2 1 (by simp)
  exact absurd hother (by decide)

end DigitalTrust.Federation
