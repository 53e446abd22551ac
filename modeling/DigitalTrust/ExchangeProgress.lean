/-
# The progress of an exchange under repeated reports

An agent may report the states of an exchange more than once and out of order.  Each report is a
transaction of its own that runs `observe`.  `observations_stored` says that a list of reports
leaves the row `observeAll`, and the rest is about that function.
-/
import DigitalTrust.ExchangeRepository
import DigitalTrust.StoreAlone

namespace DigitalTrust

open ReadCommitted

/-! ## Ranks -/

/-- The exchange state that a reported string stands for. -/
def reportedState? (state : String) : Option ExchangeState := exchangeState? (normalizeState state)

/-- The rank of a report: that of its state, and the lowest one if it names no state. -/
def reportRank (state : String) : ℕ := ((reportedState? state).map ExchangeState.rank).getD 0

/-- The report names a failure or an abandonment. -/
def reportsFailure (state : String) : Bool := (reportedState? state).any ExchangeState.isFailure

def CredentialExchange.report (id : Uuid) (externalId : String) (exchange : CredentialExchange)
    (state : String) : CredentialExchange :=
  (exchange.observed id externalId (normalizeState state)).1

def CredentialExchange.observeAll (id : Uuid) (externalId : String)
    (exchange : CredentialExchange) (states : List String) : CredentialExchange :=
  states.foldl (CredentialExchange.report id externalId) exchange

theorem CredentialExchange.confirmSubmission_state (exchange : CredentialExchange) :
    exchange.confirmSubmission.state = exchange.state := by
  unfold CredentialExchange.confirmSubmission
  split_ifs <;> rfl

/-- A report binds the exchange to the agent's. -/
theorem externalId_report (id : Uuid) (externalId : String) (exchange : CredentialExchange)
    (state : String) : (exchange.report id externalId state).externalId = some externalId := by
  unfold CredentialExchange.report CredentialExchange.observed CredentialExchange.advance
    CredentialExchange.confirmSubmission
  cases exchangeState? (normalizeState state) with
  | none => rfl
  | some next =>
    dsimp only
    split_ifs <;> rfl

/-- The state after a report: the reported one if `advance` takes it. -/
theorem state_report (id : Uuid) (externalId : String) (exchange : CredentialExchange)
    (state : String) :
    (exchange.report id externalId state).state =
      ((reportedState? state).filter exchange.state.accepts).getD exchange.state := by
  unfold CredentialExchange.report CredentialExchange.observed reportedState?
  cases exchangeState? (normalizeState state) with
  | none => rfl
  | some next =>
    simp only [CredentialExchange.confirmSubmission_state, CredentialExchange.advance,
      Option.filter_some]
    split_ifs <;> rfl

/-- A report never lowers the rank. -/
theorem rank_le_rank_report (id : Uuid) (externalId : String) (exchange : CredentialExchange)
    (state : String) :
    exchange.state.rank ≤ (exchange.report id externalId state).state.rank := by
  rw [state_report]
  cases hnext : (reportedState? state).filter exchange.state.accepts with
  | none => exact le_rfl
  | some next =>
    have haccepts := (Option.filter_eq_some_iff.mp hnext).2
    simp only [ExchangeState.accepts, Bool.not_eq_true', Bool.or_eq_false_iff,
      decide_eq_false_iff_not, not_le] at haccepts
    exact haccepts.1.le

/-- A report that is no failure raises the rank to its own. -/
theorem rank_report (id : Uuid) (externalId : String) (exchange : CredentialExchange)
    {state : String} (h : reportsFailure state = false) :
    (exchange.report id externalId state).state.rank =
      max exchange.state.rank (reportRank state) := by
  rw [state_report, reportRank]
  unfold reportsFailure at h
  cases hnext : reportedState? state with
  | none => simp
  | some next =>
    rw [hnext, Option.any_some] at h
    rw [Option.filter_some, Option.map_some, Option.getD_some]
    by_cases hle : next.rank ≤ exchange.state.rank
    · simp [ExchangeState.accepts, h, hle]
    · have hlt : exchange.state.rank ≤ next.rank := by omega
      simp [ExchangeState.accepts, h, hle, hlt]

/-- No list of reports lowers the rank. -/
theorem rank_le_rank_observeAll (id : Uuid) (externalId : String) (exchange : CredentialExchange)
    (states : List String) :
    exchange.state.rank ≤ (exchange.observeAll id externalId states).state.rank := by
  induction states generalizing exchange with
  | nil => exact le_rfl
  | cons state states ih =>
    exact (rank_le_rank_report id externalId exchange state).trans
      (ih (exchange.report id externalId state))

/-- Reports without a failure raise the rank to the highest among them. -/
theorem rank_observeAll (id : Uuid) (externalId : String) (exchange : CredentialExchange)
    {states : List String} (h : ∀ state ∈ states, reportsFailure state = false) :
    (exchange.observeAll id externalId states).state.rank =
      max exchange.state.rank (states.toFinset.sup reportRank) := by
  induction states generalizing exchange with
  | nil => simp [CredentialExchange.observeAll]
  | cons state states ih =>
    have hrest := ih (exchange.report id externalId state) fun s hs => h s (.tail _ hs)
    rw [rank_report id externalId exchange (h state (.head _))] at hrest
    rw [List.toFinset_cons, Finset.sup_insert]
    exact hrest.trans (max_assoc _ _ _)

/-! ## Reports to the database -/

/-- Reports about one exchange, each in a transaction of its own. -/
def observations (i : ℕ) (tenantId connectorId : Uuid) (externalId : String) (id : Option Uuid) :
    List String → Service Unit
  | [] => pure ()
  | state :: states => do
    let _ ← transaction .step i (observe i tenantId connectorId externalId state id)
    observations i tenantId connectorId externalId id states

/-- The exchange `x` can be observed as the agent's exchange `externalId`: neither is bound to
another one.  It is looked up by its identifier, or by the agent's once it is bound. -/
structure Observable (tenantId connectorId : Uuid) (externalId : String) (id : Option Uuid)
    (x : Uuid) (exchange : CredentialExchange) (d : Snapshot Key Row) : Prop where
  row : d.row (.exchange x) = some exchange
  key : Key.exchange x ∈ d.keys
  tenant : exchange.tenantId = tenantId
  connector : exchange.connectorId = connectorId
  bound : truthy exchange.externalId = true → exchange.externalId = some externalId
  found : id = some x ∨ id = none ∧ exchange.externalId = some externalId
  alone : ∀ y other, y ≠ x → d.row (.exchange y) = some other →
    ¬(other.tenantId = tenantId ∧ other.connectorId = connectorId ∧
      other.externalId = some externalId)

namespace Observable

variable {tenantId connectorId : Uuid} {externalId : String} {id : Option Uuid} {x : Uuid}
  {exchange : CredentialExchange} {d : Snapshot Key Row}

/-- The lookup finds the exchange. -/
theorem observedExchange_eq (h : Observable tenantId connectorId externalId id x exchange d) :
    observedExchange tenantId connectorId externalId id d = some x := by
  obtain rfl | ⟨rfl, hext⟩ := h.found
  · simp [observedExchange, h.row, h.tenant, h.connector, Option.filter_some]
  · set p : CredentialExchange → Bool := fun e =>
      e.tenantId = tenantId && e.connectorId = connectorId && e.externalId = some externalId with hp
    have hmem : (x, exchange) ∈ exchanges p d := by
      refine List.mem_filterMap.mpr ⟨.exchange x, h.key, ?_⟩
      simp [h.row, hp, h.tenant, h.connector, hext]
    -- whatever comes first is the exchange, since no other one matches
    cases hlist : exchanges p d with
    | nil => exact absurd (hlist ▸ hmem) List.not_mem_nil
    | cons first rest =>
      have hfirst : first ∈ exchanges p d := hlist ▸ List.mem_cons_self
      obtain ⟨hrow, hmatch⟩ := mem_exchanges hfirst
      simp only [hp, Bool.and_eq_true, decide_eq_true_eq] at hmatch
      have hx : first.1 = x := by
        by_contra hne
        exact h.alone first.1 first.2 hne hrow ⟨hmatch.1.1, hmatch.1.2, hmatch.2⟩
      change ((exchanges p d).head?).map (fun e => e.1) = some x
      rw [hlist]
      exact congrArg some hx

/-- The report does not run into the unique index. -/
theorem clashes_eq (h : Observable tenantId connectorId externalId id x exchange d)
    (state : String) :
    index.clashes (.exchange x) (exchange.report x externalId state) d = false := by
  refine Index.clashes_eq_false fun k other hne hrow => ?_
  cases k with
  | exchange y =>
    have hfixed := observed_fixed exchange x externalId (normalizeState state)
    have hbound := externalId_report x externalId exchange state
    have hother := h.alone y other (fun hy => hne (hy ▸ rfl)) hrow
    by_contra hclash
    simp only [index, CredentialExchange.clash, Bool.not_eq_false, Bool.and_eq_true,
      decide_eq_true_eq] at hclash
    refine hother ⟨?_, ?_, ?_⟩
    · exact hclash.1.1.1.symm.trans (hfixed.2.1.trans h.tenant)
    · exact hclash.1.1.2.symm.trans (hfixed.2.2.trans h.connector)
    · exact hclash.2.symm.trans hbound
  | _ => rfl

/-- The exchange can be observed again after a report. -/
theorem report (h : Observable tenantId connectorId externalId id x exchange d) (state : String)
    {d' : Snapshot Key Row} (hkeys : d'.keys = d.keys)
    (hrow : d'.row (.exchange x) = some (exchange.report x externalId state))
    (hrest : ∀ y, y ≠ x → d'.row (.exchange y) = d.row (.exchange y)) :
    Observable tenantId connectorId externalId id x (exchange.report x externalId state) d' := by
  have hfixed := observed_fixed exchange x externalId (normalizeState state)
  have hbound := externalId_report x externalId exchange state
  exact
    { row := hrow
      key := hkeys ▸ h.key
      tenant := hfixed.2.1.trans h.tenant
      connector := hfixed.2.2.trans h.connector
      bound := fun _ => hbound
      found := h.found.imp_right fun hid => ⟨hid.1, hbound⟩
      alone := fun y other hne hy => h.alone y other hne (hrest y hne ▸ hy) }

/-- It may be observed: `observe` does not find it bound to another exchange of the agent. -/
theorem not_conflict (h : Observable tenantId connectorId externalId id x exchange d) :
    (truthy exchange.externalId && decide (exchange.externalId ≠ some externalId)) = false := by
  rw [Bool.and_eq_false_iff]
  by_cases hbound : truthy exchange.externalId = true
  · exact .inr (by simp [h.bound hbound])
  · exact .inl (by simpa using hbound)

end Observable

/-! ### Calls -/

section Reports

variable {i : ℕ} {tenantId connectorId : Uuid} {externalId : String} {id : Option Uuid} {x : Uuid}

/-- One report: the row becomes what `report` says, and no other exchange changes. -/
theorem alone_observe {σ : Solo Key Row Event} {exchange : CredentialExchange} (hidle : σ.Idle)
    (h : Observable tenantId connectorId externalId id x exchange σ.now) (state : String) :
    Alone i σ (transaction .step i (observe i tenantId connectorId externalId state id))
      fun r σ' => (∃ transition, r = .ok transition) ∧ σ'.Idle ∧
        Observable tenantId connectorId externalId id x (exchange.report x externalId state)
          σ'.now := by
  have hview : σ.view = σ.now := congrArg (Snapshot.mk σ.keys) (funext hidle.row)
  have hrow : σ.row (.exchange x) = some exchange := (hidle.row _).trans h.row
  refine Alone.transaction (Alone.seq (Alone.selectForUpdate ?_))
  rw [hview, h.observedExchange_eq, Option.bind_some, hrow]
  simp only [Option.map_some, h.not_conflict, Bool.false_eq_true, if_false]
  refine Alone.seq (Alone.saveRow (CredentialExchange.save_self _ _) hrow
    (hview ▸ h.clashes_eq state) (fun hsame => ?_) ?_)
  · -- the report says nothing new, so nothing is written
    refine Alone.pure ⟨⟨_, rfl⟩, rfl, h.report state rfl ?_ fun y _ => hidle.row _⟩
    exact hrow.trans (congrArg some hsame.symm)
  · refine Alone.pure ⟨⟨_, rfl⟩, rfl, h.report state rfl (Solo.row_write_self _) fun y hne => ?_⟩
    exact (Solo.row_write_of_ne (by simpa using hne) _).trans (hidle.row _)

/-- A list of reports leaves the row `observeAll`. -/
theorem alone_observations {σ : Solo Key Row Event} {exchange : CredentialExchange}
    (hidle : σ.Idle) (h : Observable tenantId connectorId externalId id x exchange σ.now)
    (states : List String) :
    Alone i σ (observations i tenantId connectorId externalId id states) fun r σ' =>
      r = .ok () ∧ Observable tenantId connectorId externalId id x
        (exchange.observeAll x externalId states) σ'.now := by
  induction states generalizing σ exchange with
  | nil => exact Alone.pure ⟨rfl, h⟩
  | cons state states ih =>
    refine Alone.seq ((alone_observe hidle h state).post fun r σ' hr => ?_)
    obtain ⟨⟨transition, rfl⟩, hidle', h'⟩ := hr
    exact ih hidle' h'

end Reports

/-- **The reports' set decides.**  Reports about one exchange, applied one after another at rest,
are all stored.  If it was pending and none is a failure, its rank is the highest among the
reports'; and no reports lower it. -/
theorem exchange_rank_of_observations (i : ℕ) (tenantId connectorId : Uuid) (externalId : String)
    (id : Option Uuid) (x : Uuid) (exchange : CredentialExchange) (s : Db) (hquiet : s.Quiet)
    (h : Observable tenantId connectorId externalId id x exchange s.now) :
    ∃ stored : List String → CredentialExchange,
      (∀ states, ∃ s', (observations i tenantId connectorId externalId id states).run.runAlone s =
          some (s', .ok ()) ∧ s'.pub.row (.exchange x) = some (stored states)) ∧
      (∀ states, exchange.state = .pending → (∀ state ∈ states, reportsFailure state = false) →
        (stored states).state.rank =
          max ExchangeState.pending.rank (states.toFinset.sup reportRank)) ∧
      (∀ states states', exchange.state = .pending →
        (∀ state ∈ states, reportsFailure state = false) →
        (∀ state, state ∈ states ↔ state ∈ states') →
        (stored states).state.rank = (stored states').state.rank) ∧
      ∀ states later, (stored states).state.rank ≤ (stored (states ++ later)).state.rank := by
  refine ⟨exchange.observeAll x externalId, fun states => ?_, fun states hpending hstates => ?_,
    fun states states' hpending hstates hsame => ?_, fun states later => ?_⟩
  · have hidle : (⟨s.keys, s.pub, Tx.empty⟩ : Solo Key Row Event).Idle := rfl
    obtain ⟨s', r, hrun, σ', hs', rfl, h'⟩ := alone_observations (i := i) hidle h states s
      (hquiet.alone i)
    refine ⟨s', hrun, ?_⟩
    rw [hs'.pub]
    exact h'.row
  · rw [rank_observeAll x externalId exchange hstates, hpending]
  · have hstates' : ∀ state ∈ states', reportsFailure state = false := fun state hmem =>
      hstates state ((hsame state).mpr hmem)
    have hsets : states.toFinset = states'.toFinset := by
      ext state
      rw [List.mem_toFinset, List.mem_toFinset, hsame]
    rw [rank_observeAll x externalId exchange hstates,
      rank_observeAll x externalId exchange hstates', hsets]
  · have happend : exchange.observeAll x externalId (states ++ later) =
        (exchange.observeAll x externalId states).observeAll x externalId later :=
      List.foldl_append
    rw [happend]
    exact rank_le_rank_observeAll ..

/-! ### A run -/

def pendingExchange : CredentialExchange :=
  ⟨1, 2, none, .issuer, "issue-credential/2.0", .anoncreds, .pending, some "e", .notSubmitted, none⟩

def pendingDb : Db := Store.initial [.exchange 5] (Pub.ofRows [⟨.exchange 5, pendingExchange⟩])

/-- Two reports in the wrong order: the later one does not take the exchange back. -/
theorem exchange_rank_of_observations_two :
    ∃ s', (observations 0 1 2 "e" none ["done", "offer-sent"]).run.runAlone pendingDb =
        some (s', .ok ()) ∧
      ∃ stored, s'.pub.row (.exchange 5) = some stored ∧ stored.state.rank = 5 := by
  have hobservable : Observable 1 2 "e" none 5 pendingExchange pendingDb.now :=
    { row := rfl
      key := List.mem_singleton.mpr rfl
      tenant := rfl
      connector := rfl
      bound := fun _ => rfl
      found := .inr ⟨rfl, rfl⟩
      alone := fun y other hne hy => by
        have hmem := Pub.mem_of_ofRows (E := Event) hy
        exact absurd (by simpa using congrArg Sigma.fst (List.mem_singleton.mp hmem)) hne }
  obtain ⟨stored, hstored, hrank, -⟩ := exchange_rank_of_observations 0 1 2 "e" none 5
    pendingExchange pendingDb ⟨fun _ => rfl, fun _ => rfl⟩ hobservable
  obtain ⟨s', hrun, hrow⟩ := hstored ["done", "offer-sent"]
  have hdone : reportedState? "done" = some (.agent .done) := by
    have hname : normalizeState "done" = "done" := by
      apply String.toList_injective
      rw [normalizeState, String.toList_map]
      decide
    rw [reportedState?, hname]
    decide
  have hoffer : reportedState? "offer-sent" = some (.agent .offerSent) := by
    have hname : normalizeState "offer-sent" = "offer-sent" := by
      apply String.toList_injective
      rw [normalizeState, String.toList_map]
      decide
    rw [reportedState?, hname]
    decide
  refine ⟨s', hrun, _, hrow, ?_⟩
  rw [hrank _ rfl fun state hmem => ?_]
  · simp [reportRank, hdone, hoffer, ExchangeState.rank]
  · simp only [List.mem_cons, List.not_mem_nil, or_false] at hmem
    obtain rfl | rfl := hmem
    · simp [reportsFailure, hdone, ExchangeState.isFailure]
    · simp [reportsFailure, hoffer, ExchangeState.isFailure]

end DigitalTrust
