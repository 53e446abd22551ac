/-
# The state of a connection

Every writer of a connection's state at once: `create` with its stale saves, webhook deliveries,
`reconcile`, `resolveIdentity` and `abandonAllForTenant`.  The guarded writers move a connection up
in rank and never out of `completed` or `abandoned`.  A save writes the state of an entity that was
read, or made, earlier, and looks at no guard.
-/
import DigitalTrust.ProtocolStateChange

namespace DigitalTrust.ConnectionStates

open Interleaving ReadCommitted

/-! ## Requests -/

inductive Request where
  | create (req : CreateConnection)
  | markAbandoned (id : Uuid)
  | deliver (d : Delivery)
  | reconcile (agent : ConnectionAgent) (tenantId id : Uuid) (selectedConnectorId : Option Uuid)
  | resolveIdentity (agent : ConnectionAgent) (tenantId id connectorId : Uuid)
  | abandonAllForTenant (tenantId : Uuid)

def handler : Request → ℕ → Service Unit
  | .create req, i => createConnection i req
  | .markAbandoned id, i => markAbandoned i id
  | .deliver d, i => d.process i
  | .reconcile agent tenantId id selected, i => do
    let _ ← reconcile i agent tenantId id selected
    pure ()
  | .resolveIdentity agent tenantId id connectorId, i => do
    let _ ← resolveIdentity i agent tenantId id connectorId
    pure ()
  | .abandonAllForTenant tenantId, i => abandonAllForTenant i tenantId

/-! ## Forward moves -/

/-- The states that a connection should not leave. -/
def isFinal : ConnectionState → Bool
  | .completed | .abandoned => true
  | _ => false

/-- A state may stay, or go up in rank unless it is final. -/
def goesTo (a b : ConnectionState) : Bool :=
  a = b || !isFinal a && a.rank ≤ b.rank

theorem goesTo_refl (a : ConnectionState) : goesTo a a = true := by simp [goesTo]

theorem goesTo_trans {a b c : ConnectionState} (h : goesTo a b = true) (h' : goesTo b c = true) :
    goesTo a c = true := by
  cases a <;> cases b <;> cases c <;> revert h h' <;> decide

/-- The rank does not go down, and a final state stays. -/
theorem goesTo_iff {a b : ConnectionState} :
    goesTo a b = true ↔ a.rank ≤ b.rank ∧ (isFinal a = true → b = a) := by
  cases a <;> cases b <;> decide

/-- Final states are those of the highest rank: a guarded move leaves none. -/
theorem goesTo_of_rank_lt {a b : ConnectionState} (h : a.rank < b.rank) : goesTo a b = true := by
  cases a <;> cases b <;> revert h <;> decide

/-- What may become of rows: connections stay and go forward, the others are of no concern. -/
def forwardChanges : Changes Key Row where
  rel k a b := match k, a, b with
    | .connection _, some c, b => ∃ c' : Connection, b = some c' ∧ goesTo c.state c'.state = true
    | _, _, _ => True
  refl k v := by
    cases k with
    | connection id =>
      cases v with
      | none => trivial
      | some c => exact ⟨c, rfl, goesTo_refl _⟩
    | _ => trivial
  trans k u v w h h' := by
    cases k with
    | connection id =>
      cases u with
      | none => trivial
      | some c =>
        obtain ⟨c', rfl, hc⟩ := h
        obtain ⟨c'', rfl, hc'⟩ := h'
        exact ⟨c'', rfl, goesTo_trans hc hc'⟩
    | _ => trivial

/-- Every connection is still there and has gone forward. -/
def Forward (p p' : Committed) : Prop :=
  ∀ id (c : Connection), p.row (.connection id) = some c →
    ∃ c' : Connection, p'.row (.connection id) = some c' ∧ goesTo c.state c'.state = true

theorem Forward.refl (p : Committed) : Forward p p := fun _ c hc => ⟨c, hc, goesTo_refl _⟩

theorem Forward.trans {p q r : Committed} (h : Forward p q) (h' : Forward q r) : Forward p r := by
  intro id c hc
  obtain ⟨c', hc', hgoes⟩ := h id c hc
  obtain ⟨c'', hc'', hgoes'⟩ := h' id c' hc'
  exact ⟨c'', hc'', goesTo_trans hgoes hgoes'⟩

def forwardContract : StoreContract Key Row Event where
  inv _ := True
  rely _ := Forward
  start _ _ := True
  refl _ := Forward.refl
  start_stable _ _ _ _ _ _ _ := trivial

/-- Forward changes respect the contract. -/
theorem forward_neutral : forwardContract.Neutral forwardChanges fun _ => True := by
  intro i t p _ hrows _
  refine ⟨trivial, fun j id c hc => ?_, fun _ => trivial⟩
  cases hw : t.writes (.connection id) with
  | none => exact ⟨c, by simpa [Pub.commit, hw] using hc, goesTo_refl _⟩
  | some w =>
    have hrel := hrows _ w hw
    rw [hc] at hrel
    obtain ⟨c', rfl, hgoes⟩ := hrel
    exact ⟨c', by simp [Pub.commit, hw], hgoes⟩

/-! ## Guarded writers -/

theorem adoptable : Connection.Adoptable forwardChanges where
  bound _ c _ _ := ⟨_, rfl, goesTo_refl c.state⟩
  moved _ _ _ h := ⟨_, rfl, goesTo_of_rank_lt h⟩

/-- A delivery makes forward changes only. -/
theorem allowed : Delivery.Allowed forwardChanges fun _ => True where
  exchange _ _ _ _ := trivial
  advance _ _ _ _ := trivial
  settle _ _ _ _ _ _ _ _ := trivial
  credential _ _ _ _ := trivial
  connection _ _ _ h := ⟨_, rfl, goesTo_of_rank_lt h⟩
  clone _ _ _ _ _ := trivial
  dispatch _ _ _ := trivial

/-! ## Saves -/

/-- A save that writes the state, because its entity has another one than the row that it has
read, finds a state that may go to the one it writes. -/
def savesForward : Label → Db → Bool
  | .connectionWrite id _ read written, s =>
    read.all (fun state => state = written) ||
      (s.pub.row (.connection id)).all fun c : Connection => goesTo c.state written
  | _, _ => true

section Programs

variable {i : ℕ} {φ : forwardContract.Assert i} {id tenantId : Uuid}

/-- A save that meets the condition. -/
theorem saveConnectionIn_within {isPartial : Bool} {seen : ConnectionState} {entity : Connection}
    {read : Option Connection} :
    Body forwardContract index (fun l s => savesForward l s = true) i φ Mine.idle
      (saveConnectionIn (.connectionWrite id seen (read.map fun c => c.state) entity.state) i id
        isPartial entity read)
      fun _ m => m.Within forwardChanges fun _ => True := by
  cases read with
  | none =>
    refine Body.bind (Body.upsert_within within_idle fun c v hv => ?_) fun _ _ h => Body.pure h
    cases c with
    | none => trivial
    | some c => simp at hv
  | some read =>
    rw [saveConnectionIn, storeRow]
    split_ifs
    · exact Body.pure within_idle
    · refine Body.seq (Body.update (fun _ _ _ => Body.pure within_idle) fun s c hs hc _ => ?_)
      have hrow : s.pub.row (.connection id) = some c := hs.row rfl hc
      refine Body.pure (within_idle.write hs ?_)
      rw [hc]
      refine ⟨_, rfl, ?_⟩
      -- the state is written only if it differs from the one that the save has read
      simp only [Connection.save, saveColumn]
      split_ifs with hsame
      · exact goesTo_refl _
      · have hcond := hs.cond
        simpa [savesForward, hrow, Ne.symm hsame] using hcond

theorem updateConnection_keeps {isPartial : Bool} {seen : ConnectionState}
    {entity : Connection} :
    Keeps forwardContract index (fun l s => savesForward l s = true) i φ
      (updateConnection i id isPartial seen entity) :=
  Keeps.bind Keeps.select fun _ => Keeps.transaction forward_neutral saveConnectionIn_within

theorem markAbandoned_keeps :
    Keeps forwardContract index (fun l s => savesForward l s = true) i φ (markAbandoned i id) := by
  refine Keeps.bind Keeps.select fun found => ?_
  cases found with
  | none => exact Keeps.pure
  | some connection => exact updateConnection_keeps

/-- Establishing a connection keeps the contract. -/
theorem establish_keeps {req : CreateConnection} :
    Keeps forwardContract index (fun l s => savesForward l s = true) i φ (establish i req) := by
  unfold establish
  split_ifs
  · refine Keeps.bind answer_keeps fun remote => Keeps.bind ?_ fun _ => Keeps.pure
    unfold applyRemoteConnectionState
    dsimp only
    split_ifs
    · exact Keeps.pure
    · exact updateConnection_keeps
  · refine Keeps.bind answer_keeps fun invitation => Keeps.bind ?_ fun _ => Keeps.pure
    refine Keeps.bind Keeps.select fun found => ?_
    cases found with
    | none => exact Keeps.throw
    | some connection => exact updateConnection_keeps

/-- So does the whole creation. -/
theorem createConnection_keeps {req : CreateConnection} :
    Keeps forwardContract index (fun l s => savesForward l s = true) i φ
      (createConnection i req) := by
  refine Keeps.bind answer_keeps fun _ => ?_
  refine Keeps.bind (Keeps.transaction forward_neutral
    (Body.insert_within within_idle trivial)) fun _ => ?_
  refine Keeps.bind (Keeps.transaction forward_neutral ?_) fun _ => ?_
  · exact Body.bind (createOperation_within within_idle trivial) fun _ _ h => Body.pure h
  · refine Keeps.bind (transitionStateAlone_keeps forward_neutral fun _ _ => trivial) fun _ =>
      Keeps.tryCatch ?_ fun e => ?_
    · exact Keeps.bind establish_keeps fun _ =>
        transitionStateAlone_keeps forward_neutral fun _ _ => trivial
    · exact Keeps.bind markAbandoned_keeps fun _ =>
        transitionStateAlone_keeps forward_neutral fun _ _ => trivial

/-- One `UPDATE` after the other. -/
theorem abandonEach_within {m : Mine Key Row Event} {C : Label → Db → Prop} (ids : List Uuid)
    (hm : m.Within forwardChanges fun _ => True) :
    Body forwardContract index C i φ m (abandonEach i tenantId ids)
      fun _ m' => m'.Within forwardChanges fun _ => True := by
  induction ids generalizing m with
  | nil => exact Body.pure hm
  | cons id ids ih =>
    refine Body.bind (Body.update_within hm fun c hc => ⟨_, rfl, ?_⟩) fun _ _ h => ih h
    simp only [Connection.isLive, Bool.and_eq_true, decide_eq_true_eq] at hc
    obtain ⟨⟨-, hcompleted⟩, habandoned⟩ := hc
    cases hstate : c.state <;> simp_all [goesTo, isFinal, ConnectionState.rank]

theorem abandonAllForTenant_keeps {C : Label → Db → Prop} :
    Keeps forwardContract index C i φ (abandonAllForTenant i tenantId) :=
  Keeps.transaction forward_neutral
    (Body.seq (Body.selectIn fun _ _ => abandonEach_within _ within_idle))

end Programs

/-! ## Every run -/

/-- Every request is served within the contract. -/
theorem handler_serves :
    forwardContract.Serves index (fun l s => savesForward l s = true) handler := by
  intro r i
  refine Run.post (R := fun _ ψ => ψ = forwardContract.atStart i) ?_ fun _ _ _ => trivial
  cases r with
  | create req => exact createConnection_keeps
  | markAbandoned id => exact markAbandoned_keeps
  | deliver d => exact d.process_keeps forward_neutral allowed
  | reconcile agent tenantId id selected =>
    exact Keeps.bind (reconcile_keeps forward_neutral adoptable fun _ _ _ => trivial)
      fun _ => Keeps.pure
  | resolveIdentity agent tenantId id connectorId =>
    exact Keeps.bind (resolveIdentity_keeps forward_neutral adoptable) fun _ => Keeps.pure
  | abandonAllForTenant tenantId => exact abandonAllForTenant_keeps

/-- If each save that writes a state finds one that may go to it, then no connection goes away or
down in rank, and a completed or abandoned one stays so. -/
theorem states_go_forward {keys : List Key} {p₀ : Committed}
    (hkeys : ∀ k, p₀.row k ≠ none → k ∈ keys) (hindex : index.Respected p₀.row)
    {c c' : Config Db Label} (ms : List (Move Request))
    (hc : Reach (service true handler) (fun l s => savesForward l s = true)
      (Store.initial keys p₀) c)
    (hrun : (service true handler).execIf savesForward c ms = some c') (id : Uuid)
    (connection : Connection) (hrow : c.state.pub.row (.connection id) = some connection) :
    ∃ connection' : Connection, c'.state.pub.row (.connection id) = some connection' ∧
      connection.state.rank ≤ connection'.state.rank ∧
      (isFinal connection.state = true → connection'.state = connection.state) := by
  have hforward : Forward c.state.pub c'.state.pub :=
    StoreContract.sound_execIf handler_serves hkeys hindex trivial (fun _ => trivial)
      (fun _ _ _ => Forward.trans) ms hc hrun
  obtain ⟨connection', hrow', hgoes⟩ := hforward id connection hrow
  exact ⟨connection', hrow', goesTo_iff.mp hgoes⟩

/-- A save finds the connection in the state in which its caller has read it, and writes one that
this state may go to. -/
def savesFresh : Label → Db → Bool
  | .connectionWrite id seen _ written, s =>
    ((s.pub.row (.connection id)).all fun c : Connection => c.state = seen) && goesTo seen written
  | _, _ => true

/-- A fresh save is a forward one. -/
theorem savesForward_of_fresh {l : Label} {s : Db} (h : savesFresh l s = true) :
    savesForward l s = true := by
  cases l with
  | connectionWrite id seen read written =>
    simp only [savesFresh, Bool.and_eq_true] at h
    have hgoes : (s.pub.row (.connection id)).all fun c : Connection => goesTo c.state written := by
      cases hrow : s.pub.row (.connection id) with
      | none => rfl
      | some c =>
        have hseen : c.state = seen := by simpa [hrow] using h.1
        simpa [hseen] using h.2
    simp [savesForward, hgoes]
  | _ => rfl

/-- In particular no connection goes back if no other writer comes between the read of a connection
and its save. -/
theorem states_go_forward_of_fresh {keys : List Key} {p₀ : Committed}
    (hkeys : ∀ k, p₀.row k ≠ none → k ∈ keys) (hindex : index.Respected p₀.row)
    {c c' : Config Db Label} (ms : List (Move Request))
    (hc : Reach (service true handler) (fun l s => savesFresh l s = true)
      (Store.initial keys p₀) c)
    (hrun : (service true handler).execIf savesFresh c ms = some c') :
    Forward c.state.pub c'.state.pub :=
  StoreContract.sound_execIf handler_serves hkeys hindex trivial (fun _ => trivial)
    (fun _ _ _ => Forward.trans) ms (hc.mono fun _ _ => savesForward_of_fresh)
    (execIf_mono (fun _ _ => savesForward_of_fresh) hrun)

/-! ## A connection of a tenant that is suspended while it is created -/

def inviting : CreateConnection where
  tenantId := 1
  id := 2
  operationId := 3
  createdAt := 0
  connectorId := 4
  protocol := .didcommV1
  invitationUrl := none
  multiUse := none
  resolve := .ok ()
  invitation := .ok ⟨"invitation", "https://agent.example/invitation", none⟩
  accepted := .error (.other "not asked")

def tenantRows : List ((k : Key) × Row k) := [⟨.tenant 1, ⟨none, none⟩⟩]

/-- A database with the tenant and nothing else. -/
def tenantDb : Config Db Label :=
  ⟨Store.initial (tenantRows.map Sigma.fst) (Pub.ofRows tenantRows), []⟩

def stateOf (c : Config Db Label) : Option ConnectionState :=
  (c.state.pub.row (.connection 2)).map fun connection : Connection => connection.state

/-- The row of the connection and its Operation are there, and the agent's answer has been read
into an entity. -/
def answered : List (Move Request) := .spawn (.create inviting) :: List.replicate 14 (.run 0)

/-- The invitation is saved before the connections of the tenant are abandoned. -/
def savedThenAbandoned : List (Move Request) :=
  List.replicate 10 (.run 0) ++ .spawn (.abandonAllForTenant 1) :: List.replicate 4 (.run 1)

/-- In a run that meets the condition the connection is abandoned, and stays so. -/
theorem states_go_forward_savedThenAbandoned :
    ∃ c c', (service true handler).execIf savesForward tenantDb answered = some c ∧
      (service true handler).execIf savesForward c savedThenAbandoned = some c' ∧
      stateOf c' = some .abandoned ∧
      ∃ connection' : Connection, c'.state.pub.row (.connection 2) = some connection' ∧
        ConnectionState.invited.rank ≤ connection'.state.rank := by
  have hresult : ((service true handler).execIf savesForward tenantDb answered).bind (fun c =>
      ((service true handler).execIf savesForward c savedThenAbandoned).map fun c' =>
        (stateOf c, stateOf c')) = some (some .invited, some .abandoned) := by decide +kernel
  obtain ⟨c, hexec, hrest⟩ := Option.bind_eq_some_iff.mp hresult
  obtain ⟨c', hrun, hstates⟩ := Option.map_eq_some_iff.mp hrest
  obtain ⟨hbefore, hafter⟩ := Prod.mk.inj hstates
  obtain ⟨connection, hrow, hstate⟩ := Option.map_eq_some_iff.mp hbefore
  have hreach : Reach (service true handler) (fun l s => savesForward l s = true)
      tenantDb.state c := reach_execIf hexec
  have hindex : index.Respected (Pub.ofRows tenantRows : Committed).row :=
    Index.respected_ofRows (by simp [tenantRows])
  obtain ⟨connection', hrow', hrank, -⟩ := states_go_forward (fun _ => Pub.keys_ofRows) hindex
    savedThenAbandoned hreach hrun 2 connection hrow
  exact ⟨c, c', hexec, hrun, hafter, connection', hrow', hstate ▸ hrank⟩

/-- The connections of the tenant are abandoned before the invitation is saved. -/
def abandonedThenSaved : List (Move Request) :=
  answered ++ .spawn (.abandonAllForTenant 1) :: List.replicate 4 (.run 1)

/-- The save writes the state with which the connection was read: an abandoned connection is
invited again. -/
theorem save_revives_connection :
    ∃ c c', Reach (service true handler) Always tenantDb.state c ∧
      (service true handler).exec c (List.replicate 3 (.run 0)) = some c' ∧
      stateOf c = some .abandoned ∧ stateOf c' = some .invited := by
  have hresult : ((service true handler).exec tenantDb abandonedThenSaved).bind (fun c =>
      ((service true handler).exec c (List.replicate 3 (.run 0))).map fun c' =>
        (stateOf c, stateOf c')) = some (some .abandoned, some .invited) := by decide +kernel
  obtain ⟨c, hexec, hrest⟩ := Option.bind_eq_some_iff.mp hresult
  obtain ⟨c', hrun, hstates⟩ := Option.map_eq_some_iff.mp hrest
  obtain ⟨hbefore, hafter⟩ := Prod.mk.inj hstates
  exact ⟨c, c', reach_exec hexec, hrun, hbefore, hafter⟩

end DigitalTrust.ConnectionStates
