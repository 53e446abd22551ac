/-
# The default connector of a tenant

`config.default_connector` is a text in the tenant's row that should name a connector of the
tenant.  Who writes it locks the tenant and the connector, and who deletes a connector locks the
tenant and looks at the text first.  Three statements do not fit in: the save of `updateStatus`, a
deletion whose request spells the id in another way, and the removal of a connector whose
registration failed.
-/
import DigitalTrust.TenantStatusChanges

namespace DigitalTrust.Tenancy

open Interleaving ReadCommitted

/-! ## The invariant -/

/-- The member is unset, or names a connector of the tenant. -/
def Backed (env : Surroundings) (p : Committed) (t : Uuid) (v : Option ConfigValue) : Prop :=
  Unset v ∨ ∃ c, Names env v c ∧ ∃ x : Connector, p.row (.connector c) = some x ∧ x.tenantId = t

def DefaultsBacked (env : Surroundings) (p : Committed) : Prop :=
  ∀ t (v : Tenant), p.row (.tenant t) = some v → Backed env p t v.config.defaultConnector

def TenantsStay (p p' : Committed) : Prop :=
  ∀ t, p.row (.tenant t) ≠ none → p'.row (.tenant t) ≠ none

def defaultContract (env : Surroundings) : StoreContract Key Row Event where
  inv := DefaultsBacked env
  rely _ := TenantsStay
  start _ _ := True
  refl _ _ _ h := h
  start_stable _ _ _ _ _ _ _ := trivial

/-- The assertion that a tenant exists. -/
def tenantStays (env : Surroundings) (i : ℕ) (t : Uuid) : (defaultContract env).Assert i where
  holds p := p.row (.tenant t) ≠ none
  stable _ _ _ _ h hr := hr t h

variable {env : Surroundings} {v : Option ConfigValue} {c id : Uuid}

/-- A text is cast to one id. -/
theorem Names.unique {c' : Uuid} (h : Names env v c) (h' : Names env v c') : c = c' := by
  obtain ⟨id, rfl, hc⟩ := h
  obtain ⟨id', hid, hc'⟩ := h'
  obtain rfl : id = id' := by simpa using hid
  exact Option.mem_unique hc hc'

theorem Names.not_unset (h : Names env v c) : ¬Unset v := by
  obtain ⟨id, rfl, -⟩ := h
  exact fun hu => hu

section Steps

variable {env : Surroundings} {i : ℕ} {p : Committed} {t : Tx Key Row Event}

/-- A backed default stays backed while its connector does. -/
theorem Backed.mono {p' : Committed} (h : Backed env p id v)
    (hsurvive : ∀ c (x : Connector), Names env v c → p.row (.connector c) = some x →
      x.tenantId = id → ∃ y : Connector, p'.row (.connector c) = some y ∧ y.tenantId = x.tenantId) :
    Backed env p' id v := by
  rcases h with h | ⟨c, hc, x, hx, ht⟩
  · exact Or.inl h
  · obtain ⟨y, hy, hty⟩ := hsurvive c x hc hx ht
    exact Or.inr ⟨c, hc, y, hy, hty.trans ht⟩

/-- A commit that writes no tenant leaves the tenants as they are. -/
theorem row_tenant_of_unwritten (h : t.writes (.tenant id) = none) :
    (p.commit i t).row (.tenant id) = p.row (.tenant id) := by
  simp [Pub.commit, h]

theorem row_connector_of_unwritten (h : t.writes (.connector c) = none) :
    (p.commit i t).row (.connector c) = p.row (.connector c) := by
  simp [Pub.commit, h]

/-- A commit that takes one connector away, which no tenant names. -/
theorem step_of_deletion (hinv : DefaultsBacked env p)
    (htenants : ∀ id, t.writes (.tenant id) = none)
    (hothers : ∀ c', c' ≠ c → t.writes (.connector c') = none)
    (hunnamed : ∀ id (v : Tenant), p.row (.tenant id) = some v →
      ¬(Names env v.config.defaultConnector c ∧
        ∃ x : Connector, p.row (.connector c) = some x ∧ x.tenantId = id)) :
    DefaultsBacked env (p.commit i t) ∧ TenantsStay p (p.commit i t) := by
  refine ⟨fun id v hv => ?_, fun id hid => ?_⟩
  · rw [row_tenant_of_unwritten (htenants id)] at hv
    refine (hinv id v hv).mono fun c' x hc' hx ht => ?_
    have hne : c' ≠ c := by
      rintro rfl
      exact hunnamed id v hv ⟨hc', x, hx, ht⟩
    exact ⟨x, by rw [row_connector_of_unwritten (hothers c' hne), hx], rfl⟩
  · rwa [row_tenant_of_unwritten (htenants id)]

/-- A commit that writes no connector, and tenants only with the default they have. -/
theorem step_of_same_default (hinv : DefaultsBacked env p)
    (hconnectors : ∀ c, t.writes (.connector c) = none)
    (htenants : ∀ id w, t.writes (.tenant id) = some w → ∃ v v' : Tenant,
      p.row (.tenant id) = some v ∧ w = some v' ∧
        v'.config.defaultConnector = v.config.defaultConnector) :
    DefaultsBacked env (p.commit i t) ∧ TenantsStay p (p.commit i t) := by
  have hsame : ∀ id v' , (p.commit i t).row (.tenant id) = some v' → ∃ v : Tenant,
      p.row (.tenant id) = some v ∧ v'.config.defaultConnector = v.config.defaultConnector := by
    intro id v' hv'
    cases hw : t.writes (.tenant id) with
    | none =>
      rw [row_tenant_of_unwritten hw] at hv'
      exact ⟨v', hv', rfl⟩
    | some w =>
      obtain ⟨v, v'', hv, rfl, hd⟩ := htenants id w hw
      obtain rfl : v'' = v' := by simpa [Pub.commit, hw] using hv'
      exact ⟨v, hv, hd⟩
  refine ⟨fun id v' hv' => ?_, fun id hid => ?_⟩
  · obtain ⟨v, hv, hd⟩ := hsame id v' hv'
    rw [hd]
    refine (hinv id v hv).mono fun c x _ hx _ => ⟨x, ?_, rfl⟩
    rw [row_connector_of_unwritten (hconnectors c), hx]
  · cases hw : t.writes (.tenant id) with
    | none => rwa [row_tenant_of_unwritten hw]
    | some w =>
      obtain ⟨-, v', -, rfl, -⟩ := htenants id w hw
      simp [Pub.commit, hw]

end Steps

/-! ## Tame transactions -/

section Programs

variable {env : Surroundings} {C : Label → Db → Prop} {i : ℕ} {φ : (defaultContract env).Assert i}
  {m : Mine Key Row Event} {l : Label} {s : Db}

/-- A tame transaction keeps every connector of a tenant. -/
theorem Tame.survives (h : Tame env m) (hs : At (defaultContract env) index C i φ m l s)
    {x : Connector} (hx : s.pub.row (.connector c) = some x) :
    ∃ y : Connector, (s.pub.commit i m.tx).row (.connector c) = some y ∧
      y.tenantId = x.tenantId := by
  cases hw : m.tx.writes (.connector c) with
  | none => exact ⟨x, by rw [row_connector_of_unwritten hw, hx], rfl⟩
  | some w =>
    obtain ⟨held, hheld, hkept⟩ := h.connectors c w hw
    rw [hs.held hheld] at hx
    obtain ⟨y, rfl, hy⟩ := hkept x hx
    exact ⟨y, by simp [Pub.commit, hw], hy⟩

/-- A commit that keeps the contract also keeps the assertion of its process. -/
theorem defaultContract_step (hs : At (defaultContract env) index C i φ m l s)
    (h : DefaultsBacked env (s.pub.commit i m.tx) ∧ TenantsStay s.pub (s.pub.commit i m.tx)) :
    (defaultContract env).Step i m.tx s.pub φ.holds :=
  ⟨h.1, fun _ _ => h.2, φ.stable _ _ hs.inv h.1 hs.holds h.2⟩

/-- Tame transactions keep the default contract. -/
theorem default_tameStep (env : Surroundings) : TameStep env (defaultContract env) := by
  intro C i φ m l s hm hs
  refine ⟨fun _ => trivial, defaultContract_step hs ⟨fun t v' hv' => ?_, fun t ht => ?_⟩⟩
  · cases hw : m.tx.writes (.tenant t) with
    | none =>
      rw [row_tenant_of_unwritten hw] at hv'
      exact (hs.inv t v' hv').mono fun c x _ hx _ => hm.survives hs hx
    | some w =>
      obtain ⟨v, v'', hv, rfl, -, -, hdefault⟩ := hm.tenants t w hw
      obtain rfl : v'' = v' := by simpa [Pub.commit, hw] using hv'
      rcases hdefault with hd | hd | ⟨c, hc, x, hx, ht⟩
      · rw [hd]
        exact (hs.inv t v (hs.held hv)).mono fun c x _ hx _ => hm.survives hs hx
      · exact Or.inl hd
      · obtain ⟨y, hy, hty⟩ := hm.survives hs (hs.held hx)
        exact Or.inr ⟨c, hc, y, hy, hty.trans ht⟩
  · cases hw : m.tx.writes (.tenant t) with
    | none => rwa [row_tenant_of_unwritten hw]
    | some w =>
      obtain ⟨-, v', -, rfl, -⟩ := hm.tenants t w hw
      simp [Pub.commit, hw]

end Programs

/-! ## The three statements -/

/-- Whether a member names the connector `c`. -/
def names (env : Surroundings) (c : Uuid) : Option ConfigValue → Bool
  | some (.text id) => env.uuidOf id = some c
  | _ => false

theorem names_iff : names env c v = true ↔ Names env v c := by
  unfold names
  split
  · simp [Names]
  · constructor
    · intro h
      exact absurd h Bool.false_ne_true
    · rintro ⟨id, rfl, -⟩
      simp_all

/-- The save of `updateStatus` finds the configuration that the call has read; the default connector
is deleted by the id as it is spelled; and no tenant names a connector that is removed because its
registration failed. -/
def configAsRead (env : Surroundings) : Label → Db → Bool
  | .reloadForStatus t read, s =>
    (s.pub.row (.tenant t)).all fun (v : Tenant) => v.config = read.config
  | .deleteConnector t id, s =>
    (s.pub.row (.tenant t)).all fun (v : Tenant) =>
      (env.uuidOf id).all (fun c => !names env c v.config.defaultConnector) ||
        v.config.defaultConnector = some (.text id)
  | .discardConnector c, s =>
    s.keys.all fun k => match k with
      | .tenant t => (s.pub.row (.tenant t)).all fun (v : Tenant) =>
        !names env c v.config.defaultConnector
      | .connector _ => true
  | _, _ => true

section Statements

variable {env : Surroundings} {i : ℕ} {φ : (defaultContract env).Assert i}

/-- The transaction of `updateStatus`: the configuration is not written. -/
theorem commitStatus_keeps_default {tenant : Tenant} {status : TenantStatus} {now : ℕ} :
    Run (defaultContract env) index (fun l s => configAsRead env l s = true) i
      (tenantStays env i id) (commitStatus i id tenant status now) fun _ _ => True := by
  refine Run.transaction (Body.seq ?_) fun _ => trivial
  refine Body.seq (Body.selectIn fun s hs => ?_)
  obtain ⟨r, hr⟩ : ∃ r : Tenant, s.pub.row (.tenant id) = some r :=
    Option.ne_none_iff_exists'.mp hs.holds
  have hview : (s.view i).row (.tenant id) = some r := by
    rw [hs.view]
    exact hr
  have hconfig : r.config = tenant.config := by
    have := hs.cond
    simpa [configAsRead, hr] using this
  rw [hview, storeRow]
  split_ifs with heq
  · refine Body.pure (Body.emit fun s₂ hs₂ => ⟨tenantStays env i id, ?_, trivial, trivial⟩)
    exact defaultContract_step hs₂ (step_of_same_default hs₂.inv (fun _ => rfl)
      fun _ _ hw => by simp at hw)
  · refine Body.seq (Body.update (fun s' hs' hno => ?_) fun s' v hs' hv _ => Body.pure ?_)
    · obtain ⟨v, hv⟩ : ∃ v : Tenant, s'.pub.row (.tenant id) = some v :=
        Option.ne_none_iff_exists'.mp hs'.holds
      have := hno v (by rw [hs'.view]; exact hv)
      simp at this
    · have hrow : s'.pub.row (.tenant id) = some v := hs'.row rfl hv
      rw [hrow]
      refine Body.emit fun s₂ hs₂ => ⟨tenantStays env i id, ?_, trivial, trivial⟩
      have hv₂ : s₂.pub.row (.tenant id) = some v := hs₂.held (by simp)
      -- the entity has the configuration that the save has read, so the column is left out
      have hkept : ((tenant.withStatus status now).save r v).config = v.config := by
        simp [Tenant.save, Tenant.withStatus, saveColumn, hconfig]
      refine defaultContract_step hs₂ (step_of_same_default hs₂.inv (fun c => ?_)
        fun id' w hw => ?_)
      · simp [Mine.write_of_ne]
      · by_cases hid : id' = id
        · subst hid
          exact ⟨v, _, hv₂, by simpa using hw.symm, by rw [hkept]⟩
        · simp [Mine.write_of_ne, hid] at hw

variable {t : Uuid}

/-- The deletion of a connector under the tenant's lock. -/
theorem deleteUnlessDefault_keeps_default {id : String} :
    Keeps (defaultContract env) index (fun l s => configAsRead env l s = true) i φ
      (deleteUnlessDefault env i t id) := by
  have hnothing : ∀ (m : Mine Key Row Event) (l : Label) (s : Db),
      At (defaultContract env) index (fun l s => configAsRead env l s = true) i φ m l s →
      (∀ k, m.tx.writes k = none) → (defaultContract env).Step i m.tx s.pub φ.holds := by
    intro m l s hs hm
    exact defaultContract_step hs (step_of_same_default hs.inv (fun c => hm _)
      fun id w hw => by simp [hm] at hw)
  refine Run.transaction (Body.seq (body_findByIdForUpdate (Body.pure fun s hs => ?_)
    fun s v hs hv => ?_)) fun _ => rfl
  · exact ⟨φ, hnothing _ _ s hs fun _ => rfl, rfl, rfl⟩
  have hrow : s.pub.row (.tenant t) = some v := hs.row rfl hv
  dsimp only
  split_ifs with hdefault
  · exact Body.pure fun s hs => ⟨φ, hnothing _ _ s hs fun _ => rfl, rfl, rfl⟩
  · refine Body.seq (body_castUuid fun c hc => Body.seq (Body.delete
      (fun _ _ _ => Body.pure fun s hs => ⟨φ, hnothing _ _ s hs fun _ => rfl, rfl, rfl⟩)
      fun s' x hs' hx hxt => Body.pure fun s₂ hs₂ => ⟨φ, ?_, rfl, rfl⟩))
    have hv' : s'.pub.row (.tenant t) = some v := hs'.held (by rw [Mine.hold_self, hrow])
    have hx' : s'.pub.row (.connector c) = some x := hs'.row rfl hx
    have hunnamed : ¬Names env v.config.defaultConnector c := by
      rw [← names_iff]
      have := hs'.cond
      simpa [configAsRead, hv', hc, hdefault] using this
    have hv₂ : s₂.pub.row (.tenant t) = some v :=
      hs₂.held (by simp [Mine.hold_of_ne, hrow])
    have hx₂ : s₂.pub.row (.connector c) = some x := hs₂.held (by simp [hx'])
    refine defaultContract_step hs₂ (step_of_deletion (c := c) hs₂.inv (fun id => ?_)
      (fun c' hc' => ?_)
      fun t' v' hv'' hnamed => ?_)
    · simp [Mine.write_of_ne]
    · simp [Mine.write_of_ne, hc']
    · -- a tenant that names the connector would be its own
      obtain ⟨hnames, y, hy, rfl⟩ := hnamed
      obtain rfl : x = y := Option.mem_unique hx₂ hy
      have htenant : x.tenantId = t := by simpa using hxt
      rw [htenant, hv₂] at hv''
      obtain rfl : v = v' := Option.some.inj hv''
      exact hunnamed hnames

/-- The removal of a connector whose registration failed. -/
theorem discardConnector_keeps_default :
    Keeps (defaultContract env) index (fun l s => configAsRead env l s = true) i φ
      (discardConnector i id) := by
  refine Keeps.tryCatch (Keeps.bind ?_ fun _ => Keeps.pure) fun _ => Keeps.pure
  refine Run.transaction (Body.delete (fun _ _ _ s hs => ?_) fun s x hs hx _ s₂ hs₂ => ?_)
    fun _ => rfl
  · exact ⟨φ, defaultContract_step hs (step_of_same_default hs.inv (fun _ => rfl)
      fun _ _ hw => by simp at hw), rfl, rfl⟩
  · refine ⟨φ, ?_, rfl, rfl⟩
    refine defaultContract_step hs₂ (step_of_deletion (c := id) hs₂.inv (fun t => ?_)
      (fun c' hc' => ?_) fun t v hv hnamed => ?_)
    · simp [Mine.write_of_ne]
    · simp [Mine.write_of_ne, hc']
    · have hcond := hs₂.cond
      simp only [configAsRead, List.all_eq_true] at hcond
      have := hcond (.tenant t) (hs₂.wf.keys _ (by simp [hv]))
      dsimp only at this
      rw [hv, Option.all_some, names_iff.mpr hnamed.1] at this
      exact absurd this Bool.false_ne_true

end Statements

/-! ## Every run -/

/-- Every request follows the contract. -/
theorem handler_serves_default (env : Surroundings) :
    (defaultContract env).Serves index (fun l s => configAsRead env l s = true) (handler env) := by
  have htame := default_tameStep env
  intro r i
  cases r with
  | updateStatus id status now =>
    exact updateStatus_of_commitStatus (ψ := tenantStays env i id) (fun _ h => h)
      fun _ _ => commitStatus_keeps_default
  | update id dto auth => exact Run.post (updateTenant_keeps htame) fun _ _ _ => trivial
  | updateConfig id dto auth => exact Run.post (updateConfig_keeps htame) fun _ _ _ => trivial
  | setDefaultConnectorIfUnset t id auth =>
    exact Run.post (Keeps.bind (setDefaultConnectorIfUnset_keeps htame) fun _ => Keeps.pure)
      fun _ _ _ => trivial
  | delete id now => exact Run.post (deleteTenant_keeps htame) fun _ _ _ => trivial
  | restore id => exact Run.post (restoreTenant_keeps htame) fun _ _ _ => trivial
  | deleteConnector t id auth hasDependents =>
    exact Run.post (deleteConnector_keeps htame deleteUnlessDefault_keeps_default)
      fun _ _ _ => trivial
  | createConnector t id auth registration =>
    exact Run.post (createConnector_keeps htame discardConnector_keeps_default)
      fun _ _ _ => trivial

/-- A database in which no tenant has a default connector. -/
structure DefaultStart (keys : List Key) (p : Committed) : Prop where
  keys : ∀ k, p.row k ≠ none → k ∈ keys
  unset : ∀ t (v : Tenant), p.row (.tenant t) = some v → Unset v.config.defaultConnector

/-- **The default connector exists** in every state of every run in which each save of
`updateStatus` finds the configuration as read, each deletion of the default connector spells it as
the tenant does, and none is removed after a failed registration while a tenant names it. -/
theorem default_connector_exists (env : Surroundings) {keys : List Key} {p₀ : Committed}
    (h₀ : DefaultStart keys p₀) {c : Config Db Label}
    (hc : Reach (service true (handler env)) (fun l s => configAsRead env l s = true)
      (Store.initial keys p₀) c) :
    DefaultsBacked env c.state.pub :=
  (StoreContract.sound (handler_serves_default env) h₀.keys (index_respected _)
    (fun t v hv => Or.inl (h₀.unset t v hv)) (fun _ => trivial) hc).2

/-- Surroundings in which one text is the id of connector 10. -/
def oneConnectorId : Surroundings :=
  ⟨fun id => if id = "ten" then some 10 else none, fun _ => "ten", 1⟩

def administrator : Option AuthContext := some ⟨.user 1, none, [], ["platform-admin"]⟩

def oneConnector : List ((k : Key) × Row k) :=
  [⟨.tenant 1, activeTenant⟩, ⟨.connector 10, ⟨1, true, 1⟩⟩]

def oneConnectorConfig : Config Db Label :=
  ⟨Store.initial (oneConnector.map Sigma.fst) (Pub.ofRows oneConnector), []⟩

theorem oneConnector_start :
    DefaultStart (oneConnector.map Sigma.fst) (Pub.ofRows oneConnector) where
  keys _ hk := Pub.keys_ofRows hk
  unset t v hv := by
    have hmem : (⟨.tenant t, v⟩ : (k : Key) × Row k) ∈ oneConnector := Pub.mem_of_ofRows hv
    have hall : ∀ r ∈ oneConnector, ∀ (t : Uuid) (v : Tenant), r = ⟨.tenant t, v⟩ →
        Unset v.config.defaultConnector := by
      simp only [oneConnector, List.forall_mem_cons]
      simp [activeTenant, Unset]
    exact hall _ hmem t v rfl

/-- The default connector of a tenant in a database. -/
def defaultOf (p : Committed) (t : Uuid) : Option ConfigValue :=
  (p.row (.tenant t)).bind fun (v : Tenant) => v.config.defaultConnector

/-- The connector becomes the default, and is then asked to be deleted. -/
def setThenDelete : List (Move Request) :=
  .spawn (.updateConfig 1 ⟨some (some "ten"), none, none⟩ administrator) ::
    List.replicate 6 (.run 0) ++
    .spawn (.deleteConnector 1 "ten" administrator false) :: List.replicate 4 (.run 1)

/-- The deletion is refused, and the default is backed. -/
theorem default_connector_exists_refused :
    ∃ c, (service true (handler oneConnectorId)).execIf (configAsRead oneConnectorId)
        oneConnectorConfig setThenDelete = some c ∧
      defaultOf c.state.pub 1 = some (.text "ten") ∧ DefaultsBacked oneConnectorId c.state.pub := by
  have hresult : ((service true (handler oneConnectorId)).execIf (configAsRead oneConnectorId)
      oneConnectorConfig setThenDelete).map (fun c => defaultOf c.state.pub 1) =
        some (some (.text "ten")) := by
    decide +kernel
  obtain ⟨c, hexec, hdefault⟩ := Option.map_eq_some_iff.mp hresult
  exact ⟨c, hexec, hdefault, default_connector_exists oneConnectorId oneConnector_start
    (reach_execIf hexec)⟩

/-- A suspension reads the tenant while the connector is its default; then the default is unset
and the connector deleted; then the suspension saves what it has read. -/
def suspensionAcrossDeletion : List (Move Request) :=
  .spawn (.updateConfig 1 ⟨some (some "ten"), none, none⟩ administrator) ::
    List.replicate 6 (.run 0) ++
    [.spawn (.updateStatus 1 .suspended 100), .run 1,
      .spawn (.updateConfig 1 ⟨some none, none, none⟩ administrator)] ++
    List.replicate 5 (.run 2) ++
    .spawn (.deleteConnector 1 "ten" administrator false) :: List.replicate 5 (.run 3) ++
    List.replicate 5 (.run 1)

/-- The tenant ends up with a default connector that does not exist. -/
theorem suspension_restores_default :
    ∃ c, Reach (service true (handler oneConnectorId)) Always
        (Store.initial (oneConnector.map Sigma.fst) (Pub.ofRows oneConnector)) c ∧
      ¬DefaultsBacked oneConnectorId c.state.pub := by
  have hresult : ((service true (handler oneConnectorId)).exec oneConnectorConfig
      suspensionAcrossDeletion).map (fun c => (defaultOf c.state.pub 1,
        c.state.pub.row (.connector 10))) = some (some (.text "ten"), none) := by
    decide +kernel
  obtain ⟨c, hexec, hvalues⟩ := Option.map_eq_some_iff.mp hresult
  obtain ⟨hdefault, hgone⟩ := Prod.mk.inj hvalues
  refine ⟨c, reach_exec hexec, fun hbacked => ?_⟩
  obtain ⟨v, hv, hd⟩ := Option.bind_eq_some_iff.mp hdefault
  have hnames : Names oneConnectorId v.config.defaultConnector 10 := ⟨"ten", hd, rfl⟩
  rcases hbacked 1 v hv with hunset | ⟨c', hc', x, hx, -⟩
  · exact hnames.not_unset hunset
  · obtain rfl := hnames.unique hc'
    rw [hgone] at hx
    exact absurd hx (by simp)

end DigitalTrust.Tenancy
