/-
# Issuance profiles

`update`, `publish` and `deprecate` of `issuance-profile.service.ts`, and the repository under
them, when the calls overlap.  `publish` and `deprecate` move a profile by one guarded `UPDATE`.
`update` reads the profile, checks that it is a draft and saves it; nothing looks at the status
again when the `save` reads and writes the row.
-/
import DigitalTrust.Journal
import DigitalTrust.Tenants

namespace DigitalTrust.IssuanceProfiles

open Interleaving Relational
open Tenancy (mayAccess)

/-! ## Rows -/

inductive IssuanceProfileProtocolHint where
  | didcomm
  | oid4vci
  | auto
  deriving DecidableEq

inductive IssuanceProfileStatus where
  | draft
  | published
  | deprecated
  deriving DecidableEq

/-- A row of `issuance_profile`; `J` is the type of its JSON columns. -/
structure IssuanceProfile (J : Type) where
  tenantId : Uuid
  name : String
  version : String
  description : Option String
  credentialDefinitionId : Uuid
  attributeSchema : J
  defaults : Option J
  display : Option J
  metadata : J
  protocolHint : IssuanceProfileProtocolHint
  status : IssuanceProfileStatus
  deriving DecidableEq

/-- What a publication fixes. -/
def IssuanceProfile.contents {J : Type} (p : IssuanceProfile J) :
    Option J × J × Option J × J × Option String × IssuanceProfileProtocolHint :=
  (p.defaults, p.attributeSchema, p.display, p.metadata, p.description, p.protocolHint)

/-- `UpdateIssuanceProfileDto`; an absent member is `none`. -/
structure UpdateIssuanceProfileDto (J : Type) where
  description : Option (Option String)
  defaults : Option (Option J)
  display : Option (Option J)
  metadata : Option J
  protocolHint : Option IssuanceProfileProtocolHint

/-- The tables that a publication looks at beside the profile: the credential definitions, and
which connectors of a tenant are active. -/
structure Bindings where
  definition : Uuid → Option CredentialDefinition
  activeConnector : (tenantId connectorId : Uuid) → Bool

inductive Call where
  | update
  | publish
  | deprecateProfile
  deriving DecidableEq

/-- The statements: the two of a `save`, and the others. -/
inductive Label where
  | reload (id : Uuid)
  | store (id : Uuid)
  | step

section Service

variable {J : Type}

abbrev Profiles (J : Type) := Table Uuid (IssuanceProfile J)

/-- The profiles with the journal of their changes, and the tables beside them. -/
abbrev State (J : Type) := Journal Uuid (IssuanceProfile J) Call Bindings

abbrev Program (J : Type) := Proc (State J) Label (Except Failure Unit)

def fail (e : Failure) : Program J := .ret (.error e)

def query (k : State J → Program J) : Program J := .attempt .step id (fail queryFailed) k

def emit : Program J := query fun _ => .ret (.ok ())

/-! ## Repository -/

/-- The columns that a `save` writes. -/
def IssuanceProfile.save [DecidableEq J] (entity read current : IssuanceProfile J) :
    IssuanceProfile J where
  tenantId := saveColumn entity.tenantId read.tenantId current.tenantId
  name := saveColumn entity.name read.name current.name
  version := saveColumn entity.version read.version current.version
  description := saveColumn entity.description read.description current.description
  credentialDefinitionId := saveColumn entity.credentialDefinitionId read.credentialDefinitionId
    current.credentialDefinitionId
  attributeSchema := saveColumn entity.attributeSchema read.attributeSchema current.attributeSchema
  defaults := saveColumn entity.defaults read.defaults current.defaults
  display := saveColumn entity.display read.display current.display
  metadata := saveColumn entity.metadata read.metadata current.metadata
  protocolHint := saveColumn entity.protocolHint read.protocolHint current.protocolHint
  status := saveColumn entity.status read.status current.status

/-- `uq_issuance_profile_tenant_name_version`. -/
def unique (t : Profiles J) (id : Uuid) (p : IssuanceProfile J) : Bool :=
  (t.first fun id' p' => id' ≠ id && p'.tenantId = p.tenantId && p'.name = p.name &&
    p'.version = p.version).isNone

def save [DecidableEq J] (id : Uuid) (profile : IssuanceProfile J) (k : Program J) : Program J :=
  Journal.save ⟨IssuanceProfile.save, unique⟩ .update (.reload id)
    (.store id) id profile (fun b => b)
    (fail queryFailed) k

/-- The `expectedDefinition` of `transitionStatus`. -/
structure ExpectedDefinition where
  id : Uuid
  connectorId : Uuid
  format : CredentialDefinitionFormat

/-- The `EXISTS` of `transitionStatus`. -/
def Bindings.confirms (b : Bindings) (tenantId : Uuid) (profile : IssuanceProfile J)
    (expected : ExpectedDefinition) : Bool :=
  profile.credentialDefinitionId = expected.id &&
    (b.definition expected.id).any fun definition =>
      definition.tenantId = tenantId && definition.isActive && definition.status = .published &&
        definition.registrationState = .ready && definition.externalId.any (fun x => x ≠ "") &&
        definition.connectorId = some expected.connectorId && definition.format = expected.format &&
        b.activeConnector definition.tenantId expected.connectorId

/-- The condition of the `UPDATE` of `transitionStatus`. -/
def mayTransition (b : Bindings) (tenantId : Uuid) (fromStatus : IssuanceProfileStatus)
    (expectedDefinition : Option ExpectedDefinition) (p : IssuanceProfile J) : Bool :=
  p.tenantId = tenantId && p.status = fromStatus && expectedDefinition.all (b.confirms tenantId p)

/-- `transitionStatus`; `k` gets whether a row was affected. -/
def transitionStatus (call : Call) (tenantId id : Uuid)
    (fromStatus toStatus : IssuanceProfileStatus)
    (expectedDefinition : Option ExpectedDefinition) (k : Bool → Program J) : Program J :=
  .attempt .step
    (fun s => s.updateRow call id (mayTransition s.rest tenantId fromStatus expectedDefinition)
      fun p => { p with status := toStatus })
    (fail queryFailed)
    fun s => k ((s.table.row id).any (mayTransition s.rest tenantId fromStatus expectedDefinition))

/-! ## Service -/

def findById (tenantId id : Uuid) (auth : AuthContext) (k : IssuanceProfile J → Program J) :
    Program J :=
  query fun s => .demand
    (need ((s.table.row id).filter fun p =>
        p.tenantId = tenantId && mayAccess (some auth) p.tenantId)
      (.notFound s!"Issuance profile '{id}' was not found.")) k

/-- The columns that `update` changes. -/
def UpdateIssuanceProfileDto.apply (dto : UpdateIssuanceProfileDto J) (p : IssuanceProfile J) :
    IssuanceProfile J :=
  { p with
    description := dto.description.getD p.description
    defaults := dto.defaults.getD p.defaults
    display := dto.display.getD p.display
    metadata := dto.metadata.getD p.metadata
    protocolHint := dto.protocolHint.getD p.protocolHint }

def update [DecidableEq J] (tenantId id : Uuid) (dto : UpdateIssuanceProfileDto J)
    (auth : AuthContext) :
    Program J :=
  findById tenantId id auth fun profile =>
    .demand (ensure (profile.status = .draft) (.conflict
        s!"Issuance profile '{id}' cannot be updated because it is not in draft status."))
      fun _ => save id (dto.apply profile) emit

/-- `isCredentialDefinitionReadyForIssuance`, with the connector that it makes sure of. -/
def readyForIssuance (definition : CredentialDefinition) : Option Uuid :=
  if definition.registrationState = .ready && definition.externalId.any (fun x => x ≠ "") then
    definition.connectorId
  else none

/-- `assertConnectorHealthy`; `resolution` is the answer of `resolveConnector`, which asks the
adapter registry. -/
def assertConnectorHealthy (resolution : Except Failure Unit) (profile : IssuanceProfile J)
    (auth : AuthContext) (k : ExpectedDefinition → Program J) : Program J :=
  query fun s => .demand (do
      let definition ← need ((s.rest.definition profile.credentialDefinitionId).filter
          fun d => d.tenantId = profile.tenantId && mayAccess (some auth) d.tenantId)
        (.notFound s!"Credential definition '{profile.credentialDefinitionId}' was not found.")
      ensure (definition.status = .published) (.badRequest
        "Credential definition must be published before publishing an issuance profile.")
      let connectorId ← need (readyForIssuance definition)
        (.badRequest "Credential definition is not ready for issuance")
      pure (⟨profile.credentialDefinitionId, connectorId, definition.format⟩ : ExpectedDefinition))
    fun binding => query fun _ => .demand resolution fun _ => k binding

def publish (tenantId id : Uuid) (auth : AuthContext) (resolution : Except Failure Unit) :
    Program J :=
  let refusal : Failure := .conflict
    s!"Issuance profile '{id}' cannot be published because it is not in draft status."
  findById tenantId id auth fun profile =>
    .demand (ensure (profile.status = .draft) refusal) fun _ =>
      assertConnectorHealthy resolution profile auth fun binding =>
        transitionStatus .publish tenantId id .draft .published (some binding) fun transitioned =>
          .demand (ensure (transitioned = true) refusal) fun _ =>
            findById tenantId id auth fun _ => emit

def deprecateProfile (tenantId id : Uuid) (auth : AuthContext) : Program J :=
  let refusal : Failure := .conflict
    s!"Issuance profile '{id}' cannot be deprecated because it is not in published status."
  findById tenantId id auth fun profile =>
    .demand (ensure (profile.status = .published) refusal) fun _ =>
      transitionStatus .deprecateProfile tenantId id .published .deprecated none fun transitioned =>
        .demand (ensure (transitioned = true) refusal) fun _ =>
          findById tenantId id auth fun _ => emit

/-- The calls.  Definitions and connectors may change at any time. -/
inductive Request (J : Type) where
  | update (tenantId id : Uuid) (dto : UpdateIssuanceProfileDto J) (auth : AuthContext)
  | publish (tenantId id : Uuid) (auth : AuthContext) (resolution : Except Failure Unit)
  | deprecateProfile (tenantId id : Uuid) (auth : AuthContext)
  | rebind (b : Bindings)

def Request.program [DecidableEq J] : Request J → Program J
  | .update tenantId id dto auth => IssuanceProfiles.update tenantId id dto auth
  | .publish tenantId id auth resolution => IssuanceProfiles.publish tenantId id auth resolution
  | .deprecateProfile tenantId id auth => IssuanceProfiles.deprecateProfile tenantId id auth
  | .rebind b => .attempt .step (fun s => { s with rest := b }) (fail queryFailed) fun _ =>
    .ret (.ok ())

/-- The service.  Every statement commits on its own, so a crash changes nothing. -/
def service (J : Type) [DecidableEq J] : System (State J) Label (Request J) where
  prog r _ := r.program.discard
  crash := some fun _ s => s

/-! ## Legal changes -/

/-- A change moves the status one step on, or not at all, and touches the contents of a draft
only. -/
structure Legal (c : Change Uuid (IssuanceProfile J) Call) : Prop where
  status : c.after.status = c.before.status ∨
    (c.before.status = .draft ∧ c.after.status = .published) ∨
    (c.before.status = .published ∧ c.after.status = .deprecated)
  contents : c.before.status ≠ .draft → c.after.contents = c.before.contents

/-- Both statements of a `save` still find a draft. -/
def stillDraft : Label → State J → Bool
  | .reload id, s | .store id, s => (s.table.row id).any fun p => p.status = .draft
  | .step, _ => true

/-- A legal change of a profile that is no draft. -/
theorem Legal.after_ne_draft {c : Change Uuid (IssuanceProfile J) Call} (h : Legal c)
    (hbefore : c.before.status ≠ .draft) : c.after.status ≠ .draft := by
  obtain hsame | ⟨hdraft, -⟩ | ⟨-, hafter⟩ := h.status
  · rwa [hsame]
  · exact absurd hdraft hbefore
  · rw [hafter]
    exact nofun

/-- After a change that leaves no draft behind, legal changes keep the contents. -/
theorem contents_of_leads {first : Option (IssuanceProfile J)}
    {c : Change Uuid (IssuanceProfile J) Call} (hc : c.after.status ≠ .draft)
    {earlier : List (Change Uuid (IssuanceProfile J) Call)} :
    ∀ {later last}, (∀ d ∈ later, Legal d) → Leads first (later ++ c :: earlier) last →
      ∃ p, last = some p ∧ p.status ≠ .draft ∧ p.contents = c.after.contents := by
  intro later
  induction later with
  | nil =>
    intro last _ hleads
    exact ⟨c.after, hleads.1, hc, rfl⟩
  | cons d later ih =>
    intro last hlegal hleads
    obtain ⟨p, hp, hstatus, hcontents⟩ :=
      ih (fun e he => hlegal e (List.mem_cons_of_mem _ he)) hleads.2
    obtain rfl := Option.some.inj hp
    have hd : Legal d := hlegal d List.mem_cons_self
    exact ⟨d.after, hleads.1, hd.after_ne_draft hstatus,
      (hd.contents hstatus).trans hcontents⟩

/-! ## Every call keeps to them -/

section Calls

variable {t₀ : Profiles J}

abbrev Lawful (t₀ : Profiles J) (s : State J) : Prop := s.Recorded t₀ Legal

abbrev Undisturbed (l : Label) (s : State J) : Prop := stillDraft l s = true

theorem query_lawful {k : State J → Program J}
    (h : ∀ s, (k s).Maintains Undisturbed (Lawful t₀)) :
    (query k).Maintains Undisturbed (Lawful t₀) :=
  .attempt trivial fun s hs _ => ⟨hs, h s⟩

theorem emit_lawful : (emit : Program J).Maintains Undisturbed (Lawful t₀) :=
  query_lawful fun _ => trivial

theorem findById_lawful {tenantId id : Uuid} {auth : AuthContext}
    {k : IssuanceProfile J → Program J} (h : ∀ p, (k p).Maintains Undisturbed (Lawful t₀)) :
    (findById tenantId id auth k).Maintains Undisturbed (Lawful t₀) :=
  query_lawful fun _ => .demand fun p _ => h p

/-- A `save` whose row is a draft at both statements changes a draft and leaves a draft. -/
theorem legal_save [DecidableEq J] {call : Call} {id : Uuid}
    {entity read current : IssuanceProfile J}
    (hentity : entity.status = .draft) (hread : read.status = .draft)
    (hcurrent : current.status = .draft) : Legal ⟨call, id, current, entity.save read current⟩ where
  status := by
    left
    simp only [IssuanceProfile.save, saveColumn, hentity, hread, if_true]
  contents h := absurd hcurrent h

/-- Saving a draft is lawful. -/
theorem save_lawful [DecidableEq J] {id : Uuid} {profile : IssuanceProfile J} {k : Program J}
    (hdraft : profile.status = .draft) (hk : k.Maintains Undisturbed (Lawful t₀)) :
    (save id profile k).Maintains Undisturbed (Lawful t₀) := by
  refine Journal.maintains_save trivial hk fun s read s' a hreload hread hstore ha _ => ?_
  simp only [Undisturbed, stillDraft, hread, ha, Option.any_some,
    decide_eq_true_eq] at hreload hstore
  exact legal_save hdraft hreload hstore

/-- Publishing and deprecating are lawful. -/
theorem transitionStatus_lawful {call : Call} {tenantId id : Uuid}
    {fromStatus toStatus : IssuanceProfileStatus} {expected : Option ExpectedDefinition}
    {k : Bool → Program J}
    (hmove : fromStatus = .draft ∧ toStatus = .published ∨
      fromStatus = .published ∧ toStatus = .deprecated)
    (hk : ∀ b, (k b).Maintains Undisturbed (Lawful t₀)) :
    (transitionStatus call tenantId id fromStatus toStatus expected k).Maintains Undisturbed
      (Lawful t₀) := by
  refine .attempt trivial fun s hs _ => ⟨hs.updateRow fun p _ hp => ?_, hk _⟩
  -- the row meets the guard, and only its status changes
  have hfrom : p.status = fromStatus := by
    simp only [mayTransition, Bool.and_eq_true, decide_eq_true_eq] at hp
    exact hp.1.2
  refine ⟨Or.inr ?_, fun _ => rfl⟩
  simpa only [hfrom] using hmove

theorem update_lawful [DecidableEq J] (tenantId id : Uuid) (dto : UpdateIssuanceProfileDto J)
    (auth : AuthContext) :
    (update tenantId id dto auth).Maintains Undisturbed (Lawful t₀) :=
  findById_lawful fun _ => .demand fun _ hdraft =>
    save_lawful (ensure_eq_ok.mp hdraft) emit_lawful

theorem publish_lawful (tenantId id : Uuid) (auth : AuthContext)
    (resolution : Except Failure Unit) :
    (publish tenantId id auth resolution : Program J).Maintains Undisturbed (Lawful t₀) :=
  findById_lawful fun _ => .demand fun _ _ => query_lawful fun _ => .demand fun _ _ =>
    query_lawful fun _ => .demand fun _ _ => transitionStatus_lawful (Or.inl ⟨rfl, rfl⟩) fun _ =>
      .demand fun _ _ => findById_lawful fun _ => emit_lawful

theorem deprecateProfile_lawful (tenantId id : Uuid) (auth : AuthContext) :
    (deprecateProfile tenantId id auth : Program J).Maintains Undisturbed (Lawful t₀) :=
  findById_lawful fun _ => .demand fun _ _ => transitionStatus_lawful (Or.inr ⟨rfl, rfl⟩) fun _ =>
    .demand fun _ _ => findById_lawful fun _ => emit_lawful

/-- Every request is lawful. -/
theorem program_lawful [DecidableEq J] (r : Request J) :
    r.program.Maintains Undisturbed (Lawful t₀) := by
  cases r with
  | update tenantId id dto auth => exact update_lawful tenantId id dto auth
  | publish tenantId id auth resolution => exact publish_lawful tenantId id auth resolution
  | deprecateProfile tenantId id auth => exact deprecateProfile_lawful tenantId id auth
  | rebind b => exact .attempt trivial fun s hs _ => ⟨hs.rest b, trivial⟩

end Calls

/-- **Publication fixes a profile.**  If both statements of each `save` still find a draft, the
journal accounts for every row, every change is legal, and the contents stay from the publication
on. -/
theorem profiles_fixed_after_publication [DecidableEq J] (t₀ : Profiles J) (b₀ : Bindings)
    (c : Config (State J) Label)
    (hc : Reach (service J) (fun l s => stillDraft l s = true) ⟨t₀, [], b₀⟩ c) :
    c.state.Recorded t₀ Legal ∧
      ∀ id later ch earlier,
        c.state.changes.filter (fun d => d.key = id) = later ++ ch :: earlier →
        ch.after.status ≠ .draft →
        ∃ p, c.state.table.row id = some p ∧ p.status ≠ .draft ∧
          p.contents = ch.after.contents := by
  have hlawful : Lawful t₀ c.state :=
    Reach.invariant (fun r _ => (program_lawful r).discard)
      (fun g hg i s hs => by cases hg; exact hs) (.start t₀ Legal b₀) hc
  refine ⟨hlawful, fun id later ch earlier hsplit hstatus => ?_⟩
  refine contents_of_leads hstatus (fun d hd => ?_) (hsplit ▸ hlawful.complete id)
  have hmem : d ∈ c.state.changes.filter fun d => d.key = id := by
    rw [hsplit]
    exact List.mem_append_left _ hd
  exact hlawful.every d (List.mem_filter.mp hmem).1

end Service

/-! ## Runs -/

def sampleDefinition : CredentialDefinition :=
  ⟨7, "person", .anoncreds, ⟨none, none, ""⟩, some "did:x", some 5, .traction, .ready, none,
    ⟨none, none, ""⟩, none, .published, true, 0⟩

def sampleBindings : Bindings := ⟨fun _ => some sampleDefinition, fun _ _ => true⟩

def sampleProfile : IssuanceProfile ℕ :=
  ⟨7, "card", "1.0", none, 3, 0, none, none, 0, .auto, .draft⟩

def oneProfile : Profiles ℕ := ⟨[(1, sampleProfile)], by decide⟩

def sampleCaller : AuthContext := ⟨.user 9, some 7, [], []⟩

def describe : Request ℕ :=
  .update 7 1 ⟨some (some "new"), none, none, none, none⟩ sampleCaller

def publication : Request ℕ := .publish 7 1 sampleCaller (.ok ())

/-- The update is done before the publication reads the profile. -/
def updateThenPublish : List (Move (Request ℕ)) :=
  [.spawn describe, .spawn publication, .run 0, .run 0, .run 0, .run 1, .run 1, .run 1, .run 1]

/-- The profile is published with the description of the update, which stays. -/
theorem profiles_fixed_after_publication_sequential :
    ∃ c, (service ℕ).execIf stillDraft ⟨⟨oneProfile, [], sampleBindings⟩, []⟩ updateThenPublish =
        some c ∧ c.state.Recorded oneProfile Legal ∧
      ∃ p, c.state.table.row 1 = some p ∧ p.status ≠ .draft ∧
        p.contents = (none, 0, none, 0, some "new", .auto) := by
  have hresult : ((service ℕ).execIf stillDraft ⟨⟨oneProfile, [], sampleBindings⟩, []⟩
      updateThenPublish).map (fun c => c.state.changes) =
        some [⟨.publish, 1, { sampleProfile with description := some "new" },
            { sampleProfile with description := some "new", status := .published }⟩,
          ⟨.update, 1, sampleProfile, { sampleProfile with description := some "new" }⟩] := by
    decide +kernel
  obtain ⟨c, hexec, hchanges⟩ := Option.map_eq_some_iff.mp hresult
  have htheorem := profiles_fixed_after_publication oneProfile sampleBindings c
    (reach_execIf hexec)
  obtain ⟨p, hp, hstatus, hcontents⟩ := htheorem.2 1 [] _ _ (by rw [hchanges]; rfl) (by decide)
  exact ⟨c, hexec, htheorem.1, p, hp, hstatus, hcontents⟩

/-- The update has read the draft when the publication overtakes it. -/
def overtakenUpdate : List (Move (Request ℕ)) :=
  [.spawn describe, .spawn publication, .run 0, .run 1, .run 1, .run 1, .run 1, .run 0, .run 0]

/-- The published profile becomes a draft again, with another description. -/
theorem published_profile_reverted :
    ∃ c, Reach (service ℕ) Always ⟨oneProfile, [], sampleBindings⟩ c ∧
      ∃ ch ∈ c.state.changes, ch.call = .update ∧ ch.before.status = .published ∧
        ch.after.status = .draft ∧ ch.after.description ≠ ch.before.description := by
  have hresult : ((service ℕ).exec ⟨⟨oneProfile, [], sampleBindings⟩, []⟩ overtakenUpdate).map
      (fun c => c.state.changes) =
        some [⟨.update, 1, { sampleProfile with status := .published },
            { sampleProfile with description := some "new" }⟩,
          ⟨.publish, 1, sampleProfile, { sampleProfile with status := .published }⟩] := by
    decide +kernel
  obtain ⟨c, hexec, hchanges⟩ := Option.map_eq_some_iff.mp hresult
  refine ⟨c, reach_exec hexec, _, hchanges ▸ List.mem_cons_self, ?_⟩
  decide

end DigitalTrust.IssuanceProfiles
