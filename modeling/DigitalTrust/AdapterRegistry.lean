/-
# Which connector serves a request

`adapter-registry.service.ts`, and `resolveAdapter` of the presentation request service.  In this
order: a platform administrator's override, an explicit connector, the tenant's
`default_connector`, the only active connector.  The connection's type narrows the last alone.
-/
import DigitalTrust.Connectors
import DigitalTrust.Table
import DigitalTrust.Tenants

namespace DigitalTrust.Connectors

open Relational
open Tenancy (Tenant)

/-! ## Adapters -/

/-- `CredentialFormat` of the port layer. -/
inductive CredentialFormat where
  | anonCreds
  | jsonLd
  | sdJwtVc
  | mdl
  deriving DecidableEq

def CredentialFormat.value : CredentialFormat → String
  | .anonCreds => "anoncreds"
  | .jsonLd => "jsonld"
  | .sdJwtVc => "sd-jwt-vc"
  | .mdl => "mdl"

def CredentialFormat.values : List CredentialFormat := [.anonCreds, .jsonLd, .sdJwtVc, .mdl]

/-- The string value of an entity's credential format. -/
def formatValue : CredentialDefinitionFormat → String
  | .anoncreds => "anoncreds"
  | .sdJwt => "sd-jwt"
  | .mdl => "mdl"
  | .w3cVc => "w3c-vc"

def toPortCredentialFormat (format : CredentialDefinitionFormat) : Option CredentialFormat :=
  CredentialFormat.values.find? fun value => value.value = formatValue format

/-- `AgentAdapter`, as far as the registry looks at it. -/
structure Adapter where
  connectorType : PortConnectorType
  supportedFormats : List CredentialFormat

/-- `adapters`: at most one adapter per type, each with a format. -/
structure Registry where
  adapters : List Adapter
  nodup : (adapters.map Adapter.connectorType).Nodup
  formats : ∀ a ∈ adapters, a.supportedFormats ≠ []

def Registry.empty : Registry := ⟨[], by simp, by simp⟩

def Registry.register (reg : Registry) (adapter : Adapter) : Except Failure Registry :=
  if hhas : adapter.connectorType ∈ reg.adapters.map Adapter.connectorType then
    .error (.other
      s!"An adapter is already registered for connector type '{adapter.connectorType.value}'")
  else if hformats : adapter.supportedFormats = [] then
    .error (.other
      s!"Adapter for connector type '{adapter.connectorType.value}' declares no supported formats")
  else
    .ok
      { adapters := adapter :: reg.adapters
        nodup := by simpa using ⟨by simpa using hhas, reg.nodup⟩
        formats := by simpa using ⟨hformats, reg.formats⟩ }

/-- `ConnectorUnavailableError`. -/
def connectorUnavailable (message : String) : Failure := .adapter "CONNECTOR_UNAVAILABLE" message

/-- `ConnectorSelectionAmbiguousError`. -/
def selectionAmbiguous (message : String) : Failure :=
  .adapter "CONNECTOR_SELECTION_AMBIGUOUS" message

/-- `FormatNotSupportedError`. -/
def formatNotSupported (format : CredentialFormat) : Failure :=
  .adapter "FORMAT_NOT_SUPPORTED" s!"Credential format not supported: {format.value}"

def Registry.getByConnectorType (reg : Registry) (connectorType : PortConnectorType) :
    Except Failure { a : Adapter // a ∈ reg.adapters ∧ a.connectorType = connectorType } :=
  match hfind : reg.adapters.find? fun a => a.connectorType = connectorType with
  | some a =>
    .ok ⟨a, List.mem_of_find?_eq_some hfind, by simpa using List.find?_some hfind⟩
  | none =>
    .error (connectorUnavailable
      s!"No adapter is registered for connector type '{connectorType.value}'")

/-- `selectFormat`; the registry holds no adapter without a format. -/
def selectFormat (adapter : Adapter) (hformats : adapter.supportedFormats ≠ [])
    (format : Option CredentialFormat) : Except Failure CredentialFormat :=
  match format with
  | none => .ok (adapter.supportedFormats.head hformats)
  | some format =>
    if adapter.supportedFormats.contains format then .ok format
    else .error (formatNotSupported format)

/-! ## Choosing the connector -/

section Resolution

variable {B V : Type}

structure ResolveOptions where
  connectorId : Option String
  connectorType : Option PortConnectorType
  adapterOverride : Option PortConnectorType
  isPlatformAdmin : Bool

def ResolveOptions.default : ResolveOptions := ⟨none, none, none, false⟩

structure ConnectorContext (V : Type) where
  connectorId : String
  tenantId : String
  endpointUrl : String
  credentials : V

structure ResolvedAdapter (B V : Type) where
  adapter : Adapter
  connector : Connector B
  context : ConnectorContext V
  format : CredentialFormat

/-- What a resolution reads: the registered adapters, the gate of the override, the
decryption, the tenant's row and the tenant's connectors. -/
structure Lookup (B V : Type) where
  registry : Registry
  overrideEnabled : Bool
  decrypt : B → ℕ → Except Failure V
  tenant : Option Tenant
  connectors : List (Connector B)

variable (look : Lookup B V) (tenantId : String)

def resolveOverride (options : ResolveOptions) : Except Failure (Option PortConnectorType) :=
  match options.adapterOverride with
  | none => .ok none
  | some override =>
    if !look.overrideEnabled then .error (.forbidden "Adapter override is disabled")
    else if !options.isPlatformAdmin then
      .error (.forbidden "Adapter override requires the platform-admin role")
    else .ok (some override)

/-- The value of `config.default_connector` if it is a text that is not empty. -/
def defaultConnector (tenant : Tenant) : Option String :=
  match tenant.config.defaultConnector with
  | some (.text configured) => if configured.length > 0 then some configured else none
  | _ => none

def readDefaultConnector : Except Failure (Option String) :=
  match look.tenant with
  | none => .error (.notFound "Tenant not found")
  | some tenant => .ok (defaultConnector tenant)

/-- The connectors that `findSoleActiveConnector` chooses from. -/
def candidates (connectorType : Option PortConnectorType) : List (Connector B) :=
  look.connectors.filter fun candidate =>
    candidate.active &&
      (connectorType.isNone || toPortConnectorType candidate.connectorType = connectorType)

def findSoleActiveConnector (connectorType : Option PortConnectorType) :
    Except Failure (Connector B) :=
  match candidates look connectorType with
  | [] =>
    let ofType := match connectorType with
      | some t => s!" of type '{t.value}'"
      | none => ""
    .error (connectorUnavailable s!"Tenant '{tenantId}' has no active connector{ofType}")
  | [connector] => .ok connector
  | _ :: _ :: _ =>
    .error (selectionAmbiguous (match connectorType with
      | some t =>
        s!"Multiple active connectors of type '{t.value}' are configured; select a connector explicitly."
      | none =>
        "Multiple active connectors are configured; set default_connector or select a connector explicitly."))

/-- The branch of `findConnector` with an explicit id: the tenant's connector of that id. -/
def findExplicitConnector (explicitId : String) : Except Failure (Connector B) :=
  match look.connectors.find? fun candidate => candidate.id = explicitId with
  | none =>
    .error (connectorUnavailable
      s!"Connector '{explicitId}' was not found for tenant '{tenantId}'")
  | some connector =>
    if connector.active then .ok connector
    else .error (connectorUnavailable s!"Connector '{explicitId}' is not active")

def findConnector (connectorId : Option String) (connectorType : Option PortConnectorType) :
    Except Failure (Connector B) := do
  let explicitId ← match connectorId with
    | some id => pure (some id)
    | none => readDefaultConnector look
  -- an empty id counts as none
  match explicitId.filter fun id => id ≠ "" with
  | none => findSoleActiveConnector look tenantId connectorType
  | some explicitId => findExplicitConnector look tenantId explicitId

def buildContext (connector : Connector B) : Except Failure (ConnectorContext V) := do
  let credentials ← look.decrypt connector.credentialsEncrypted connector.keyVersion
  pure ⟨connector.id, connector.tenantId, connector.endpointUrl, credentials⟩

/-- The end of `resolve`: the adapter with its connector, context and format. -/
def assemble (connectorType : PortConnectorType)
    (adapter : { a // a ∈ look.registry.adapters ∧ a.connectorType = connectorType })
    (connector : Connector B) (format : Option CredentialFormat) :
    Except Failure (ResolvedAdapter B V) := do
  let context ← buildContext look connector
  let format ← selectFormat adapter.1 (look.registry.formats _ adapter.2.1) format
  pure ⟨adapter.1, connector, context, format⟩

def resolve (format : Option CredentialFormat) (options : ResolveOptions) :
    Except Failure (ResolvedAdapter B V) := do
  match ← resolveOverride look options with
  | some override =>
    let adapter ← look.registry.getByConnectorType override
    let connector ← findSoleActiveConnector look tenantId (some override)
    assemble look override adapter connector format
  | none =>
    let connector ← findConnector look tenantId options.connectorId options.connectorType
    match toPortConnectorType connector.connectorType with
    | none => .error (connectorUnavailable
        s!"Unknown connector type '{connector.connectorType.value}'")
    | some connectorType =>
      let adapter ← look.registry.getByConnectorType connectorType
      assemble look connectorType adapter connector format

/-- `resolveAdapter` of the presentation request service, for a connection of the given
type; an adapter's error is the request's fault. -/
def resolveAdapter (connectionType : ConnectorType) (format : Option CredentialDefinitionFormat) :
    Except Failure (ResolvedAdapter B V) :=
  match resolve look tenantId (format.bind toPortCredentialFormat)
      { ResolveOptions.default with connectorType := toPortConnectorType connectionType } with
  | .ok resolved => .ok resolved
  | .error (.adapter _ message) => .error (.badRequest message)
  | .error e => .error e

/-! ## Whose type the connector has -/

variable {look tenantId}

/-- A sole connector is active, is the tenant's, and has the type asked for. -/
theorem of_findSoleActiveConnector {connectorType : Option PortConnectorType} {c : Connector B}
    (h : findSoleActiveConnector look tenantId connectorType = .ok c) :
    c ∈ look.connectors ∧ c.active ∧
      ∀ t, connectorType = some t → toPortConnectorType c.connectorType = some t := by
  have hmem : c ∈ candidates look connectorType := by
    unfold findSoleActiveConnector at h
    split at h
    · cases h
    · next c' hc' => rw [hc', ← Except.ok.inj h]; exact List.mem_singleton_self _
    · cases h
  obtain ⟨hin, hactive⟩ := List.mem_filter.mp hmem
  simp only [Bool.and_eq_true, Bool.or_eq_true, decide_eq_true_eq] at hactive
  refine ⟨hin, hactive.1, ?_⟩
  rintro t rfl
  exact hactive.2.resolve_left (by simp)

/-- A connector that is named is the tenant's one of that id, and active. -/
theorem findExplicitConnector_eq_ok {explicitId : String} {c : Connector B} :
    findExplicitConnector look tenantId explicitId = .ok c ↔
      look.connectors.find? (fun candidate => candidate.id = explicitId) = some c ∧ c.active := by
  unfold findExplicitConnector
  cases look.connectors.find? fun candidate => candidate.id = explicitId with
  | none => simp
  | some c' =>
    by_cases hactive : c'.active
    · simp only [hactive, if_true, Except.ok.injEq, Option.some.injEq]
      exact ⟨fun h => ⟨h, h ▸ hactive⟩, fun h => h.1⟩
    · simp only [hactive, Bool.false_eq_true, if_false, Option.some.injEq, reduceCtorEq, false_iff,
        not_and]
      rintro rfl
      exact hactive

/-- Both ends of `resolve` return the connector they were given. -/
theorem of_assemble {t : PortConnectorType}
    {a : { a // a ∈ look.registry.adapters ∧ a.connectorType = t }} {c : Connector B}
    {format : Option CredentialFormat} {r : ResolvedAdapter B V}
    (h : assemble look t a c format = .ok r) :
    r.connector = c ∧ r.adapter = a.1 ∧ r.context.connectorId = c.id := by
  simp only [assemble, buildContext, bind_eq_ok, pure_eq_ok] at h
  obtain ⟨_, ⟨_, _, rfl⟩, _, _, rfl⟩ := h
  exact ⟨rfl, rfl, rfl⟩

/-- Without an override the connector is the one that `findConnector` finds. -/
theorem findConnector_of_resolve {format : Option CredentialFormat} {options : ResolveOptions}
    (hoverride : options.adapterOverride = none) {r : ResolvedAdapter B V}
    (h : resolve look tenantId format options = .ok r) :
    findConnector look tenantId options.connectorId options.connectorType = .ok r.connector := by
  simp only [resolve, resolveOverride, hoverride, bind_eq_ok, Except.ok.injEq, exists_eq_left'] at h
  obtain ⟨c, hc, h⟩ := h
  cases ht : toPortConnectorType c.connectorType with
  | none => simp [ht] at h
  | some t =>
    obtain ⟨a, -, hr⟩ := by simpa only [ht, bind_eq_ok] using h
    rw [(of_assemble hr).1, hc]

/-- Without an explicit id the default decides, and without a default the sole connector. -/
theorem findConnector_none {connectorType : Option PortConnectorType} {c : Connector B}
    (h : findConnector look tenantId none connectorType = .ok c) :
    ∃ tenant, look.tenant = some tenant ∧
      match defaultConnector tenant with
      | none => findSoleActiveConnector look tenantId connectorType = .ok c
      | some id => findExplicitConnector look tenantId id = .ok c := by
  cases htenant : look.tenant with
  | none => simp [findConnector, readDefaultConnector, htenant, bind_eq_ok] at h
  | some tenant =>
    refine ⟨tenant, rfl, ?_⟩
    simp only [findConnector, readDefaultConnector, htenant, bind_eq_ok, Except.ok.injEq,
      exists_eq_left'] at h
    cases hdefault : defaultConnector tenant with
    | none => simpa [hdefault] using h
    | some id =>
      have hne : id ≠ "" := by
        rintro rfl
        revert hdefault
        unfold defaultConnector
        split
        · next configured _ =>
          split
          · next hlength =>
            intro hsome
            rw [Option.some.inj hsome] at hlength
            exact absurd hlength (by decide)
          · simp
        · simp
      have hkept : (some id).filter (fun id => id ≠ "") = some id := by
        simp [Option.filter, hne]
      rw [hdefault, hkept] at h
      exact h

/-- The default of the tenant, if it has one, is a connector of the given type. -/
def defaultOfType (look : Lookup B V) (connectorType : ConnectorType) : Bool :=
  match look.tenant.bind defaultConnector with
  | none => true
  | some id =>
    (look.connectors.find? fun candidate => candidate.id = id).any fun c =>
      c.connectorType = connectorType

/-- **The type of the connector used.**  When the resolution for a connection succeeds, the
connector has the connection's type exactly if the tenant has no default connector or the
default has that type. -/
theorem resolveAdapter_connectorType_iff (look : Lookup B V) (tenantId : String)
    (connectionType : ConnectorType) (format : Option CredentialDefinitionFormat)
    (r : ResolvedAdapter B V)
    (h : resolveAdapter look tenantId connectionType format = .ok r) :
    r.connector.connectorType = connectionType ↔ defaultOfType look connectionType = true := by
  have hresolve : resolve look tenantId (format.bind toPortCredentialFormat)
      { ResolveOptions.default with connectorType := toPortConnectorType connectionType } =
        .ok r := by
    unfold resolveAdapter at h
    split at h
    · next hr => rw [hr, Except.ok.inj h]
    · cases h
    · cases h
  obtain ⟨tenant, htenant, hfound⟩ := findConnector_none (findConnector_of_resolve rfl hresolve)
  simp only [defaultOfType, htenant, Option.bind_some]
  cases hdefault : defaultConnector tenant with
  | none =>
    -- the sole connector was looked for among those of the connection's type
    rw [hdefault] at hfound
    obtain ⟨t, ht⟩ := Option.isSome_iff_exists.mp (toPortConnectorType_isSome connectionType)
    have htype := (of_findSoleActiveConnector hfound).2.2 t ht
    simpa using toPortConnectorType_inj (htype.trans ht.symm)
  | some id =>
    rw [hdefault] at hfound
    simp [(findExplicitConnector_eq_ok.mp hfound).1]

end Resolution

/-! ## A tenant with two connectors -/

/-- The registry of the service: the Traction adapter. -/
def tractionRegistry : Registry :=
  ⟨[⟨.traction, [.anonCreds]⟩], by decide, by decide⟩

example : Registry.empty.register ⟨.traction, [.anonCreds]⟩ = .ok tractionRegistry := rfl

/-- An active connector of a tenant, with its credentials in clear. -/
def sampleConnector (id : String) (connectorType : ConnectorType) : Connector String :=
  ⟨id, "tenant", connectorType, "api key", "https://agent.example.com", true, 1, none⟩

/-- A tenant with a Traction and a Credo connector and the given default. -/
def sampleLookup (defaultConnector : Option Tenancy.ConfigValue) : Lookup String String where
  registry := tractionRegistry
  overrideEnabled := false
  decrypt ciphertext _ := .ok ciphertext
  tenant := some ⟨"tenant", none, .active, ⟨defaultConnector, none, none, ""⟩, none, none⟩
  connectors := [sampleConnector "c1" .traction, sampleConnector "c2" .credo]

/-- What a resolution to the Traction connector returns. -/
def sampleResolved : ResolvedAdapter String String :=
  ⟨⟨.traction, [.anonCreds]⟩, sampleConnector "c1" .traction,
    ⟨"c1", "tenant", "https://agent.example.com", "api key"⟩, .anonCreds⟩

/-- A Traction connection of a tenant without a default is served by the Traction connector. -/
theorem resolveAdapter_without_default :
    resolveAdapter (sampleLookup none) "tenant" .traction none = .ok sampleResolved ∧
      sampleResolved.connector.connectorType = .traction :=
  ⟨rfl, (resolveAdapter_connectorType_iff (sampleLookup none) "tenant" .traction none sampleResolved
    rfl).mpr (by decide)⟩

/-- With the Traction connector as default, a request on a Credo connection is routed to the
Traction connector, although the tenant has an active Credo connector. -/
theorem resolveAdapter_other_type :
    resolveAdapter (sampleLookup (some (.text "c1"))) "tenant" .credo none = .ok sampleResolved ∧
      sampleResolved.connector.connectorType ≠ .credo :=
  ⟨rfl, by decide⟩

end DigitalTrust.Connectors
