/-
# Traction bearer tokens

`traction-token-manager.service.ts`: the per-process cache of bearer tokens.  A call is suspended
twice while it fetches a token, and what it writes into the cache afterwards does not depend on what
has happened meanwhile.  In the runs below a token carries where it was issued, by which call, and
how often its connector had been evicted when its acquisition began.
-/
import DigitalTrust.Interleaving
import DigitalTrust.OrderedMap
import DigitalTrust.Schema

namespace DigitalTrust.Traction

open Interleaving

/-! ## The manager -/

def expirySafetyMarginMs : ℕ := 30000

/-- `ConnectorContext`, with the credentials that the manager reads: `none` where the value
is missing or not a text. -/
structure ConnectorContext where
  connectorId : String
  endpointUrl : String
  apiKey : Option String
  tractionTenantId : Option String
  deriving DecidableEq

/-- A token: its text and `exp` claim; for whom and by which call it was fetched, and the
evictions of the connector before its acquisition began. -/
structure Token where
  text : String
  exp : Option ℤ
  endpointUrl : String
  tractionTenantId : String
  call : ℕ
  evictions : ℕ
  deriving DecidableEq

structure CachedToken where
  token : Token
  expiresAtMs : ℤ
  endpointUrl : String
  tractionTenantId : String

/-- A token that a call returned: whether it came from the cache, when, and the evictions of
the connector until then. -/
structure Served where
  call : ℕ
  context : ConnectorContext
  token : Token
  cached : Bool
  now : ℕ
  evictions : ℕ
  deriving DecidableEq

/-- The clock, the cache, how often each connector was evicted, and the tokens returned. -/
structure Manager where
  now : ℕ
  cache : OrderedMap String CachedToken
  evictions : String → ℕ
  served : List Served

/-- Statements that can be told apart in a run: the write of a token into the cache, with the
evictions of the connector before its acquisition began. -/
inductive Label where
  | step
  | store (connectorId : String) (evictions : ℕ)

abbrev Program := Proc Manager Label Unit

/-- The entry for the connector, if it is for this endpoint and this Traction tenant. -/
def Manager.cachedFor (m : Manager) (context : ConnectorContext) : Option CachedToken :=
  (m.cache.get context.connectorId).filter fun entry =>
    entry.endpointUrl = context.endpointUrl &&
      some entry.tractionTenantId = context.tractionTenantId

/-- The entry that is served: it does not expire within the safety margin. -/
def Manager.hit (m : Manager) (context : ConnectorContext) : Option CachedToken :=
  (m.cachedFor context).filter fun cached => (m.now : ℤ) + expirySafetyMarginMs < cached.expiresAtMs

def readCredentials (context : ConnectorContext) : Except Failure (String × String) :=
  match context.apiKey.filter fun key => key.length ≠ 0 with
  | none => .error (.adapter "CONNECTOR_UNAVAILABLE"
      s!"Connector '{context.connectorId}' is missing its apiKey credential")
  | some apiKey => match context.tractionTenantId.filter fun id => id.length ≠ 0 with
    | none => .error (.adapter "CONNECTOR_UNAVAILABLE"
        s!"Connector '{context.connectorId}' is missing its tractionTenantId credential")
    | some tractionTenantId => .ok (apiKey, tractionTenantId)

/-- `readExpiry`: a token without a readable `exp` claim counts as expired. -/
def readExpiry (now : ℕ) (token : Token) : ℤ :=
  match token.exp with
  | some exp => exp * 1000
  | none => now

/-- The end of `acquireToken`: the token is cached and returned. -/
def Manager.store (m : Manager) (i : ℕ) (context : ConnectorContext) (token : Token) : Manager :=
  { m with
    cache := m.cache.set context.connectorId
      ⟨token, readExpiry m.now token, token.endpointUrl, token.tractionTenantId⟩
    served := ⟨i, context, token, false, m.now, m.evictions context.connectorId⟩ :: m.served }

/-- A call that may fail, and then ends the program. -/
def await (k : Program) : Program := .statement .step true id () fun _ => k

/-- `acquireToken` of call `i`, begun after so many evictions; the agent answers with a text
and its `exp` claim. -/
def acquireToken (i : ℕ) (context : ConnectorContext) (evictions : ℕ) (text : String)
    (exp : Option ℤ) : Program :=
  match readCredentials context with
  | .error _ => .ret ()
  | .ok (_, tractionTenantId) =>
    -- the endpoint is checked, then the token is requested
    await (await (.statement (.store context.connectorId evictions) false
      (fun m => m.store i context
        ⟨text, exp, context.endpointUrl, tractionTenantId, i, evictions⟩) ()
      fun _ => .ret ()))

/-- The begin of `getToken`: a hit is returned at once. -/
def Manager.serve (m : Manager) (i : ℕ) (context : ConnectorContext) : Manager :=
  match m.hit context with
  | some cached =>
    { m with served :=
        ⟨i, context, cached.token, true, m.now, m.evictions context.connectorId⟩ :: m.served }
  | none => m

def getToken (i : ℕ) (context : ConnectorContext) (text : String) (exp : Option ℤ) : Program :=
  .statement .step false (fun m => m.serve i context) () fun m =>
    match m.hit context with
    | some _ => .ret ()
    | none => acquireToken i context (m.evictions context.connectorId) text exp

def Manager.evict (m : Manager) (connectorId : String) : Manager :=
  { m with
    cache := m.cache.remove connectorId
    evictions := Function.update m.evictions connectorId (m.evictions connectorId + 1) }

/-- What happens in the process: a call with the agent's answer to it, an eviction, and the
passing of time.  A reconfiguration shows in the context of later calls. -/
inductive Request where
  | getToken (context : ConnectorContext) (text : String) (exp : Option ℤ)
  | evict (connectorId : String)
  | tick (ms : ℕ)

/-- The process; it does not survive its own crash. -/
def process : System Manager Label Request where
  prog r i := match r with
    | .getToken context text exp => getToken i context text exp
    | .evict connectorId => .statement .step false (fun m => m.evict connectorId) () fun _ =>
      .ret ()
    | .tick ms => .statement .step false (fun m => { m with now := m.now + ms }) () fun _ => .ret ()
  crash := none

/-- A process that has just started. -/
def Manager.start (now : ℕ) : Manager := ⟨now, OrderedMap.empty, fun _ => 0, []⟩

/-! ## What is returned -/

/-- The token was issued for the endpoint and Traction tenant of the request, and was fetched
by the very call or is more than the safety margin away from its expiry. -/
structure Matches (x : Served) : Prop where
  endpoint : x.token.endpointUrl = x.context.endpointUrl
  tenant : some x.token.tractionTenantId = x.context.tractionTenantId
  live : x.cached = false ∧ x.token.call = x.call ∨
    ∃ exp, x.token.exp = some exp ∧ (x.now : ℤ) + expirySafetyMarginMs < exp * 1000

/-- The token does not come from the cache, or its connector was not evicted between the start
of the token's acquisition and the call. -/
def NotEvicted (x : Served) : Prop := x.cached = true → x.token.evictions = x.evictions

/-- No eviction of the connector has run since the acquisition began. -/
def undisturbed : Label → Manager → Bool
  | .store connectorId evictions, m => m.evictions connectorId = evictions
  | .step, _ => true

/-- What holds of an entry of the cache, now and after so many evictions of its connector; the
last clause only in undisturbed runs. -/
structure Entry (strict : Prop) (now evictions : ℕ) (entry : CachedToken) : Prop where
  endpoint : entry.token.endpointUrl = entry.endpointUrl
  tenant : entry.token.tractionTenantId = entry.tractionTenantId
  expiry : (∃ exp, entry.token.exp = some exp ∧ entry.expiresAtMs = exp * 1000) ∨
    entry.expiresAtMs ≤ now
  evictions : strict → entry.token.evictions = evictions

/-- What holds of the manager between any two statements. -/
structure Invariant (strict : Prop) (m : Manager) : Prop where
  entries : ∀ connectorId entry, m.cache.get connectorId = some entry →
    Entry strict m.now (m.evictions connectorId) entry
  served : ∀ x ∈ m.served, Matches x ∧ (strict → NotEvicted x)

section Proofs

variable {strict : Prop} {m : Manager} {context : ConnectorContext}

/-- What a hit is. -/
theorem of_hit {cached : CachedToken} (h : m.hit context = some cached) :
    m.cache.get context.connectorId = some cached ∧ cached.endpointUrl = context.endpointUrl ∧
      some cached.tractionTenantId = context.tractionTenantId ∧
      (m.now : ℤ) + expirySafetyMarginMs < cached.expiresAtMs := by
  obtain ⟨hfor, hlive⟩ := Option.filter_eq_some_iff.mp h
  obtain ⟨hget, hsame⟩ := Option.filter_eq_some_iff.mp hfor
  simp only [Bool.and_eq_true, decide_eq_true_eq] at hsame hlive
  exact ⟨hget, hsame.1, hsame.2, hlive⟩

/-- A token that is served from the cache is a proper one. -/
theorem Invariant.hit (hinv : Invariant strict m) {cached : CachedToken}
    (h : m.hit context = some cached) (i : ℕ) :
    Matches ⟨i, context, cached.token, true, m.now, m.evictions context.connectorId⟩ ∧
      (strict → NotEvicted ⟨i, context, cached.token, true, m.now,
        m.evictions context.connectorId⟩) := by
  obtain ⟨hget, hendpoint, htenant, hlive⟩ := of_hit h
  have hentry := hinv.entries _ _ hget
  refine ⟨⟨hentry.endpoint.trans hendpoint, by rw [hentry.tenant]; exact htenant, Or.inr ?_⟩,
    fun hstrict _ => hentry.evictions hstrict⟩
  obtain ⟨exp, hexp, hexpires⟩ | hexpired := hentry.expiry
  · exact ⟨exp, hexp, hexpires ▸ hlive⟩
  · -- a token without a readable expiry is never served
    have hmargin : (0 : ℤ) ≤ expirySafetyMarginMs := Int.natCast_nonneg _
    omega

/-- Credentials that could be read are those of the context. -/
theorem readCredentials_ok {apiKey tractionTenantId : String}
    (h : readCredentials context = .ok (apiKey, tractionTenantId)) :
    context.tractionTenantId = some tractionTenantId := by
  unfold readCredentials at h
  split at h
  · simp at h
  · split at h
    · simp at h
    · next id hid =>
      obtain ⟨-, rfl⟩ := Prod.mk.inj (Except.ok.inj h)
      exact (Option.filter_eq_some_iff.mp hid).1

/-- The write of a token keeps the invariant when the connector was not evicted meanwhile. -/
theorem Invariant.store (hinv : Invariant strict m) {i : ℕ} {token : Token}
    (hendpoint : token.endpointUrl = context.endpointUrl)
    (htenant : some token.tractionTenantId = context.tractionTenantId) (hcall : token.call = i)
    (hevictions : strict → m.evictions context.connectorId = token.evictions) :
    Invariant strict (m.store i context token) where
  entries connectorId entry hentry := by
    rw [Manager.store, OrderedMap.get_set] at hentry
    split_ifs at hentry with hconnector
    · obtain rfl := Option.some.inj hentry
      refine ⟨rfl, rfl, ?_, fun hstrict => ?_⟩
      · cases hexp : token.exp with
        | some exp => exact Or.inl ⟨exp, rfl, by simp [readExpiry, hexp]⟩
        | none => exact Or.inr (by simp [readExpiry, hexp, Manager.store])
      · rw [hconnector]
        exact (hevictions hstrict).symm
    · exact hinv.entries connectorId entry hentry
  served x hx := by
    obtain rfl | hold := List.mem_cons.mp hx
    · exact ⟨⟨hendpoint, htenant, Or.inl ⟨rfl, hcall⟩⟩, fun _ hcached => absurd hcached (by simp)⟩
    · exact hinv.served x hold

/-- A call. -/
theorem getToken_maintains {C : Label → Manager → Prop}
    (hC : strict → ∀ l m, C l m → undisturbed l m = true) (i : ℕ) (context : ConnectorContext)
    (text : String) (exp : Option ℤ) :
    (getToken i context text exp).Maintains C (Invariant strict) := by
  refine .statement fun m hinv _ => ?_
  simp only [Manager.serve]
  cases hhit : m.hit context with
  | some cached =>
    refine ⟨⟨hinv.entries, fun x (hx : x ∈ _ :: m.served) => ?_⟩, trivial⟩
    obtain rfl | hold := List.mem_cons.mp hx
    · exact hinv.hit hhit i
    · exact hinv.served x hold
  | none =>
    refine ⟨hinv, ?_⟩
    simp only [acquireToken]
    split
    · trivial
    · next apiKey tractionTenantId hcredentials =>
      have hawait : ∀ {k : Program}, k.Maintains C (Invariant strict) →
          (await k).Maintains C (Invariant strict) :=
            fun hk => .statement fun _ hinv _ => ⟨hinv, hk⟩
      refine hawait (hawait (.statement fun m' hinv' hlabel => ?_))
      refine ⟨hinv'.store rfl (readCredentials_ok hcredentials).symm rfl fun hstrict => ?_, trivial⟩
      simpa [undisturbed] using hC hstrict _ _ hlabel

/-- Every program maintains the invariant. -/
theorem process_maintains {C : Label → Manager → Prop}
    (hC : strict → ∀ l m, C l m → undisturbed l m = true) (r : Request) (i : ℕ) :
    (process.prog r i).Maintains C (Invariant strict) := by
  cases r with
  | getToken context text exp => exact getToken_maintains hC i context text exp
  | evict connectorId =>
    refine .statement fun m hinv _ =>
      ⟨⟨fun c entry hentry => ?_, hinv.served⟩, trivial⟩
    rw [Manager.evict, OrderedMap.get_remove] at hentry
    split_ifs at hentry with hc
    have hold := hinv.entries c entry hentry
    refine ⟨hold.endpoint, hold.tenant, hold.expiry, fun hstrict => ?_⟩
    simpa [Manager.evict, Function.update_of_ne hc] using hold.evictions hstrict
  | tick ms =>
    refine .statement fun m hinv _ =>
      ⟨⟨fun c entry hentry => ?_, hinv.served⟩, trivial⟩
    have hold := hinv.entries c entry hentry
    exact ⟨hold.endpoint, hold.tenant, hold.expiry.imp_right fun h => by push_cast; omega,
      hold.evictions⟩

/-- The invariant holds in every state that is reached. -/
theorem invariant_of_reach {C : Label → Manager → Prop}
    (hC : strict → ∀ l m, C l m → undisturbed l m = true) {now : ℕ} {c : Config Manager Label}
    (hc : Reach process C (Manager.start now) c) : Invariant strict c.state :=
  hc.invariant (process_maintains hC) (fun g hg => by simp [process] at hg)
    ⟨fun _ _ hentry => by simp [Manager.start] at hentry, fun _ hx => absurd hx List.not_mem_nil⟩

end Proofs

/-- **Returned tokens are proper** in every run in which no connector is evicted during an
acquisition for it: they match the request, and none served from the cache was acquired before an
eviction. -/
theorem served_tokens_proper (now : ℕ) (c : Config Manager Label)
    (hc : Reach process (fun l m => undisturbed l m = true) (Manager.start now) c) (x : Served)
    (hx : x ∈ c.state.served) : Matches x ∧ NotEvicted x := by
  have hinv : Invariant True c.state := invariant_of_reach (fun _ _ _ h => h) hc
  exact (hinv.served x hx).imp_right fun h => h trivial

/-! ## An eviction during an acquisition -/

def sampleContext : ConnectorContext :=
  ⟨"connector", "https://traction.example.com", some "key", some "wallet"⟩

/-- A call fetches a token; the connector is evicted before it begins (`early`) or just before
the token arrives; then a second call asks for a token. -/
def evictedRun (early : Bool) : List (Move Request) :=
  let fetch := .spawn (.getToken sampleContext "token" (some 100))
  let evict := .spawn (.evict "connector")
  let again := .spawn (.getToken sampleContext "other" (some 200))
  if early then [evict, .run 0, fetch, .run 1, .run 1, .run 1, .run 1, again, .run 2]
  else [fetch, .run 0, .run 0, .run 0, evict, .run 1, .run 0, again, .run 2]

/-- The token that the first call fetched, when it ran as process `i` after `n` evictions. -/
def firstToken (i n : ℕ) : Token :=
  ⟨"token", some 100, "https://traction.example.com", "wallet", i, n⟩

/-- After an eviction that came first, the second call is served the cached token. -/
theorem served_tokens_proper_early :
    ∃ c, process.execIf undisturbed ⟨Manager.start 0, []⟩ (evictedRun true) = some c ∧
      ⟨2, sampleContext, firstToken 1 1, true, 0, 1⟩ ∈ c.state.served ∧
      Matches ⟨2, sampleContext, firstToken 1 1, true, 0, 1⟩ ∧
      NotEvicted ⟨2, sampleContext, firstToken 1 1, true, 0, 1⟩ := by
  have hresult : (process.execIf undisturbed ⟨Manager.start 0, []⟩ (evictedRun true)).map
      (fun c => decide (⟨2, sampleContext, firstToken 1 1, true, 0, 1⟩ ∈ c.state.served)) =
        some true := by
    decide +kernel
  obtain ⟨c, hexec, hserved⟩ := Option.map_eq_some_iff.mp hresult
  have hmem := of_decide_eq_true hserved
  exact ⟨c, hexec, hmem, served_tokens_proper 0 c (reach_execIf hexec) _ hmem⟩

/-- The connector is evicted while the token is on its way: the next call is served the token
whose acquisition began before the eviction. -/
theorem token_outlives_eviction :
    ∃ c, Reach process Always (Manager.start 0) c ∧
      ∃ x ∈ c.state.served, x.call = 2 ∧ ¬NotEvicted x := by
  have hresult : (process.exec ⟨Manager.start 0, []⟩ (evictedRun false)).map
      (fun c => decide (⟨2, sampleContext, firstToken 0 0, true, 0, 1⟩ ∈ c.state.served)) =
        some true := by
    decide +kernel
  obtain ⟨c, hexec, hserved⟩ := Option.map_eq_some_iff.mp hresult
  refine ⟨c, reach_exec hexec, _, of_decide_eq_true hserved, rfl, fun h => ?_⟩
  exact absurd (h rfl) (by decide)

end DigitalTrust.Traction
