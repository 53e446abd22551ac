/-
# The log gateway

`log-access.service.ts`, `log-access-token.service.ts` from the verified token on,
`log-partition-key.ts`, and `resolveAgentPartitions` with its cache, while connectors change.  A
lookup asks the cache, notes the generation and the time, reads the connectors, and then offers its
list to the cache.  In the runs below a list carries after which change of the tenant's connectors
it was read and when its lookup began.
-/
import DigitalTrust.AgentLogPartitions
import DigitalTrust.Authorization
import DigitalTrust.Interleaving

namespace DigitalTrust.LogAccess

open Connectors Interleaving Relational
open Json (Text)

/-! ## Tokens -/

/-- `LogAccessDeniedError`, or another error. -/
inductive AccessError where
  | denied (status : ℕ) (reason : String)
  | thrown (e : Failure)

/-- The claims of a verified token that the gateway looks at. -/
structure Payload where
  sub : Option Json.Value
  exp : Option Json.Value
  iat : Option Json.Value
  tenantId : Option Json.Value
  scope : Option Json.Value

def isNumber : Option Json.Value → Bool
  | some (.number _) => true
  | _ => false

/-- A claim that is a text, and not the empty one. -/
def isText : Option Json.Value → Bool
  | some (.string s) => s ≠ []
  | _ => false

/-- A digit of a canonical UUID. -/
def isHexDigit (c : Char) : Bool := '0' ≤ c && c ≤ '9' || 'a' ≤ c && c ≤ 'f'

/-- `isCanonicalTenantId`: the pattern of a UUID in lower case, dashes after the 8th, 12th,
16th and 20th digit. -/
def isCanonicalTenantId (value : Text) : Bool :=
  value.length = 36 && value.zipIdx.all fun x =>
    if x.2 = 8 ∨ x.2 = 13 ∨ x.2 = 18 ∨ x.2 = 23 then x.1 = '-' else isHexDigit x.1

def isWhiteSpace (c : Char) : Bool :=
  '\t' ≤ c && c ≤ '\r' || c = ' ' || [0xa0, 0x1680, 0x2028, 0x2029, 0x202f, 0x205f, 0x3000,
    0xfeff].contains c.toNat || 0x2000 ≤ c.toNat && c.toNat ≤ 0x200a

def grantedScopes (payload : Payload) : List String :=
  match payload.scope with
  | some (.string scope) =>
    ((scope.splitOnP isWhiteSpace).filter fun s => s ≠ []).map String.ofList
  | _ => []

/-- `authorize`, after the token was verified for the gateway's audience. -/
def authorize (verified : Except AccessError Payload) : Except AccessError String := do
  let payload ← verified
  if !(isText payload.sub && isNumber payload.exp && isNumber payload.iat) then
    .error (.denied 401 "missing_required_claims")
  else match payload.tenantId with
    | some (.string tenantId) =>
      if !isCanonicalTenantId tenantId then .error (.denied 401 "invalid_tenant_id")
      else if !(expandEffectiveScopes (grantedScopes payload)).contains "logs:read" then
        .error (.denied 403 "missing_logs_read_scope")
      else .ok (String.ofList tenantId)
    | _ => .error (.denied 401 "invalid_tenant_id")

/-! ## Scopes -/

def tenantPartitionKey (tenantId : String) : Text := 't' :: '-' :: tenantId.toList

def deriveTenantPartitionKey (tenantId : String) : Except AccessError Text :=
  if isCanonicalTenantId tenantId.toList then .ok (tenantPartitionKey tenantId)
  else .error (.thrown (.other "tenant_id is not a canonical UUID"))

/-- `isSafePartitionKey`: the pattern `^[a-z0-9][a-z0-9-]{0,148}$`. -/
def isSafePartitionKey : Text → Bool
  | [] => false
  | c :: rest => isKeyChar c && c ≠ '-' && rest.length ≤ 148 && rest.all isKeyChar

def maxPartitionsPerScope : ℕ := 10

/-- The end of `resolveScope`: the scope of a tenant and the partitions of its agents. -/
def scopeOf (tenantId : String) (agentPartitions : List Text) : Except AccessError Text :=
  if !agentPartitions.all isSafePartitionKey then .error (.denied 403 "resolution_failed")
  else do
    let own ← deriveTenantPartitionKey tenantId
    let partitions := own :: agentPartitions.eraseDups
    if partitions.length > maxPartitionsPerScope then
      .error (.denied 403 "partition_bound_exceeded")
    else pure (['|'].intercalate partitions)

/-- The separator is no character of a key. -/
theorem separator_notMem_of_safe {key : Text} (h : isSafePartitionKey key = true) : '|' ∉ key := by
  cases key with
  | nil => simp
  | cons c rest =>
    simp only [isSafePartitionKey, Bool.and_eq_true, List.all_eq_true] at h
    intro hmem
    have hchar : isKeyChar '|' = true := by
      obtain rfl | hrest := List.mem_cons.mp hmem
      · exact h.1.1.1
      · exact h.2 _ hrest
    exact absurd hchar (by decide)

/-- The separator is no character of a canonical tenant id. -/
theorem separator_notMem_of_canonical {value : Text} (h : isCanonicalTenantId value = true) :
    '|' ∉ value := by
  intro hmem
  obtain ⟨i, hi, hget⟩ := List.getElem_of_mem hmem
  simp only [isCanonicalTenantId, Bool.and_eq_true, List.all_eq_true] at h
  have hchar := h.2 ('|', i) (List.mem_zipIdx_iff_getElem?.mpr (by simp [hi, hget]))
  have hdigit : isHexDigit '|' = false := by decide
  simp [hdigit] at hchar

variable {tenantId : String} {partitions : List Text} {scope : Text}

/-- A scope, split as the log store splits it: the tenant's key, then the agents' keys. -/
theorem splitOn_scopeOf (h : scopeOf tenantId partitions = .ok scope) :
    List.splitOn '|' scope = tenantPartitionKey tenantId :: partitions.eraseDups := by
  unfold scopeOf deriveTenantPartitionKey at h
  by_cases hsafe : partitions.all isSafePartitionKey = true
  · by_cases htenant : isCanonicalTenantId tenantId.toList = true
    · simp only [hsafe, htenant, Bool.not_true, Bool.false_eq_true, if_false, if_true, bind_eq_ok,
        Except.ok.injEq, exists_eq_left'] at h
      split_ifs at h with hbound
      obtain rfl := pure_eq_ok.mp h
      refine List.splitOn_intercalate '|' (fun key hkey => ?_) (List.cons_ne_nil _ _)
      obtain rfl | hagent := List.mem_cons.mp hkey
      · simp [tenantPartitionKey, separator_notMem_of_canonical htenant]
      · have hmem := List.mem_eraseDups.mp hagent
        exact separator_notMem_of_safe (List.all_eq_true.mp hsafe key hmem)
    · simp [hsafe, htenant] at h
  · simp [hsafe] at h

/-- A scope never exceeds the bound. -/
theorem length_of_scopeOf (h : scopeOf tenantId partitions = .ok scope) :
    (List.splitOn '|' scope).length ≤ maxPartitionsPerScope := by
  rw [splitOn_scopeOf h]
  unfold scopeOf at h
  split_ifs at h
  obtain ⟨own, -, h⟩ := bind_eq_ok.mp h
  simp only at h
  split_ifs at h with hbound
  simpa using hbound

/-- The tenant's key determines the tenant, and is never the key of an agent. -/
theorem tenantPartitionKey_inj {tenantId' : String}
    (h : tenantPartitionKey tenantId = tenantPartitionKey tenantId') : tenantId = tenantId' := by
  simpa [tenantPartitionKey, String.toList_inj] using h

theorem tenantPartitionKey_ne_agentPartitionKey {t : ConnectorType} {id : Text} :
    tenantPartitionKey tenantId ≠ agentPartitionKey t id := by
  simp [tenantPartitionKey, agentPartitionKey, agentPartitionKeyPrefix]

/-! ## The process -/

/-- A list as the cache holds it, with the change of the tenant's connectors after which it
was read and the time when its lookup began. -/
structure Reading where
  partitions : List Text
  readAt : ℕ
  startedAt : ℕ
  deriving DecidableEq

/-- The clock, the cache, the tenant's connectors after each of its changes, how many changes were
committed, those whose invalidation has run, and the scopes granted so far. -/
structure Process (B : Type) where
  now : ℕ
  cache : AgentLogPartitionCache Reading
  connectors : String → ℕ → List (Connector B)
  changes : String → ℕ
  invalidated : List (String × ℕ)
  grants : List (String × Text)

/-- A request with its verified token and the answer of the rate limiter, a change of a tenant's
connectors with its invalidation, and the passing of time. -/
inductive Request (B : Type) where
  | check (verified : Except AccessError Payload) (withinBudget : Bool)
  | change (tenantId : String) (write : List (Connector B) → List (Connector B))
  | tick (ms : ℕ)

section Programs

variable {B : Type} (decrypt : B → ℕ → Except Failure Json.Value)

abbrev Program (B α : Type) := Proc (Process B) Unit α

def step (f : Process B → Process B) (k : Process B → Program B Unit) : Program B Unit :=
  .statement () false f () k

/-- The last part of `resolveAgentPartitions`: the cache is offered the list. -/
def storeReading (tenantId : String) (lookup : AgentLogPartitionLookup) (reading : Reading) :
    Program B (Except Failure Reading) :=
  .statement () false (fun s => match s.cache.set s.now tenantId reading lookup with
    | .ok cache => { s with cache }
    | .error _ => s) (.ok reading) fun s =>
      .ret ((s.cache.set s.now tenantId reading lookup).map fun _ => reading)

def resolveAgentPartitions (tenantId : String) : Program B (Except Failure Reading) :=
  let unreachable := .error (.other "database")
  .statement () false (fun s => { s with cache := (s.cache.get s.now tenantId).2 })
    unreachable fun s =>
    match (s.cache.get s.now tenantId).1 with
    | some cached => .ret (.ok cached)
    | none =>
      .statement () false id unreachable fun s =>
        let lookup := s.cache.beginLookup s.now
        .statement () true id unreachable fun s =>
          match agentPartitions decrypt (s.connectors tenantId (s.changes tenantId)) with
          | .error e => .ret (.error e)
          | .ok partitions =>
            storeReading tenantId lookup ⟨partitions, s.changes tenantId, lookup.startedAt⟩

/-- `resolveScope`, with the tenant of the token. -/
def resolveScope (verified : Except AccessError Payload) (withinBudget : Bool) :
    Program B (Except AccessError (String × Text)) :=
  match authorize verified with
  | .error e => .ret (.error e)
  | .ok tenantId =>
    if !withinBudget then .ret (.error (.denied 429 "rate_limited"))
    else do
      match ← resolveAgentPartitions decrypt tenantId with
      | .error _ => .ret (.error (.denied 403 "resolution_failed"))
      | .ok reading => .ret ((scopeOf tenantId reading.partitions).map fun scope =>
        (tenantId, scope))

/-- `check` of the controller: a scope is granted or the request is denied. -/
def check (verified : Except AccessError Payload) (withinBudget : Bool) : Program B Unit := do
  match ← resolveScope decrypt verified withinBudget with
  | .error _ => .ret ()
  | .ok grant => step (fun s => { s with grants := grant :: s.grants }) fun _ => .ret ()

/-- The commit of a change: one more version of the tenant's connectors. -/
def commitChange (tenantId : String) (write : List (Connector B) → List (Connector B))
    (s : Process B) : Process B :=
  let version := s.changes tenantId
  { s with
    connectors := Function.update s.connectors tenantId
      (Function.update (s.connectors tenantId) (version + 1)
        (write (s.connectors tenantId version)))
    changes := Function.update s.changes tenantId (version + 1) }

/-- A change of a tenant's connectors, then `invalidate`. -/
def changeConnectors (tenantId : String) (write : List (Connector B) → List (Connector B)) :
    Program B Unit :=
  step (commitChange tenantId write) fun before =>
    step (fun s => { s with
      cache := s.cache.invalidate tenantId
      invalidated := (tenantId, before.changes tenantId + 1) :: s.invalidated }) fun _ => .ret ()

/-- The process; it does not survive its own crash. -/
def process : System (Process B) Unit (Request B) where
  prog r _ := match r with
    | .check verified withinBudget => check decrypt verified withinBudget
    | .change tenantId write => changeConnectors tenantId write
    | .tick ms => step (fun s => { s with now := s.now + ms }) fun _ => .ret ()
  crash := none

/-- A process that has just started, with these connectors in the database. -/
def Process.start (now : ℕ) (connectors : List (Connector B)) : Process B :=
  ⟨now, .empty, fun tenantId _ => connectors.filter fun c => c.tenantId = tenantId, fun _ => 0, [],
    []⟩

/-! ### The contract -/

/-- A list that was read from a version of the tenant's connectors. -/
structure Read (s : Process B) (tenantId : String) (reading : Reading) : Prop where
  committed : reading.readAt ≤ s.changes tenantId
  partitions :
    agentPartitions decrypt (s.connectors tenantId reading.readAt) = .ok reading.partitions

/-- A list of the tenant that was read after every change whose invalidation has run. -/
structure Fresh (s : Process B) (tenantId : String) (reading : Reading) : Prop extends
    Read decrypt s tenantId reading where
  notStale : ∀ change, (tenantId, change) ∈ s.invalidated → change ≤ reading.readAt

/-- A scope that was made from a version of the tenant's connectors. -/
def Granted (s : Process B) (grant : String × Text) : Prop :=
  ∃ reading, Read decrypt s grant.1 reading ∧ scopeOf grant.1 reading.partitions = .ok grant.2

/-- What holds of the process between any two statements. -/
structure Invariant (s : Process B) : Prop where
  size : s.cache.entries.size ≤ agentPartitionCacheMaxEntries
  invalidated : ∀ tenantId change, (tenantId, change) ∈ s.invalidated → change ≤ s.changes tenantId
  fresh : ∀ tenantId entry, s.cache.entries.get tenantId = some entry →
    Fresh decrypt s tenantId entry.partitions ∧
      entry.expiresAt = entry.partitions.startedAt + agentPartitionCacheTtlMs
  granted : ∀ grant ∈ s.grants, Granted decrypt s grant

/-- What a statement may do to the others: versions are only added, and whenever an
invalidation runs the generation grows. -/
structure Evolves (s s' : Process B) : Prop where
  generation : s.cache.generation ≤ s'.cache.generation
  invalidated : s'.cache.generation = s.cache.generation → s'.invalidated = s.invalidated
  changes : ∀ tenantId, s.changes tenantId ≤ s'.changes tenantId
  connectors : ∀ tenantId version, version ≤ s.changes tenantId →
    s'.connectors tenantId version = s.connectors tenantId version

def contract : Contract (Process B) where
  inv := Invariant decrypt
  rely _ := Evolves
  start _ _ := True

variable {decrypt}

/-- Nothing evolves when versions and invalidations stay. -/
theorem Evolves.of_eq {s s' : Process B} (hgeneration : s'.cache.generation = s.cache.generation)
    (hinvalidated : s'.invalidated = s.invalidated) (hchanges : s'.changes = s.changes)
    (hconnectors : s'.connectors = s.connectors) : Evolves s s' :=
  ⟨hgeneration.ge, fun _ => hinvalidated, fun _ => hchanges ▸ le_rfl,
    fun _ _ _ => hconnectors ▸ rfl⟩

variable {reading : Reading} {i : ℕ}

/-- Versions are not lost. -/
theorem Read.mono {s s' : Process B} (h : Read decrypt s tenantId reading) (he : Evolves s s') :
    Read decrypt s' tenantId reading :=
  ⟨h.committed.trans (he.changes tenantId),
    by rw [he.connectors tenantId _ h.committed]; exact h.partitions⟩

/-- A fresh list stays fresh as long as no invalidation of its tenant is added. -/
theorem Fresh.mono {s s' : Process B} (h : Fresh decrypt s tenantId reading) (he : Evolves s s')
    (hinvalidated : ∀ change, (tenantId, change) ∈ s'.invalidated →
      (tenantId, change) ∈ s.invalidated) : Fresh decrypt s' tenantId reading :=
  ⟨h.toRead.mono he, fun change hmem => h.notStale change (hinvalidated change hmem)⟩

theorem Granted.mono {s s' : Process B} {grant : String × Text} (h : Granted decrypt s grant)
    (he : Evolves s s') : Granted decrypt s' grant :=
  h.imp fun _ hreading => hreading.imp_left fun hread => hread.mono he

/-- A statement that leaves invalidations alone keeps the invariant when each entry and each
grant it leaves is an old one or a good one. -/
theorem Invariant.of_entries {s s' : Process B} (hinv : Invariant decrypt s)
    (hinvalidated : s'.invalidated = s.invalidated) (he : Evolves s s')
    (hsize : s'.cache.entries.size ≤ agentPartitionCacheMaxEntries)
    (hentries : ∀ tenantId entry, s'.cache.entries.get tenantId = some entry →
      s.cache.entries.get tenantId = some entry ∨ Fresh decrypt s tenantId entry.partitions ∧
        entry.expiresAt = entry.partitions.startedAt + agentPartitionCacheTtlMs)
    (hgrants : ∀ grant ∈ s'.grants, grant ∈ s.grants ∨ Granted decrypt s grant) :
    Invariant decrypt s' where
  size := hsize
  invalidated tenantId change hmem :=
    (hinv.invalidated tenantId change (hinvalidated ▸ hmem)).trans (he.changes tenantId)
  fresh tenantId entry hentry := by
    have hold := (hentries tenantId entry hentry).elim (hinv.fresh tenantId entry) id
    exact hold.imp_left fun hfresh => hfresh.mono he fun _ hmem => hinvalidated ▸ hmem
  granted grant hgrant := ((hgrants grant hgrant).elim (hinv.granted grant) id).mono he

/-- The rule for a statement. -/
theorem ok_statement {α : Type} {fallible : Bool} {f : Process B → Process B} {failed : α}
    {k : Process B → Program B α} {post : α → Process B → Prop} {P : Process B → Prop}
    (hfailed : fallible = true → ∀ s, Invariant decrypt s → P s → post failed s)
    (h : ∀ s, Invariant decrypt s → P s → Invariant decrypt (f s) ∧ Evolves s (f s) ∧
      ∃ P', P' (f s) ∧ (contract decrypt).Stable i P' ∧
        (contract decrypt).Ok Always i post (k s) P') :
    (contract decrypt).Ok Always i post (Proc.statement () fallible f failed k) P := by
  refine Contract.Ok.statement hfailed fun s hinv hP _ => ?_
  obtain ⟨hinv', hevolves, hrest⟩ := h s hinv hP
  exact ⟨hinv', fun _ _ => hevolves, hrest⟩

/-- The rule for the last statement of a program. -/
theorem ok_last {f : Process B → Process B} {P : Process B → Prop}
    (h : ∀ s, Invariant decrypt s → P s → Invariant decrypt (f s) ∧ Evolves s (f s)) :
    (contract decrypt).Ok Always i (fun _ _ => True) (step f fun _ => .ret ()) P :=
  ok_statement (fun hfail => absurd hfail Bool.false_ne_true) fun s hinv hP =>
    ⟨(h s hinv hP).1, (h s hinv hP).2, fun _ => True, trivial, .const _, fun _ _ _ => trivial⟩

/-! ### The programs follow it -/

/-- What a lookup knows once it has its list: it was read from a version, and unless an
invalidation has come in between, it is fresh. -/
def Pending (decrypt : B → ℕ → Except Failure Json.Value) (tenantId : String)
    (lookup : AgentLogPartitionLookup) (reading : Reading) (s : Process B) : Prop :=
  Read decrypt s tenantId reading ∧ lookup.generation ≤ s.cache.generation ∧
    (lookup.generation = s.cache.generation → Fresh decrypt s tenantId reading)

theorem stable_read : (contract decrypt).Stable i fun s => Read decrypt s tenantId reading :=
  fun _ _ _ _ hread he => hread.mono he

/-- Other processes keep a pending read. -/
theorem stable_pending {lookup : AgentLogPartitionLookup} :
    (contract decrypt).Stable i (Pending decrypt tenantId lookup reading) := by
  rintro s s' - - ⟨hread, hle, hfresh⟩ (he : Evolves s s')
  refine ⟨hread.mono he, hle.trans he.generation, fun hsame => ?_⟩
  -- the generation lies between the lookup's and the same value now
  have hgeneration : s'.cache.generation = s.cache.generation :=
    le_antisymm (hsame ▸ hle) he.generation
  refine (hfresh (hsame.trans hgeneration)).mono he fun change hmem => ?_
  rwa [he.invalidated hgeneration] at hmem

/-- What a lookup yields: a list of a version of the tenant's connectors, or an error. -/
def Yields (decrypt : B → ℕ → Except Failure Json.Value) (tenantId : String) :
    Except Failure Reading → Process B → Prop
  | .ok reading, s => Read decrypt s tenantId reading
  | .error _, _ => True

/-- The cache takes a list only from a lookup of its own generation, and such a list is
fresh. -/
theorem storeReading_ok {lookup : AgentLogPartitionLookup}
    (hstarted : reading.startedAt = lookup.startedAt) :
    (contract decrypt).Ok Always i (Yields decrypt tenantId)
      (storeReading tenantId lookup reading) (Pending decrypt tenantId lookup reading) := by
  refine ok_statement (fun hfail => absurd hfail Bool.false_ne_true) fun s hinv hpending => ?_
  cases hset : s.cache.set s.now tenantId reading lookup with
  | error e =>
    exact ⟨hinv, .of_eq rfl rfl rfl rfl, fun _ => True, trivial, .const _, fun _ _ _ => trivial⟩
  | ok cache =>
    obtain ⟨hgeneration, hsize, hentries⟩ := AgentLogPartitionCache.of_set hset
    have he : Evolves s { s with cache } := .of_eq hgeneration rfl rfl rfl
    refine ⟨?_, he, _, hpending.1.mono he, stable_read, fun _ _ hread => hread⟩
    refine hinv.of_entries rfl he (hsize hinv.size) (fun t entry hentry => ?_) fun _ h => Or.inl h
    obtain hold | ⟨rfl, hsame, rfl⟩ := hentries t entry hentry
    · exact Or.inl hold
    · exact Or.inr ⟨hpending.2.2 hsame, by rw [hstarted]⟩

/-- A lookup. -/
theorem resolveAgentPartitions_ok (tenantId : String) :
    (contract decrypt).Ok Always i (Yields decrypt tenantId)
      (resolveAgentPartitions decrypt tenantId) fun _ => True := by
  refine ok_statement (fun _ _ _ _ => trivial) fun s hinv _ => ?_
  obtain ⟨hentries, hsize, hgeneration⟩ := s.cache.entries_get s.now tenantId
  have he : Evolves s { s with cache := (s.cache.get s.now tenantId).2 } :=
    .of_eq hgeneration rfl rfl rfl
  refine ⟨hinv.of_entries rfl he (hsize.trans hinv.size)
    (fun t entry h => Or.inl (hentries t entry h))
    fun _ h => Or.inl h, he, ?_⟩
  cases hget : (s.cache.get s.now tenantId).1 with
  | some cached =>
    obtain ⟨entry, hentry, rfl, -⟩ := AgentLogPartitionCache.of_get hget
    have hread := (hinv.fresh tenantId entry hentry).1.toRead.mono he
    exact ⟨_, hread, stable_read, fun _ _ hread => hread⟩
  | none =>
    refine ⟨fun _ => True, trivial, .const _, ?_⟩
    refine ok_statement (fun _ _ _ _ => trivial) fun s hinv _ => ⟨hinv, .of_eq rfl rfl rfl rfl, ?_⟩
    -- from here on the lookup's generation is not ahead of the cache's
    refine ⟨fun s' => s.cache.generation ≤ s'.cache.generation, le_rfl,
      fun s₁ s₂ _ _ hle he => hle.trans he.generation, ?_⟩
    refine ok_statement (fun _ _ _ _ => trivial) fun s₁ hinv hle =>
      ⟨hinv, .of_eq rfl rfl rfl rfl, ?_⟩
    cases hpartitions : agentPartitions decrypt (s₁.connectors tenantId (s₁.changes tenantId)) with
    | error e => exact ⟨fun _ => True, trivial, .const _, fun _ _ _ => trivial⟩
    | ok partitions =>
      refine ⟨_, ⟨⟨le_rfl, hpartitions⟩, hle, fun _ => ?_⟩, stable_pending, storeReading_ok rfl⟩
      exact ⟨⟨le_rfl, hpartitions⟩, hinv.invalidated tenantId⟩

/-- A request: the scope it is granted comes from a version of the tenant's connectors. -/
theorem check_ok (verified : Except AccessError Payload) (withinBudget : Bool) :
    (contract decrypt).Ok Always i (fun _ _ => True) (check decrypt verified withinBudget)
      fun _ => True := by
  let post : Except AccessError (String × Text) → Process B → Prop := fun r s =>
    ∀ grant, r = .ok grant → Granted decrypt s grant
  have hscope : (contract decrypt).Ok Always i post
      (resolveScope decrypt verified withinBudget) fun _ => True := by
    unfold resolveScope
    cases authorize verified with
    | error e => exact fun _ _ _ _ h => absurd h (by simp)
    | ok tenantId =>
      cases withinBudget with
      | false => exact fun _ _ _ _ h => absurd h (by simp)
      | true =>
        refine (resolveAgentPartitions_ok tenantId).bind fun r => ?_
        cases r with
        | error e => exact fun _ _ _ _ h => absurd h (by simp)
        | ok reading =>
          intro s _ hread grant hgrant
          cases hscope : scopeOf tenantId reading.partitions with
          | error e => simp [hscope, Except.map] at hgrant
          | ok scope =>
            obtain rfl : (tenantId, scope) = grant := by simpa [hscope, Except.map] using hgrant
            exact ⟨reading, hread, hscope⟩
  refine hscope.bind fun r => ?_
  cases r with
  | error e => exact fun _ _ _ => trivial
  | ok grant =>
    refine ok_last fun s hinv hgranted => ?_
    have he : Evolves s { s with grants := grant :: s.grants } := .of_eq rfl rfl rfl rfl
    refine ⟨hinv.of_entries rfl he hinv.size (fun _ _ h => Or.inl h) fun g hg => ?_, he⟩
    obtain rfl | hold := List.mem_cons.mp hg
    · exact Or.inr (hgranted g rfl)
    · exact Or.inl hold

/-- What the commit of a change does to the versions. -/
theorem evolves_commitChange (tenantId : String)
    (write : List (Connector B) → List (Connector B)) (s : Process B) :
    Evolves s (commitChange tenantId write s) ∧
      (commitChange tenantId write s).changes tenantId = s.changes tenantId + 1 := by
  refine ⟨⟨le_rfl, fun _ => rfl, fun t => ?_, fun t version hversion => ?_⟩, by simp [commitChange]⟩
  · by_cases ht : t = tenantId
    · subst ht
      simp [commitChange]
    · simp [commitChange, ht]
  · by_cases ht : t = tenantId
    · subst ht
      have hne : version ≠ s.changes t + 1 := by omega
      simp [commitChange, hne]
    · simp [commitChange, ht]

/-- A change with its invalidation. -/
theorem changeConnectors_ok (tenantId : String) (write : List (Connector B) → List (Connector B)) :
    (contract decrypt).Ok Always i (fun _ _ => True) (changeConnectors tenantId write)
      fun _ => True := by
  refine ok_statement (fun _ _ _ _ => trivial) fun s hinv _ => ?_
  obtain ⟨he, hchanges⟩ := evolves_commitChange tenantId write s
  refine ⟨hinv.of_entries rfl he hinv.size (fun _ _ h => Or.inl h) fun _ h => Or.inl h, he,
    fun s' => s.changes tenantId + 1 ≤ s'.changes tenantId, hchanges.ge,
    fun s₁ s₂ _ _ hle he => hle.trans (he.changes tenantId), ?_⟩
  refine ok_last fun s₁ hinv hle => ?_
  have he : Evolves s₁ { s₁ with
      cache := s₁.cache.invalidate tenantId
      invalidated := (tenantId, s.changes tenantId + 1) :: s₁.invalidated } :=
    ⟨Nat.le_succ _, fun hsame => absurd hsame (Nat.succ_ne_self _), fun _ => le_rfl,
      fun _ _ _ => rfl⟩
  refine ⟨⟨(OrderedMap.size_remove_le _ _).trans hinv.size, fun t change hmem => ?_,
    fun t entry hentry => ?_, fun grant hgrant => (hinv.granted grant hgrant).mono he⟩, he⟩
  · obtain hnew | hold := List.mem_cons.mp hmem
    · obtain ⟨rfl, rfl⟩ := Prod.mk.inj hnew
      exact hle
    · exact hinv.invalidated t change hold
  · -- the entries that are left belong to other tenants
    obtain ⟨hne, hbefore⟩ := AgentLogPartitionCache.of_get_invalidate hentry
    refine (hinv.fresh t entry hbefore).imp_left fun hfresh => hfresh.mono he fun change hmem => ?_
    obtain hnew | hold := List.mem_cons.mp hmem
    · exact absurd (Prod.mk.inj hnew).1 hne
    · exact hold

/-- Every program of the process follows the contract. -/
theorem process_follows : (contract decrypt).Follows (process decrypt) Always where
  start _ := .const True
  prog r i := by
    cases r with
    | check verified withinBudget => exact check_ok verified withinBudget
    | change tenantId write => exact changeConnectors_ok tenantId write
    | tick ms =>
      refine ok_last fun s hinv _ => ?_
      have he : Evolves s { s with now := s.now + ms } := .of_eq rfl rfl rfl rfl
      exact ⟨hinv.of_entries rfl he hinv.size (fun _ _ h => Or.inl h) fun _ h => Or.inl h, he⟩
  crash g hg := by simp [process] at hg

/-- A process that has just started has nothing to keep. -/
theorem invariant_start (now : ℕ) (connectors : List (Connector B)) :
    Invariant decrypt (Process.start now connectors) where
  size := Nat.zero_le _
  invalidated _ _ hmem := absurd hmem List.not_mem_nil
  fresh t entry hentry := by simp [Process.start, AgentLogPartitionCache.empty] at hentry
  granted _ hmem := absurd hmem List.not_mem_nil

/-- The invariant holds in every state that is reached. -/
theorem invariant_of_reach {now : ℕ} {connectors : List (Connector B)}
    {c : Config (Process B) Unit}
    (hc : Reach (process decrypt) Always (Process.start now connectors) c) :
    Invariant decrypt c.state :=
  (Contract.sound process_follows (invariant_start now connectors) (fun _ => trivial) hc).inv

/-- **What the cache may return.**  A list that `get` returns was read after every change of the
tenant's connectors whose invalidation has run, is the list of the connectors at its reading, and
comes from a lookup begun less than the time to live ago; and the cache stays within its maximum
size. -/
theorem cached_partitions_fresh (decrypt : B → ℕ → Except Failure Json.Value) (now : ℕ)
    (connectors : List (Connector B)) (c : Config (Process B) Unit)
    (hc : Reach (process decrypt) Always (Process.start now connectors) c) :
    (∀ tenantId reading, (c.state.cache.get c.state.now tenantId).1 = some reading →
      Fresh decrypt c.state tenantId reading ∧
        c.state.now < reading.startedAt + agentPartitionCacheTtlMs) ∧
      c.state.cache.entries.size ≤ agentPartitionCacheMaxEntries := by
  have hinv := invariant_of_reach hc
  refine ⟨fun tenantId reading hget => ?_, hinv.size⟩
  obtain ⟨entry, hentry, rfl, hnow⟩ := AgentLogPartitionCache.of_get hget
  obtain ⟨hfresh, hexpires⟩ := hinv.fresh tenantId entry hentry
  exact ⟨hfresh, hexpires ▸ hnow⟩

/-! ### Isolation -/

/-- No two active connectors share connector type and agent log id. -/
def NoSharedAgent (decrypt : B → ℕ → Except Failure Json.Value) (connectors : List (Connector B)) :
    Prop :=
  ∀ c ∈ connectors, ∀ c' ∈ connectors, c.active → c'.active → c.connectorType = c'.connectorType →
    ∀ id, agentLogId decrypt c = some id → agentLogId decrypt c' = some id → c = c'

/-- A scope that is represented in full: it has the tenant's own key and the key of each of its
active agents and no other, at most ten in all, and no connector was left out because it could not
be read. -/
structure ExactScope (decrypt : B → ℕ → Except Failure Json.Value)
    (connectors : List (Connector B)) (grant : String × Text) : Prop where
  keys : ∀ key, key ∈ List.splitOn '|' grant.2 ↔ key = tenantPartitionKey grant.1 ∨
    ∃ c ∈ connectors, c.tenantId = grant.1 ∧ agentKey decrypt c = some key
  bounded : (List.splitOn '|' grant.2).length ≤ maxPartitionsPerScope
  readable : ∀ c ∈ connectors, c.tenantId = grant.1 → ∃ key, agentPartition decrypt c = .ok key

/-- The key of a connector is made of its type and its agent's identifier. -/
theorem agentKey_eq_some {c : Connector B} {key : Text} (h : agentKey decrypt c = some key) :
    c.active ∧ ∃ id, agentLogId decrypt c = some id ∧
      agentPartitionKey c.connectorType id = key := by
  unfold agentKey at h
  split_ifs at h with hactive
  exact ⟨hactive, Option.map_eq_some_iff.mp h⟩

/-- A scope that the gateway computes for a tenant's connectors is represented in full. -/
theorem exactScope_of_scopeOf {connectors : List (Connector B)}
    (hpartitions : agentPartitions decrypt (connectors.filter fun c => c.tenantId = tenantId) =
      .ok partitions) (hscope : scopeOf tenantId partitions = .ok scope) :
    ExactScope decrypt connectors (tenantId, scope) := by
  have hsplit := splitOn_scopeOf hscope
  have hmem : ∀ key, key ∈ partitions ↔
      ∃ c ∈ connectors, c.tenantId = tenantId ∧ agentKey decrypt c = some key := fun key => by
    simp [mem_agentPartitions hpartitions, and_assoc]
  refine ⟨fun key => ?_, length_of_scopeOf hscope, fun c hc htenant => ?_⟩
  · rw [hsplit, List.mem_cons, List.mem_eraseDups, hmem]
  · exact agentPartition_of_agentPartitions hpartitions (by simp [hc, htenant])

/-- Two scopes that are represented in full have no partition in common. -/
theorem ExactScope.disjoint {connectors : List (Connector B)} {grant grant' : String × Text}
    (hshared : NoSharedAgent decrypt connectors) (h : ExactScope decrypt connectors grant)
    (h' : ExactScope decrypt connectors grant') (hne : grant.1 ≠ grant'.1) :
    (List.splitOn '|' grant.2).Disjoint (List.splitOn '|' grant'.2) := by
  intro key hkey hkey'
  obtain hown | ⟨c, hc, htenant, hagent⟩ := (h.keys key).mp hkey <;>
    obtain hown' | ⟨c', hc', htenant', hagent'⟩ := (h'.keys key).mp hkey'
  · exact hne (tenantPartitionKey_inj (hown.symm.trans hown'))
  · obtain ⟨-, id, -, hid⟩ := agentKey_eq_some hagent'
    exact tenantPartitionKey_ne_agentPartitionKey (hown.symm.trans hid.symm)
  · obtain ⟨-, id, -, hid⟩ := agentKey_eq_some hagent
    exact tenantPartitionKey_ne_agentPartitionKey (hown'.symm.trans hid.symm)
  · -- one key for two agents: then it is one connector, of one tenant
    obtain ⟨hactive, id, hlog, hid⟩ := agentKey_eq_some hagent
    obtain ⟨hactive', id', hlog', hid'⟩ := agentKey_eq_some hagent'
    obtain ⟨htype, rfl⟩ := agentPartitionKey_inj (hid.trans hid'.symm)
    obtain rfl := hshared c hc c' hc' hactive hactive' htype id hlog hlog'
    exact hne (htenant.symm.trans htenant')

/-- Evolutions compose. -/
theorem Evolves.trans {s s' s'' : Process B} (h : Evolves s s') (h' : Evolves s' s'') :
    Evolves s s'' where
  generation := h.generation.trans h'.generation
  invalidated hsame := by
    have hmiddle : s'.cache.generation = s.cache.generation :=
      le_antisymm (hsame ▸ h'.generation) h.generation
    rw [h'.invalidated (hsame.trans hmiddle.symm), h.invalidated hmiddle]
  changes t := (h.changes t).trans (h'.changes t)
  connectors t version hversion := by
    rw [h'.connectors t version (hversion.trans (h.changes t)), h.connectors t version hversion]

/-- A run only adds versions. -/
theorem evolves_of_reach {now : ℕ} {connectors : List (Connector B)} {c : Config (Process B) Unit}
    (hc : Reach (process decrypt) Always (Process.start now connectors) c) :
    Evolves (Process.start now connectors) c.state := by
  induction hc with
  | init => exact .of_eq rfl rfl rfl rfl
  | step m hreach hm ha ih =>
    have hstep := Contract.sound_step process_follows (invariant_start now connectors)
      (fun _ => trivial) hreach hm ha
    obtain hsame | hevolves := hstep
    · rw [hsame]
      exact ih
    · exact ih.trans hevolves

/-- **Isolation of the granted scopes.**  While no connector changes and no two active ones share
type and agent log id, every granted scope is represented in full, and those of two tenants are
disjoint. -/
theorem scopes_exact_and_disjoint (decrypt : B → ℕ → Except Failure Json.Value) (now : ℕ)
    (connectors : List (Connector B)) (hshared : NoSharedAgent decrypt connectors)
    (c : Config (Process B) Unit)
    (hc : Reach (process decrypt) Always (Process.start now connectors) c)
    (hfixed : ∀ tenantId, c.state.changes tenantId = 0) :
    (∀ grant ∈ c.state.grants, ExactScope decrypt connectors grant) ∧
      ∀ grant ∈ c.state.grants, ∀ grant' ∈ c.state.grants, grant.1 ≠ grant'.1 →
        (List.splitOn '|' grant.2).Disjoint (List.splitOn '|' grant'.2) := by
  have hexact : ∀ grant ∈ c.state.grants, ExactScope decrypt connectors grant := by
    intro grant hgrant
    obtain ⟨reading, hread, hscope⟩ := (invariant_of_reach hc).granted grant hgrant
    -- the list was read from the only version there is
    have hversion : reading.readAt = 0 := Nat.le_zero.mp (hfixed grant.1 ▸ hread.committed)
    have hpartitions := hread.partitions
    rw [hversion, (evolves_of_reach hc).connectors grant.1 0 (Nat.zero_le _)] at hpartitions
    exact exactScope_of_scopeOf hpartitions hscope
  exact ⟨hexact, fun grant hgrant grant' hgrant' hne =>
    (hexact grant hgrant).disjoint hshared (hexact grant' hgrant') hne⟩

end Programs

/-! ## Two tenants -/

/-- Credentials that are stored in clear. -/
def plainDecrypt (credentials : Json.Value) (_ : ℕ) : Except Failure Json.Value := .ok credentials

/-- An active Traction connector of a tenant whose agent logs under `id`. -/
def agentConnector (tenantId id : String) : Connector Json.Value where
  id := "connector " ++ id
  tenantId := tenantId
  connectorType := .traction
  credentialsEncrypted := .object [("agentLogId".toList, .string id.toList)]
  endpointUrl := "https://agent.example.com"
  active := true
  keyVersion := 1
  agentLogIdHash := none

def readerToken (tenantId : String) : Except AccessError Payload :=
  .ok ⟨some (.string "user".toList), some (.number "2".toList), some (.number "1".toList),
    some (.string tenantId.toList), some (.string "logs:read".toList)⟩

def firstTenant : String := "00000000-0000-4000-8000-000000000001"

def secondTenant : String := "00000000-0000-4000-8000-000000000002"

def twoAgents : List (Connector Json.Value) :=
  [agentConnector firstTenant "w1", agentConnector secondTenant "w2"]

/-- A lookup of the first tenant has read the connectors when they change; a second one
begins a millisecond after that. -/
def overtakenLookup : List (Move (Request Json.Value)) :=
  .spawn (.check (readerToken firstTenant) true) :: List.replicate 3 (.run 0) ++
    .spawn (.change firstTenant fun _ => [agentConnector firstTenant "w3"]) ::
      [.run 1, .run 1, .run 0, .spawn (.tick 1), .run 2] ++
    .spawn (.check (readerToken firstTenant) true) :: List.replicate 4 (.run 3)

/-- The cache has refused the first list and returns the second one. -/
theorem cached_partitions_fresh_overtaken :
    ∃ c reading, (process plainDecrypt).exec ⟨Process.start 5 twoAgents, []⟩ overtakenLookup =
      some c ∧
      (c.state.cache.get c.state.now firstTenant).1 = some reading ∧
      reading = ⟨["a-traction-w3".toList], 1, 6⟩ ∧ (firstTenant, 1) ∈ c.state.invalidated ∧
      Fresh plainDecrypt c.state firstTenant reading := by
  have hresult : ((process plainDecrypt).exec ⟨Process.start 5 twoAgents, []⟩ overtakenLookup).map
      (fun c => ((c.state.cache.get c.state.now firstTenant).1, c.state.invalidated)) =
      some (some ⟨["a-traction-w3".toList], 1, 6⟩, [(firstTenant, 1)]) := by
    decide +kernel
  obtain ⟨c, hexec, hc⟩ := Option.map_eq_some_iff.mp hresult
  obtain ⟨hget, hinvalidated⟩ := Prod.mk.inj hc
  refine ⟨c, _, hexec, hget, rfl, by rw [hinvalidated]; exact List.mem_singleton_self _, ?_⟩
  exact ((cached_partitions_fresh plainDecrypt 5 _ c (reach_exec hexec)).1
    _ _ hget).1

def twoReaders : List (Move (Request Json.Value)) :=
  [.spawn (.check (readerToken firstTenant) true),
    .spawn (.check (readerToken secondTenant) true)] ++
    (List.replicate 5 [.run 0, .run 1]).flatten

def firstScope : Text := "t-00000000-0000-4000-8000-000000000001|a-traction-w1".toList

def secondScope : Text := "t-00000000-0000-4000-8000-000000000002|a-traction-w2".toList

theorem noSharedAgent_twoAgents : NoSharedAgent plainDecrypt twoAgents := by
  intro c hc c' hc' _ _ _ id hid hid'
  have hsame : agentLogId plainDecrypt c = agentLogId plainDecrypt c' := hid.trans hid'.symm
  have hfirst : agentLogId plainDecrypt (agentConnector firstTenant "w1") = some "w1".toList := by
    decide +kernel
  have hsecond : agentLogId plainDecrypt (agentConnector secondTenant "w2") = some "w2".toList := by
    decide +kernel
  simp only [twoAgents, List.mem_cons, List.not_mem_nil, or_false] at hc hc'
  obtain rfl | rfl := hc <;> obtain rfl | rfl := hc' <;>
    first | rfl | exact absurd hsame (by rw [hfirst, hsecond]; decide)

/-- Each is granted its own partitions. -/
theorem scopes_exact_and_disjoint_two :
    ∃ c, (process plainDecrypt).exec ⟨Process.start 5 twoAgents, []⟩ twoReaders = some c ∧
      c.state.grants = [(secondTenant, secondScope), (firstTenant, firstScope)] ∧
      (List.splitOn '|' secondScope).Disjoint (List.splitOn '|' firstScope) := by
  have hresult : ((process plainDecrypt).exec ⟨Process.start 5 twoAgents, []⟩ twoReaders).map
      (fun c => c.state.grants) =
        some [(secondTenant, secondScope), (firstTenant, firstScope)] := by
    decide +kernel
  obtain ⟨c, hexec, hgrants⟩ := Option.map_eq_some_iff.mp hresult
  have hchanges : ((process plainDecrypt).exec ⟨Process.start 5 twoAgents, []⟩ twoReaders).map
      (fun c => c.state.changes) = some fun _ => 0 := rfl
  rw [hexec] at hchanges
  refine ⟨c, hexec, hgrants, ?_⟩
  have htheorem := scopes_exact_and_disjoint plainDecrypt 5 twoAgents noSharedAgent_twoAgents c
    (reach_exec hexec) (fun t => congrFun (Option.some.inj hchanges) t)
  exact htheorem.2 (secondTenant, secondScope) (by rw [hgrants]; simp) (firstTenant, firstScope)
    (by rw [hgrants]; simp) (by decide)

end DigitalTrust.LogAccess
