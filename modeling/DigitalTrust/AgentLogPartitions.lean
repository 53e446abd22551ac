/-
# Agent log partitions and their cache

`agent-log-partition-key.ts`, the loop of `connector-agent-log-partition.resolver.ts` and
`agent-log-partition.cache.ts`: which partitions of the log store belong to the agents of a
tenant, and the cache of that list.
-/
import DigitalTrust.Connectors
import DigitalTrust.Json
import DigitalTrust.OrderedMap

namespace DigitalTrust.LogAccess

open Connectors Relational
open Json (Text)

/-! ## Partition keys -/

/-- A character of the class `[a-z0-9-]`. -/
def isKeyChar (c : Char) : Bool := 'a' ≤ c && c ≤ 'z' || '0' ≤ c && c ≤ '9' || c = '-'

/-- `isValidAgentLogId`: the pattern `^[a-z0-9-]{1,100}$`. -/
def isValidAgentLogId (agentLogId : Text) : Bool :=
  1 ≤ agentLogId.length && agentLogId.length ≤ 100 && agentLogId.all isKeyChar

def connectorTypeValues : List String := [ConnectorType.traction, .credo].map ConnectorType.value

def formatAgentLogBindingKey (connectorType : ConnectorType) (agentLogId : Text) :
    Except Failure Text :=
  if !connectorTypeValues.contains connectorType.value then
    .error (.other "Connector type is not recognised.")
  else if !isValidAgentLogId agentLogId then
    .error (.other "Agent log identifier is not Loki-safe.")
  else .ok (connectorType.value.toList ++ ':' :: agentLogId)

def agentPartitionKeyPrefix : Text := ['a', '-']

def agentPartitionKey (connectorType : ConnectorType) (agentLogId : Text) : Text :=
  agentPartitionKeyPrefix ++ connectorType.value.toList ++ '-' :: agentLogId

def buildAgentPartitionKey (connectorType : ConnectorType) (agentLogId : Text) :
    Except Failure Text := do
  let _ ← formatAgentLogBindingKey connectorType agentLogId
  pure (agentPartitionKey connectorType agentLogId)

/-- The key of an agent determines the agent: no connector type begins like another one. -/
theorem agentPartitionKey_inj {t t' : ConnectorType} {id id' : Text}
    (h : agentPartitionKey t id = agentPartitionKey t' id') : t = t' ∧ id = id' := by
  by_cases ht : t = t'
  · subst ht
    exact ⟨rfl, by simpa [agentPartitionKey] using h⟩
  · cases t <;> cases t' <;> simp [agentPartitionKey, ConnectorType.value] at h ht

/-- A key is built for identifiers of the pattern only. -/
theorem buildAgentPartitionKey_eq_ok {t : ConnectorType} {id key : Text} :
    buildAgentPartitionKey t id = .ok key ↔
      isValidAgentLogId id = true ∧ agentPartitionKey t id = key := by
  have htype : connectorTypeValues.contains t.value = true := by cases t <;> decide
  simp only [buildAgentPartitionKey, formatAgentLogBindingKey, htype, bind_eq_ok, pure_eq_ok]
  by_cases hid : isValidAgentLogId id = true <;> simp [hid]

/-! ## The partitions of a tenant's agents -/

section Resolver

variable {B : Type} (decrypt : B → ℕ → Except Failure Json.Value)

/-- What the loop of `resolveAgentPartitions` does with one connector: the key that it
pushes, if any. -/
def agentPartition (credential : Connector B) : Except Failure (Option Text) :=
  if !credential.active then .ok none
  else do
    let decrypted ← decrypt credential.credentialsEncrypted credential.keyVersion
    match decrypted with
    | .object members =>
      match (Json.Value.object members).member "agentLogId".toList with
      | none => .ok none
      | some (.string agentLogId) =>
        some <$> buildAgentPartitionKey credential.connectorType agentLogId
      | some _ =>
        .error (.other s!"Connector {credential.id} has a malformed agent log identifier.")
    | _ =>
      .error (.other s!"Connector {credential.id} has an unexpected decrypted credentials shape.")

/-- The loop of `resolveAgentPartitions` over the tenant's connectors. -/
def agentPartitions : List (Connector B) → Except Failure (List Text)
  | [] => .ok []
  | credential :: credentials => do
    let partition ← agentPartition decrypt credential
    let partitions ← agentPartitions credentials
    pure (partition.toList ++ partitions)

/-- The identifier under which the agent of a connector logs, if its credentials have one. -/
def agentLogId (credential : Connector B) : Option Text :=
  match decrypt credential.credentialsEncrypted credential.keyVersion with
  | .ok decrypted => match decrypted.member "agentLogId".toList with
    | some (.string agentLogId) => some agentLogId
    | _ => none
  | .error _ => none

/-- The key of an active connector whose agent has an identifier. -/
def agentKey (credential : Connector B) : Option Text :=
  if credential.active then
    (agentLogId decrypt credential).map (agentPartitionKey credential.connectorType)
  else none

variable {decrypt}

/-- The loop pushes the key of the connector's agent, or fails. -/
theorem agentPartition_eq_ok {credential : Connector B} {key : Option Text}
    (h : agentPartition decrypt credential = .ok key) : key = agentKey decrypt credential := by
  unfold agentPartition at h
  unfold agentKey
  cases hactive : credential.active with
  | false =>
    simp only [hactive, Bool.not_false, if_true, Except.ok.injEq] at h
    simp [← h]
  | true =>
    simp only [hactive, Bool.not_true, Bool.false_eq_true, if_false, bind_eq_ok] at h
    obtain ⟨decrypted, hdecrypted, h⟩ := h
    simp only [if_true, agentLogId, hdecrypted]
    split at h
    · next members =>
      split at h
      · next hmember =>
        rw [hmember, ← Except.ok.inj h]
        rfl
      · next id hmember =>
        cases hbuild : buildAgentPartitionKey credential.connectorType id with
        | error e => simp [hbuild] at h
        | ok k =>
          obtain rfl : some k = key := by simpa [hbuild] using h
          rw [hmember, Option.map_some, (buildAgentPartitionKey_eq_ok.mp hbuild).2]
      · simp at h
    · simp at h

/-- The loop yields the keys of the agents of all active connectors, or fails. -/
theorem mem_agentPartitions {credentials : List (Connector B)} {partitions : List Text}
    (h : agentPartitions decrypt credentials = .ok partitions) (key : Text) :
    key ∈ partitions ↔ ∃ c ∈ credentials, agentKey decrypt c = some key := by
  induction credentials generalizing partitions with
  | nil => simp [← Except.ok.inj h]
  | cons credential credentials ih =>
    simp only [agentPartitions, bind_eq_ok, pure_eq_ok] at h
    obtain ⟨partition, hpartition, rest, hrest, rfl⟩ := h
    rw [List.mem_append, ih hrest, agentPartition_eq_ok hpartition]
    simp

/-- When the loop succeeds, it could read every connector. -/
theorem agentPartition_of_agentPartitions {credentials : List (Connector B)}
    {partitions : List Text}
    (h : agentPartitions decrypt credentials = .ok partitions) {c : Connector B}
    (hc : c ∈ credentials) : ∃ key, agentPartition decrypt c = .ok key := by
  induction credentials generalizing partitions with
  | nil => exact absurd hc List.not_mem_nil
  | cons credential credentials ih =>
    simp only [agentPartitions, bind_eq_ok, pure_eq_ok] at h
    obtain ⟨partition, hpartition, rest, hrest, -⟩ := h
    obtain rfl | hmem := List.mem_cons.mp hc
    · exact ⟨partition, hpartition⟩
    · exact ih hrest hmem

end Resolver

/-! ## The cache -/

def agentPartitionCacheTtlMs : ℕ := 300000

def agentPartitionCacheMaxEntries : ℕ := 1000

/-- `CacheEntry`; `P` is the type of a list of partitions. -/
structure CacheEntry (P : Type) where
  partitions : P
  expiresAt : ℕ

structure AgentLogPartitionLookup where
  generation : ℕ
  startedAt : ℕ

structure AgentLogPartitionCache (P : Type) where
  entries : OrderedMap String (CacheEntry P)
  generation : ℕ

namespace AgentLogPartitionCache

variable {P : Type}

def empty : AgentLogPartitionCache P := ⟨OrderedMap.empty, 0⟩

def beginLookup (cache : AgentLogPartitionCache P) (now : ℕ) : AgentLogPartitionLookup :=
  ⟨cache.generation, now⟩

/-- `get`: the list, and the cache without an entry that has expired. -/
def get (cache : AgentLogPartitionCache P) (now : ℕ) (tenantId : String) :
    Option P × AgentLogPartitionCache P :=
  match cache.entries.get tenantId with
  | none => (none, cache)
  | some entry =>
    if entry.expiresAt ≤ now then (none, { cache with entries := cache.entries.remove tenantId })
    else (some entry.partitions, cache)

def set (cache : AgentLogPartitionCache P) (now : ℕ) (tenantId : String) (partitions : P)
    (lookup : AgentLogPartitionLookup) : Except Failure (AgentLogPartitionCache P) :=
  let expiresAt := lookup.startedAt + agentPartitionCacheTtlMs
  if expiresAt ≤ now then
    .error (.other "Agent partition lookup exceeded the maximum staleness window.")
  else if lookup.generation ≠ cache.generation then .ok cache
  else
    let entries := (cache.entries.remove tenantId).makeRoom agentPartitionCacheMaxEntries
    .ok { cache with entries := entries.set tenantId ⟨partitions, expiresAt⟩ }

def invalidate (cache : AgentLogPartitionCache P) (tenantId : String) : AgentLogPartitionCache P :=
  ⟨cache.entries.remove tenantId, cache.generation + 1⟩

/-! ### What each operation does to the entries -/

/-- What `get` returns is the entry of the tenant, and it has not expired. -/
theorem of_get {cache : AgentLogPartitionCache P} {now : ℕ} {tenantId : String} {partitions : P}
    (h : (cache.get now tenantId).1 = some partitions) :
    ∃ entry, cache.entries.get tenantId = some entry ∧ entry.partitions = partitions ∧
      now < entry.expiresAt := by
  unfold get at h
  split at h
  · simp at h
  · next entry hentry =>
    split_ifs at h with hexpired
    · exact ⟨entry, hentry, Option.some.inj h, by omega⟩

/-- `get` adds no entry. -/
theorem entries_get (cache : AgentLogPartitionCache P) (now : ℕ) (tenantId : String) :
    (∀ t entry, (cache.get now tenantId).2.entries.get t = some entry →
      cache.entries.get t = some entry) ∧
      (cache.get now tenantId).2.entries.size ≤ cache.entries.size ∧
      (cache.get now tenantId).2.generation = cache.generation := by
  unfold get
  split
  · exact ⟨fun _ _ h => h, le_rfl, rfl⟩
  · split_ifs
    · refine ⟨fun t entry h => ?_, OrderedMap.size_remove_le _ _, rfl⟩
      rw [OrderedMap.get_remove] at h
      split_ifs at h
      exact h
    · exact ⟨fun _ _ h => h, le_rfl, rfl⟩

/-- `set` keeps the generation and the bound, and the only entry it may add is the tenant's
list, from a lookup of the current generation. -/
theorem of_set {cache cache' : AgentLogPartitionCache P} {now : ℕ} {tenantId : String}
    {partitions : P} {lookup : AgentLogPartitionLookup}
    (h : cache.set now tenantId partitions lookup = .ok cache') :
    cache'.generation = cache.generation ∧
      (cache.entries.size ≤ agentPartitionCacheMaxEntries →
        cache'.entries.size ≤ agentPartitionCacheMaxEntries) ∧
      ∀ t entry, cache'.entries.get t = some entry → cache.entries.get t = some entry ∨
        t = tenantId ∧ lookup.generation = cache.generation ∧
          entry = ⟨partitions, lookup.startedAt + agentPartitionCacheTtlMs⟩ := by
  unfold set at h
  simp only at h
  split_ifs at h with hexpired hgeneration
  · obtain rfl := Except.ok.inj h
    exact ⟨rfl, id, fun _ _ hentry => Or.inl hentry⟩
  · obtain rfl := Except.ok.inj h
    rw [not_not] at hgeneration
    refine ⟨rfl, fun hsize => ?_, fun t entry hentry => ?_⟩
    · exact OrderedMap.size_set_makeRoom _ _ _ (by decide)
        ((OrderedMap.size_remove_le _ _).trans hsize)
    · rw [OrderedMap.get_set] at hentry
      split_ifs at hentry with ht
      · exact Or.inr ⟨ht, hgeneration, (Option.some.inj hentry).symm⟩
      · have hbefore := OrderedMap.get_of_get_makeRoom hentry
        rw [OrderedMap.get_remove, if_neg ht] at hbefore
        exact Or.inl hbefore

/-- An invalidation leaves no entry of its tenant. -/
theorem of_get_invalidate {cache : AgentLogPartitionCache P} {tenantId t : String}
    {entry : CacheEntry P} (h : (cache.invalidate tenantId).entries.get t = some entry) :
    t ≠ tenantId ∧ cache.entries.get t = some entry := by
  rw [invalidate, OrderedMap.get_remove] at h
  split_ifs at h with ht
  exact ⟨ht, h⟩

end AgentLogPartitionCache

end DigitalTrust.LogAccess
