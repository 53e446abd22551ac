/-
# What a reported state means

`listedOutcomes` says what the tables of `state-mapping.ts` are for: each topic lists its states,
and each state has one outcome.  `resolveProtocolOutcome` also finds the names of the members that
every JavaScript object inherits.
-/
import DigitalTrust.StateMapping

namespace DigitalTrust

/-! ## The listed outcomes -/

/-- What a connection's new state means. -/
def connectionOutcome (state : ConnectionState) : ProtocolOutcome where
  operationState := match state with
    | .invited | .requested | .responded => some .processing
    | .active | .completed => some .completed
    | .abandoned => some .failed
  credentialState := none
  connectionState := some (.state state)
  event := if state = .active then some .connectionEstablished else none

/-- The outcome of a known state: the one in the table, or that the exchange is under way. -/
def listedOutcome {T : Type} [DecidableEq T] (table : List (T × ProtocolOutcome)) (state : T) :
    ProtocolOutcome :=
  (table.lookup state).getD .inProgress

/-- The states of a topic, by the names that the tables use, with the outcome of each. -/
def listedOutcomes : ProtocolTopic → List (String × ProtocolOutcome)
  | .issueCredential => CredentialExchangeState.values.map fun state =>
    (state.name, listedOutcome issueCredentialOutcomes state)
  | .presentProof => PresentationExchangeState.values.map fun state =>
    (state.name, listedOutcome presentProofOutcomes state)
  | .connections => AgentConnectionState.values.map fun state =>
    (state.name, connectionOutcome (agentToConnectionState state))
  | .revocationRegistry =>
    [("revoked", ⟨some .completed, some .revoked, none, some .credentialRevoked⟩)]

/-! ## Tables by name -/

section Tables

variable {T : Type} {name : T → String}

/-- Looking an entry up by its name is looking it up by its key, if the names tell the keys
apart. -/
theorem find?_name [DecidableEq T] {table : List (T × ProtocolOutcome)}
    (hname : Function.Injective name) (state : T) :
    (table.find? fun entry => name entry.1 = name state).map Prod.snd = table.lookup state := by
  induction table with
  | nil => rfl
  | cons entry table ih =>
    obtain ⟨key, outcome⟩ := entry
    by_cases h : key = state
    · simp [h]
    · have hne : name key ≠ name state := fun heq => h (hname heq)
      have hkey : (state == key) = false := by simpa using Ne.symm h
      simp only [List.find?_cons, hne, decide_false, List.lookup_cons, hkey]
      exact ih

/-- A string that names no state of the table is not found in it. -/
theorem find?_name_eq_none {table : List (T × ProtocolOutcome)} {s : String}
    (h : ∀ state, name state ≠ s) : (table.find? fun entry => name entry.1 = s) = none := by
  rw [List.find?_eq_none]
  intro entry _
  simpa using h entry.1

/-- `resolveFromTable` finds the known states and the inherited members. -/
theorem resolveFromTable_eq_some [DecidableEq T] {table : List (T × ProtocolOutcome)}
    {knownStates : List T} (hname : Function.Injective name) (hknown : ∀ state, state ∈ knownStates)
    (hown : ∀ state, name state ∉ inheritedMembers) {s : String} {outcome : ProtocolOutcome} :
    resolveFromTable name table knownStates s = some outcome ↔
      (s, outcome) ∈ knownStates.map (fun state => (name state, listedOutcome table state)) ∨
        s ∈ inheritedMembers ∧ outcome = .inherited := by
  rw [List.mem_map]
  by_cases hs : ∃ state, name state = s
  · obtain ⟨state, rfl⟩ := hs
    have hresolve : resolveFromTable name table knownStates (name state) =
        some (listedOutcome table state) := by
      rw [resolveFromTable, listedOutcome, ← find?_name hname]
      cases table.find? fun entry => name entry.1 = name state with
      | some entry => rfl
      | none => simp [hown state, List.mem_map_of_mem (hknown state)]
    rw [hresolve, Option.some.injEq]
    constructor
    · rintro rfl
      exact .inl ⟨state, hknown state, rfl⟩
    · rintro (⟨state', -, heq⟩ | ⟨hinherited, -⟩)
      · obtain ⟨hstate, rfl⟩ := Prod.mk.inj heq
        rw [hname hstate]
      · exact absurd hinherited (hown state)
  · have hnone : ∀ state, name state ≠ s := fun state h => hs ⟨state, h⟩
    have hunknown : s ∉ knownStates.map name := fun hmem => by
      obtain ⟨state, -, heq⟩ := List.mem_map.mp hmem
      exact hnone state heq
    rw [resolveFromTable, find?_name_eq_none hnone]
    simp only [hunknown, if_false, Option.ite_none_right_eq_some, Option.some.injEq]
    constructor
    · rintro ⟨hinherited, rfl⟩
      exact .inr ⟨hinherited, rfl⟩
    · rintro (⟨state, -, heq⟩ | ⟨hinherited, rfl⟩)
      · exact absurd (Prod.mk.inj heq).1 (hnone state)
      · exact ⟨hinherited, rfl⟩

end Tables

/-! ## The topics -/

theorem CredentialExchangeState.name_injective : Function.Injective name := by
  intro a b h
  revert h
  cases a <;> cases b <;> simp [name]

theorem PresentationExchangeState.name_injective : Function.Injective name := by
  intro a b h
  revert h
  cases a <;> cases b <;> simp [name]

/-- The connection states and the inherited members, and nothing else, have an outcome. -/
theorem resolveConnectionsOutcome_eq_some {s : String} {outcome : ProtocolOutcome} :
    resolveConnectionsOutcome s = some outcome ↔
      (s, outcome) ∈ listedOutcomes .connections ∨
        s ∈ inheritedMembers ∧ outcome = ⟨some .processing, none, some .inherited, none⟩ := by
  rw [listedOutcomes, List.mem_map]
  by_cases hs : ∃ state : AgentConnectionState, state.name = s
  · obtain ⟨state, rfl⟩ := hs
    have hresolve : resolveConnectionsOutcome state.name =
        some (connectionOutcome (agentToConnectionState state)) := by
      cases state <;> decide
    have hlisted : ∀ state' : AgentConnectionState, state'.name = state.name → state' = state := by
      intro state' h
      revert h
      cases state' <;> cases state <;> simp [AgentConnectionState.name]
    have hown : state.name ∉ inheritedMembers := by cases state <;> decide
    rw [hresolve, Option.some.injEq]
    constructor
    · rintro rfl
      exact .inl ⟨state, by cases state <;> decide, rfl⟩
    · rintro (⟨state', -, heq⟩ | ⟨hinherited, -⟩)
      · obtain ⟨hstate, rfl⟩ := Prod.mk.inj heq
        rw [hlisted state' hstate]
      · exact absurd hinherited hown
  · have hnone : (AgentConnectionState.values.find? fun state => state.name = s) = none := by
      rw [List.find?_eq_none]
      intro state _ h
      exact hs ⟨state, by simpa using h⟩
    rw [resolveConnectionsOutcome, lookupConnectionState, hnone]
    constructor
    · intro h
      by_cases hinherited : s ∈ inheritedMembers
      · exact .inr ⟨hinherited, by simpa [hinherited, eq_comm] using h⟩
      · simp [hinherited] at h
    · rintro (⟨state, -, heq⟩ | ⟨hinherited, rfl⟩)
      · exact absurd ⟨state, (Prod.mk.inj heq).1⟩ hs
      · simp [hinherited]

/-- What is found under the name of an inherited member. -/
def inheritedOutcome : ProtocolTopic → ProtocolOutcome
  | .connections => ⟨some .processing, none, some .inherited, none⟩
  | _ => .inherited

/-- In every topic but `revocation_registry`, what is found is listed or inherited. -/
theorem resolveProtocolOutcome_eq_some {topic : ProtocolTopic}
    (htopic : topic ≠ .revocationRegistry) {s : String} {outcome : ProtocolOutcome} :
    resolveProtocolOutcome topic s = some outcome ↔
      (normalizeState s, outcome) ∈ listedOutcomes topic ∨
        normalizeState s ∈ inheritedMembers ∧ outcome = inheritedOutcome topic := by
  cases topic with
  | issueCredential =>
    exact resolveFromTable_eq_some CredentialExchangeState.name_injective
      (fun state => by cases state <;> decide) (fun state => by cases state <;> decide)
  | presentProof =>
    exact resolveFromTable_eq_some PresentationExchangeState.name_injective
      (fun state => by cases state <;> decide) (fun state => by cases state <;> decide)
  | connections => exact resolveConnectionsOutcome_eq_some
  | revocationRegistry => exact absurd rfl htopic

/-- No topic lists the name of an inherited member. -/
theorem not_listed_of_inherited {s : String} (h : s ∈ inheritedMembers) (topic : ProtocolTopic)
    (outcome : ProtocolOutcome) : (s, outcome) ∉ listedOutcomes topic := by
  have hstates : ∀ entry ∈ listedOutcomes topic, entry.1 ∉ inheritedMembers := by
    cases topic <;> decide
  exact fun hmem => hstates (s, outcome) hmem h

/-- **The outcomes are the listed ones, up to inherited members.**  A topic's outcome for a string
is what the topic lists for it exactly when the topic is `revocation_registry` or the normalised
string is not the name of an inherited member. -/
theorem resolves_as_listed_iff (topic : ProtocolTopic) (s : String) :
    (∀ outcome, resolveProtocolOutcome topic s = some outcome ↔
        (normalizeState s, outcome) ∈ listedOutcomes topic) ↔
      topic = .revocationRegistry ∨ normalizeState s ∉ inheritedMembers := by
  by_cases htopic : topic = .revocationRegistry
  · subst htopic
    simp only [true_or, iff_true, resolveProtocolOutcome, listedOutcomes, List.mem_singleton]
    intro outcome
    by_cases hs : normalizeState s = "revoked"
    · simp [hs, eq_comm]
    · simp [hs]
  · simp only [htopic, false_or]
    constructor
    · intro h hinherited
      have hfound := (resolveProtocolOutcome_eq_some htopic).mpr (.inr ⟨hinherited, rfl⟩)
      exact not_listed_of_inherited hinherited topic _ ((h _).mp hfound)
    · intro hown outcome
      rw [resolveProtocolOutcome_eq_some htopic]
      simp [hown]

/-- The report `constructor` is taken for a state of an issuance. -/
theorem constructor_resolves :
    resolveProtocolOutcome .issueCredential "constructor" = some .inherited ∧
      ∀ outcome, (normalizeState "constructor", outcome) ∉ listedOutcomes .issueCredential := by
  have hname : normalizeState "constructor" = "constructor" := by
    apply String.toList_injective
    rw [normalizeState, String.toList_map]
    decide
  have hinherited : normalizeState "constructor" ∈ inheritedMembers := by
    rw [hname]
    decide
  have htopic : ProtocolTopic.issueCredential ≠ .revocationRegistry := by decide
  exact ⟨(resolveProtocolOutcome_eq_some htopic).mpr (.inr ⟨hinherited, rfl⟩),
    not_listed_of_inherited hinherited _⟩

end DigitalTrust
