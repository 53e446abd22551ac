/-
# Requests that create records at the agent

`traction-http-client.service.ts` and the calls of `traction.adapter.ts` that create a record.  An
attempt may fail after the agent has applied it: the response is lost, or it is a 5xx or a 429.
`offerCredential` and `issueCredential` are sent once; `createInvitation` and `acceptInvitation` are
sent again under the client's retry policy.
-/
import DigitalTrust.RetryPolicy
import DigitalTrust.TractionTokens

namespace DigitalTrust.Traction

/-! ## The HTTP client -/

/-- `RETRY_MAX_ATTEMPTS`: the attempts after the first one. -/
def retryMaxAttempts : ℕ := 2

/-- What an attempt comes to, and whether the agent has applied the request. -/
inductive Reaction (β : Type) where
  /-- the circuit breaker is open: nothing is sent -/
  | circuitOpen (message : String)
  /-- there is no response, with the error's `code` and message -/
  | noResponse (applied : Bool) (code : Option String) (message : String)
  /-- a response, with the message of the error that axios makes of a refusal -/
  | response (applied : Bool) (status : ℕ) (body : β) (message : String)

/-- What `request` throws. -/
inductive HttpError where
  /-- from `assertSafeConnectorUrl` -/
  | unsafeUrl (message : String)
  /-- cockatiel's `BrokenCircuitError` -/
  | brokenCircuit (message : String)
  /-- an `AxiosError`, with the status of its response -/
  | axios (status : Option ℕ) (code : Option String) (message : String)

def isRetryableError : HttpError → Bool
  | .unsafeUrl _ => false
  | .brokenCircuit _ => false
  | .axios none _ _ => true
  | .axios (some status) _ _ => status = 429 || (500 ≤ status && status < 600)

/-- What the attempt returns or throws: a status other than 2xx is an error. -/
def Reaction.result {β : Type} : Reaction β → Except HttpError β
  | .circuitOpen message => .error (.brokenCircuit message)
  | .noResponse _ code message => .error (.axios none code message)
  | .response _ status body message =>
    if 200 ≤ status ∧ status < 300 then .ok body else .error (.axios (some status) none message)

def Reaction.applied {β : Type} : Reaction β → Bool
  | .circuitOpen _ => false
  | .noResponse applied _ _ => applied
  | .response applied _ _ _ => applied

/-- Whether the attempt fails in a way that the policies handle. -/
def Reaction.retryable {β : Type} (r : Reaction β) : Bool :=
  match r.result with
  | .error error => isRetryableError error
  | .ok _ => false

/-- `TractionHttpClient.request`: the attempts made, and what the last one comes to.  A
request that is not `retrySafe` passes the breaker only. -/
def request {β : Type} (safe : Except String Unit) (reactions : ℕ → Reaction β)
    (retrySafe : Bool) : List (Reaction β) × Except HttpError β :=
  match safe with
  | .error message => ([], .error (.unsafeUrl message))
  | .ok () =>
    if retrySafe then
      (Retry.attempts Reaction.retryable retryMaxAttempts reactions,
        (Retry.last Reaction.retryable retryMaxAttempts reactions).result)
    else ([reactions 0], (reactions 0).result)

/-! ## The records of the agent -/

/-- `TractionCredentialExchange`; `none` where the value is missing or not a text. -/
structure TractionCredentialExchange where
  credExId : Option String
  connectionId : Option String
  state : Option String
  errorMsg : Option String

/-- `TractionCreateInvitationResponse`, and `Invitation` of `credential-ports`. -/
structure Invitation where
  invitationId : String
  invitationUrl : String

/-- `TractionConnectionRecord`, as `toConnection` passes it on. -/
structure TractionConnectionRecord where
  connectionId : String
  state : String
  connectionAlias : Option String
  theirLabel : Option String
  theirDid : Option String
  invitationMsgId : Option String

/-- The endpoints of the agent that the four calls use. -/
inductive Endpoint where
  | sendOffer
  | issue (id : String)
  | createInvitation
  | receiveInvitation
  | connection (id : String)

/-- The endpoints that are posted to; the agent creates a record for every such request it
applies.  The connection is only fetched. -/
def Endpoint.posts : Endpoint → Bool
  | .sendOffer => true
  | .issue _ => true
  | .createInvitation => true
  | .receiveInvitation => true
  | .connection _ => false

def Endpoint.Body : Endpoint → Type
  | .sendOffer => Option TractionCredentialExchange
  | .issue _ => Option TractionCredentialExchange
  | .createInvitation => Invitation
  | .receiveInvitation => String
  | .connection _ => TractionConnectionRecord

/-- What surrounds one call: whether the token manager has a token, whether the endpoint's URL
is safe, and the reactions to the successive attempts at each endpoint. -/
structure Agent where
  token : Except Failure Unit
  safeUrl : Endpoint → Except String Unit
  react : (e : Endpoint) → ℕ → Reaction e.Body

/-- The attempts of one call, with whether the agent has applied each. -/
abbrev Trace := List (Endpoint × Bool)

/-- The records that the agent has created. -/
def created (trace : Trace) : ℕ := trace.countP fun attempt => attempt.1.posts && attempt.2

def Agent.request (agent : Agent) (e : Endpoint) (retrySafe : Bool) :
    Trace × Except HttpError e.Body :=
  let sent := Traction.request (agent.safeUrl e) (agent.react e) retrySafe
  (sent.1.map fun r => (e, r.applied), sent.2)

/-! ## The adapter -/

/-- `mapHttpError`, of an error that is not an `AdapterError`. -/
def mapHttpError : HttpError → Failure
  | .unsafeUrl message => .adapter "CONNECTOR_UNAVAILABLE" message
  | .brokenCircuit message => .adapter "CONNECTOR_UNAVAILABLE" message
  | .axios status code message =>
    if status = some 404 then .backendNotFound "Traction record was not found"
    else if status.any fun status => status ≠ 429 && status < 500 then .validation message
    else if code = some "ECONNABORTED" then .adapter "TIMEOUT" message
    else .adapter "CONNECTOR_UNAVAILABLE" message

def mapCredentialExchange (record : Option TractionCredentialExchange) :
    Except Failure RemoteExchange :=
  let invalid := .error (.validation "Invalid credential exchange response")
  match record with
  | none => invalid
  | some record =>
    match record.state, record.credExId.filter fun id => id.length ≠ 0 with
    | some text, some id =>
      match CredentialExchangeState.values.find? fun s => s.name = normalizeState text with
      | some state => .ok ⟨id, some id, record.connectionId, state, record.errorMsg⟩
      | none => invalid
    | _, _ => invalid

/-- What `decodeInvitationUrl` finds in an invitation URL. -/
inductive InvitationUrl where
  | invalid
  | withoutOob
  | undecodable
  | decoded
  deriving DecidableEq

def decodeInvitationUrl (url : String) : InvitationUrl → Except Failure Unit
  | .invalid => .error (.validation s!"'{url}' is not a valid invitation URL")
  | .withoutOob => .error (.validation s!"'{url}' is missing an 'oob' query parameter")
  | .undecodable =>
    .error (.validation "the invitation URL's 'oob' parameter is not valid base64url JSON")
  | .decoded => .ok ()

/-- `OfferCredentialRequest`, as far as `offerCredential` checks it. -/
structure OfferCredentialRequest where
  anoncreds : Bool
  connectionId : Option String
  credentialDefinitionId : Option String

/-- The check at the begin of `offerCredential`. -/
def OfferCredentialRequest.complete (req : OfferCredentialRequest) : Bool :=
  req.anoncreds && req.connectionId.any (fun id => id ≠ "") &&
    req.credentialDefinitionId.any fun id => id ≠ ""

def offerCredential (agent : Agent) (req : OfferCredentialRequest) :
    Trace × Except Failure RemoteExchange :=
  if !req.complete then
    ([], .error (.validation "AnonCreds offer requires a connection and credential definition"))
  else match agent.token with
    | .error failure => ([], .error failure)
    | .ok () =>
      let (trace, response) := agent.request .sendOffer false
      (trace, match response with
        | .ok record => mapCredentialExchange record
        | .error error => .error (mapHttpError error))

/-- The errors of `issueCredential`'s request. -/
def mapIssueError (error : HttpError) : Failure :=
  match error with
  | .axios (some 408) _ _ => .adapter "TIMEOUT" "Traction issue request timed out"
  | error =>
    match mapHttpError error with
    | .backendNotFound _ => .submissionRejected .notFound
    | .validation _ => .submissionRejected .validation
    | mapped => mapped

def issueCredential (agent : Agent) (id : String) : Trace × Except Failure RemoteExchange :=
  match agent.token with
  | .error _ => ([], .error (.submissionRejected .authentication))
  | .ok () =>
    let (trace, response) := agent.request (.issue id) false
    (trace, match response with
      | .ok record => mapCredentialExchange record
      | .error error => .error (mapIssueError error))

def createInvitation (agent : Agent) : Trace × Except Failure Invitation :=
  match agent.token with
  | .error failure => ([], .error failure)
  | .ok () =>
    let (trace, response) := agent.request .createInvitation true
    (trace, response.mapError mapHttpError)

/-- `acceptInvitation`: the connection is fetched once the invitation is received. -/
def acceptInvitation (agent : Agent) (url : String) (content : InvitationUrl) :
    Trace × Except Failure TractionConnectionRecord :=
  match decodeInvitationUrl url content with
  | .error failure => ([], .error failure)
  | .ok () => match agent.token with
    | .error failure => ([], .error failure)
    | .ok () =>
      let (trace, response) := agent.request .receiveInvitation true
      match response with
      | .error error => (trace, .error (mapHttpError error))
      | .ok connectionId =>
        let (fetches, connection) := agent.request (.connection connectionId) true
        (trace ++ fetches, connection.mapError mapHttpError)

/-! ## The records that a call creates -/

/-- The calls of the adapter that create a record at the agent. -/
inductive Call where
  | offerCredential (req : OfferCredentialRequest)
  | issueCredential (id : String)
  | createInvitation
  | acceptInvitation (url : String) (content : InvitationUrl)

/-- The attempts that the call makes. -/
def Call.trace (agent : Agent) : Call → Trace
  | .offerCredential req => (Traction.offerCredential agent req).1
  | .issueCredential id => (Traction.issueCredential agent id).1
  | .createInvitation => (Traction.createInvitation agent).1
  | .acceptInvitation url content => (Traction.acceptInvitation agent url content).1

def Call.endpoint : Call → Endpoint
  | .offerCredential _ => .sendOffer
  | .issueCredential id => .issue id
  | .createInvitation => .createInvitation
  | .acceptInvitation _ _ => .receiveInvitation

/-- Whether the call posts under the retry policy. -/
def Call.retrySafe : Call → Bool
  | .offerCredential _ => false
  | .issueCredential _ => false
  | .createInvitation => true
  | .acceptInvitation _ _ => true

def Call.valid : Call → Bool
  | .offerCredential req => req.complete
  | .issueCredential _ => true
  | .createInvitation => true
  | .acceptInvitation _ content => content = .decoded

/-- The call gets as far as a first attempt of its POST. -/
def Call.sends (agent : Agent) (call : Call) : Bool :=
  call.valid && agent.token.isOk && (agent.safeUrl call.endpoint).isOk

theorem Call.endpoint_posts (call : Call) : call.endpoint.posts = true := by
  cases call <;> rfl

@[simp] theorem created_nil : created [] = 0 := rfl

theorem created_append (first second : Trace) :
    created (first ++ second) = created first + created second :=
  List.countP_append

/-- Only the attempts of a POST that the agent has applied count. -/
theorem created_request (agent : Agent) (e : Endpoint) (retrySafe : Bool) :
    created (agent.request e retrySafe).1 =
      if e.posts then
        (Traction.request (agent.safeUrl e) (agent.react e) retrySafe).1.countP Reaction.applied
      else 0 := by
  rw [Agent.request, created, List.countP_map]
  by_cases hposts : e.posts = true
  · rw [if_pos hposts]
    congr 1
    funext r
    simp [hposts]
  · rw [if_neg hposts, List.countP_eq_zero]
    intro r _
    simp [hposts]

/-- Fetching the connection creates nothing. -/
theorem created_fetch (agent : Agent) (id : String) :
    created (agent.request (.connection id) true).1 = 0 := by
  rw [created_request]
  rfl

/-- What a call creates is what its POST creates, if the call gets that far. -/
theorem created_trace (agent : Agent) (call : Call) :
    created (call.trace agent) =
      if call.valid && agent.token.isOk then
        created (agent.request call.endpoint call.retrySafe).1
      else 0 := by
  cases call with
  | offerCredential req =>
    simp only [Call.trace, Traction.offerCredential, Call.valid, Call.endpoint, Call.retrySafe]
    by_cases hreq : req.complete = true
    · simp only [hreq]
      cases agent.token <;> rfl
    · simp [hreq]
  | issueCredential id =>
    simp only [Call.trace, Traction.issueCredential, Call.valid, Call.endpoint, Call.retrySafe]
    cases agent.token <;> rfl
  | createInvitation =>
    simp only [Call.trace, Traction.createInvitation, Call.valid, Call.endpoint, Call.retrySafe]
    cases agent.token <;> rfl
  | acceptInvitation url content =>
    simp only [Call.trace, Traction.acceptInvitation, Call.valid, Call.endpoint, Call.retrySafe]
    cases content with
    | decoded =>
      cases agent.token with
      | error failure => rfl
      | ok _ =>
        -- the fetch that follows a received invitation adds no record
        simp only [decodeInvitationUrl]
        cases (agent.request .receiveInvitation true).2 with
        | error error => rfl
        | ok connectionId =>
          have hfetch : created (agent.request (.connection connectionId) true).1 = 0 :=
            created_fetch agent connectionId
          simp only [created_append, hfetch, Nat.add_zero]
          rfl
    | invalid => rfl
    | withoutOob => rfl
    | undecodable => rfl

/-- A request creates at most one record iff it is sent once, or no attempt that the agent has
applied is followed by another one that it applies. -/
theorem countP_request_le_one_iff {β : Type} (safe : Except String Unit)
    (reactions : ℕ → Reaction β) (retrySafe : Bool) :
    (request safe reactions retrySafe).1.countP Reaction.applied ≤ 1 ↔
      (safe.isOk = true → retrySafe = true →
        ∀ i j, i < j → Retry.Made Reaction.retryable retryMaxAttempts reactions j →
          ¬ ((reactions i).applied = true ∧ (reactions j).applied = true)) := by
  cases safe with
  | error message => simp [request, Except.isOk, Except.toBool]
  | ok _ =>
    cases retrySafe with
    | false =>
      have hone : [reactions 0].countP Reaction.applied ≤ 1 := List.countP_le_length
      simpa [request] using hone
    | true =>
      rw [request, if_pos rfl, Retry.countP_attempts_le_one_iff]
      exact ⟨fun h _ _ => h, fun h => h rfl rfl⟩

/-- The attempt is retried: there was no response, or it had the status 429 or 5xx. -/
def Reaction.Retried {β : Type} : Reaction β → Prop
  | .circuitOpen _ => False
  | .noResponse .. => True
  | .response _ status _ _ => status = 429 ∨ 500 ≤ status ∧ status < 600

/-- The reactions that are retried. -/
theorem Reaction.retryable_iff {β : Type} (r : Reaction β) : r.retryable = true ↔ r.Retried := by
  cases r with
  | circuitOpen message => simp [retryable, result, isRetryableError, Retried]
  | noResponse applied code message => simp [retryable, result, isRetryableError, Retried]
  | response applied status body message =>
    simp only [retryable, result, Retried]
    by_cases hok : 200 ≤ status ∧ status < 300
    · rw [if_pos hok]
      exact iff_of_false Bool.false_ne_true (by omega)
    · rw [if_neg hok]
      simp [isRetryableError]

/-- An attempt that is applied comes after another such one: the second or the third one. -/
theorem applied_again_iff {β : Type} (reactions : ℕ → Reaction β) :
    (∀ i j, i < j → Retry.Made Reaction.retryable retryMaxAttempts reactions j →
      ¬((reactions i).applied = true ∧ (reactions j).applied = true)) ↔
    ¬((reactions 0).Retried ∧ (reactions 0).applied = true ∧ (reactions 1).applied = true) ∧
      ¬((reactions 0).Retried ∧ (reactions 1).Retried ∧
        ((reactions 0).applied = true ∨ (reactions 1).applied = true) ∧
        (reactions 2).applied = true) := by
  have hmade : ∀ j, Retry.Made Reaction.retryable retryMaxAttempts reactions j ↔
      j ≤ 2 ∧ ∀ k < j, (reactions k).Retried := by
    intro j
    simp only [← Reaction.retryable_iff]
    rfl
  simp only [hmade]
  constructor
  · intro h
    refine ⟨fun ⟨h0, hboth⟩ => h 0 1 (by omega) ⟨by omega, by simpa using h0⟩ hboth, ?_⟩
    rintro ⟨h0, h1, happlied, hthird⟩
    have hretried : ∀ k < 2, (reactions k).Retried := fun k hk => by
      interval_cases k <;> assumption
    rcases happlied with hfirst | hsecond
    · exact h 0 2 (by omega) ⟨le_rfl, hretried⟩ ⟨hfirst, hthird⟩
    · exact h 1 2 (by omega) ⟨le_rfl, hretried⟩ ⟨hsecond, hthird⟩
  · rintro ⟨hsecond, hthird⟩ i j hij ⟨hj, hmade⟩ ⟨hi, happlied⟩
    obtain ⟨rfl, rfl⟩ | ⟨hi', rfl⟩ : (i = 0 ∧ j = 1) ∨ ((i = 0 ∨ i = 1) ∧ j = 2) := by omega
    · exact hsecond ⟨hmade 0 (by omega), hi, happlied⟩
    · refine hthird ⟨hmade 0 (by omega), hmade 1 (by omega), ?_, happlied⟩
      rcases hi' with rfl | rfl
      · exact .inl hi
      · exact .inr hi

/-- A call creates at most one record exactly when it does not get as far as its POST, or the POST
is not retried, or no attempt of the first three that the agent applies is followed by another that
it applies; an attempt is followed by the next if it got no response or the status 429 or 5xx. -/
theorem created_le_one_iff (agent : Agent) (call : Call) :
    created (call.trace agent) ≤ 1 ↔
      (call.sends agent = true → call.retrySafe = true →
        ¬((agent.react call.endpoint 0).Retried ∧ (agent.react call.endpoint 0).applied = true ∧
            (agent.react call.endpoint 1).applied = true) ∧
          ¬((agent.react call.endpoint 0).Retried ∧ (agent.react call.endpoint 1).Retried ∧
            ((agent.react call.endpoint 0).applied = true ∨
              (agent.react call.endpoint 1).applied = true) ∧
            (agent.react call.endpoint 2).applied = true)) := by
  rw [created_trace, Call.sends, ← applied_again_iff]
  by_cases hready : (call.valid && agent.token.isOk) = true
  · rw [if_pos hready, created_request, if_pos call.endpoint_posts, countP_request_le_one_iff,
      hready, Bool.true_and]
  · rw [if_neg hready]
    simp [hready]

/-- An agent that creates the invitation, but whose first response does not arrive. -/
def lostInvitation : Agent where
  token := .ok ()
  safeUrl := fun _ => .ok ()
  react := fun e => match e with
    | .createInvitation => fun n =>
      if n = 0 then .noResponse true (some "ECONNABORTED") "timeout of 30000ms exceeded"
      else .response true 201 (⟨"invitation-2", "https://agent.example/?oob=e30"⟩ : Invitation) ""
    | _ => fun _ => .noResponse false none "Network Error"

/-- One call of `createInvitation` makes the agent create two invitations. -/
theorem invitation_created_twice :
    created (Call.createInvitation.trace lostInvitation) = 2 ∧
      ¬ created (Call.createInvitation.trace lostInvitation) ≤ 1 := by
  have htwice : created (Call.createInvitation.trace lostInvitation) = 2 := by decide
  exact ⟨htwice, by rw [htwice]; decide⟩

end DigitalTrust.Traction
