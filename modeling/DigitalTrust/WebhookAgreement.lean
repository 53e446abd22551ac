/-
# The stored webhook secret and the registered one

`update` and `buildCredentialUpdates` of `connector.service.ts`, for one Traction connector and
with what they do to the wallets.  An update of the credentials registers the webhook secret with
the wallet first and stores the credentials afterwards.  The registration is not taken back when the
call is refused, and an update of the endpoint alone registers nothing.

A registration reads and writes the wallet's list under an advisory lock, so that it counts as one
statement.  `pending` says which calls have registered a secret and not stored it yet.
-/
import DigitalTrust.ConnectorUpdates

namespace DigitalTrust.WebhookAgreement

open Interleaving
open ConnectorUpdates (ConnectorDto StoredConnectorCredentials UpdateConnectorCredentialsDto
  UpdateConnectorCredentialDto mergeCredentials)

/-! ## The connector and the wallets -/

/-- A ciphertext, named by the process that made it and its number there; no two encryptions yield
the same.  What was there before has none. -/
abbrev Ciphertext := Option (ℕ × ℕ)

/-- The row of the connector, with what its ciphertext holds. -/
structure Row where
  endpointUrl : String
  active : Bool
  keyVersion : ℕ
  credentialsEncrypted : Ciphertext
  credentials : StoredConnectorCredentials
  agentLogIdHash : Option String

instance : Inhabited Row := ⟨⟨"", false, 0, none, ⟨⟨"", none, none⟩, none⟩, none⟩⟩

/-- A wallet: the endpoint and the Traction tenant of the token that is presented there. -/
abbrev Wallet := String × Option String

/-- The wallet and the secret that credentials stand for at an endpoint. -/
def walletOf (endpointUrl : String) (credentials : ConnectorDto) : Wallet :=
  (endpointUrl, credentials.tractionTenantId)

/-- The text of the secret in a registration. -/
def secretOf (credentials : ConnectorDto) : String := credentials.webhookSecret.getD "undefined"

abbrev Stored := Ciphertext × StoredConnectorCredentials

/-- The ciphertext of the row and what it holds. -/
def Row.stored (r : Row) : Stored := (r.credentialsEncrypted, r.credentials)

/-- The row, the connector's entry in each wallet, the calls that have registered a secret and not
stored it, and the ciphertexts that the row has had, with what they hold. -/
structure State where
  row : Row
  wallets : Wallet → Option String
  pending : ℕ → Bool
  used : List Stored

def Row.wallet (r : Row) : Wallet := walletOf r.endpointUrl r.credentials.credentials

def Row.secret (r : Row) : String := secretOf r.credentials.credentials

/-- The wallet carries the stored secret. -/
def State.Agrees (s : State) : Prop := s.wallets s.row.wallet = some s.row.secret

instance (s : State) : Decidable s.Agrees :=
  inferInstanceAs (Decidable (s.wallets s.row.wallet = some s.row.secret))

/-! ## The service -/

/-- The row is not the snapshot any more. -/
def stale (current snapshot : Row) : Bool :=
  current.endpointUrl ≠ snapshot.endpointUrl || current.active ≠ snapshot.active ||
    current.keyVersion ≠ snapshot.keyVersion ||
    current.credentialsEncrypted ≠ snapshot.credentialsEncrypted

/-- Statements that can be told apart in a run: a call is refused, or the endpoint alone is
written. -/
inductive Label where
  | step
  | refuse (i : ℕ)
  | move (snapshot : Row) (endpointUrl : String)

abbrev Program := Proc State Label (Except Failure Unit)

/-- What one attempt is answered: the health check with the agent log identifier, whether that is
free, the registration, its verification if it has failed, and the outcome of `updateWithLock`. -/
structure Answers where
  health : Except Failure (Option String)
  available : Bool
  registered : Except Failure Unit
  verified : Bool
  write : Except Failure Unit

def refuse (i : ℕ) (e : Failure) : Program :=
  Proc.perform (.refuse i) id (fun _ => ()) >>= fun _ => .ret (.error e)

/-- The call goes on with an answer, or ends with its error. -/
def require {α : Type} (i : ℕ) (x : Except Failure α) (k : α → Program) : Program :=
  match x with
  | .ok a => k a
  | .error e => refuse i e

def State.register (i : ℕ) (wallet : Wallet) (secret : String) (s : State) : State :=
  { s with
    wallets := Function.update s.wallets wallet (some secret)
    pending := Function.update s.pending i true }

/-- `ensureWebhookRegistered`, and `reconcileFailedRegistration` if it is answered with an error. -/
def ensureWebhookRegistered (i : ℕ) (wallet : Wallet) (secret : String) (answers : Answers)
    (k : Program) : Program :=
  match answers.registered with
  | .ok () => Proc.perform .step (State.register i wallet secret) (fun _ => ()) >>= fun _ => k
  | .error e =>
    -- the error is a definite answer, so that nothing was registered
    Proc.perform .step id (fun s => s.wallets wallet) >>= fun entry =>
      if answers.verified && entry = some secret then k else refuse i e

/-- `assertAgentLogIdAvailable`; `hash` is the blind index of an identifier. -/
def assertAgentLogIdAvailable (hash : String → String) (i : ℕ) (existing : Row)
    (agentLogId : Option String) (answers : Answers) (k : Option String → Program) : Program :=
  match agentLogId with
  | none =>
    if existing.agentLogIdHash ≠ none ∨ existing.credentials.agentLogId ≠ none then
      refuse i (.other ("The connector no longer reports its agent identifier; " ++
        "the existing binding was kept."))
    else k none
  | some agentLogId =>
    if answers.available then k (some (hash agentLogId))
    else refuse i ConnectorUpdates.agentLogIdConflict

/-- The columns of an `UPDATE`. -/
structure Patch where
  endpointUrl : Option String
  credentials : Option StoredConnectorCredentials
  agentLogIdHash : Option (Option String)

/-- The row after the `UPDATE`, with the key version and the ciphertext of new credentials. -/
def Patch.apply (p : Patch) (current : ℕ) (ciphertext : Ciphertext) (r : Row) : Row where
  endpointUrl := p.endpointUrl.getD r.endpointUrl
  active := r.active
  keyVersion := if p.credentials.isSome then current else r.keyVersion
  credentialsEncrypted := if p.credentials.isSome then ciphertext else r.credentialsEncrypted
  credentials := p.credentials.getD r.credentials
  agentLogIdHash := p.agentLogIdHash.getD r.agentLogIdHash

/-- `buildCredentialUpdates`; `k` gets the patch, and the endpoint if it alone is written. -/
def buildCredentialUpdates (hash : String → String) (i : ℕ) (existing : Row)
    (dto : UpdateConnectorCredentialDto) (answers : Answers)
    (k : Option String → Patch → Program) : Program :=
  match dto.credentials with
  | some updates =>
    let credentialsToPersist := mergeCredentials .traction existing.credentials.credentials updates
    require i answers.health fun agentLogId =>
    assertAgentLogIdAvailable hash i existing agentLogId answers fun agentLogIdHash =>
    ensureWebhookRegistered i
      (walletOf (dto.endpointUrl.getD existing.endpointUrl) credentialsToPersist)
      (secretOf credentialsToPersist) answers <|
    k none ⟨dto.endpointUrl, some ⟨credentialsToPersist, agentLogId⟩, some agentLogIdHash⟩
  | none => match dto.endpointUrl with
    | some endpointUrl =>
      require i answers.health fun agentLogId =>
      if agentLogId = existing.credentials.agentLogId then
        k (some endpointUrl) ⟨some endpointUrl, none, none⟩
      else
        assertAgentLogIdAvailable hash i existing agentLogId answers fun agentLogIdHash =>
        k (some endpointUrl) ⟨some endpointUrl,
          some ⟨existing.credentials.credentials, agentLogId⟩, some agentLogIdHash⟩
    | none =>
      refuse i (.badRequest "At least one of endpoint_url or credentials must be provided.")

/-- The row is replaced.  A call that stores what it has registered is not pending any more. -/
def State.store (i : ℕ) (row : Row) (s : State) : State :=
  { s with
    row
    pending := Function.update s.pending i false
    used := s.used ++ [row.stored] }

def Row.rotated (current : ℕ) (ciphertext : Ciphertext) (r : Row) : Row :=
  if r.keyVersion = current then r
  else { r with keyVersion := current, credentialsEncrypted := ciphertext }

/-- `lazyRotateKeyIfNeeded`: the ciphertext is made anew with the current key. -/
def lazyRotateKeyIfNeeded (current : ℕ) (ciphertext : Ciphertext) (credential : Row)
    (k : Row → Program) : Program :=
  if credential.keyVersion = current then k credential
  else
    Proc.perform .step
      (fun s => { s with
        row := s.row.rotated current ciphertext
        used := s.used ++ [(s.row.rotated current ciphertext).stored] })
      (fun s => s.row.rotated current ciphertext) >>= k

/-- The loop of `update`, for process `i`: `attempts` are left, `attempt` were made. -/
def updateLoop (hash : String → String) (i current : ℕ) (dto : UpdateConnectorCredentialDto)
    (answers : ℕ → Answers) : (attempts attempt : ℕ) → Row → Program
  | 0, _, _ => refuse i (.conflict "Connector changed during validation. Retry the update.")
  | attempts + 1, attempt, snapshot =>
    buildCredentialUpdates hash i snapshot dto (answers attempt) fun moves updates =>
    let ciphertext : Ciphertext := some (i, attempt + 1)
    match (answers attempt).write with
    | .error e => refuse i e
    | .ok () =>
      Proc.perform (moves.elim .step (Label.move snapshot))
        (fun s => if stale s.row snapshot then s
          else s.store i (updates.apply current ciphertext s.row))
        (fun s => s.row) >>= fun row =>
      if stale row snapshot then updateLoop hash i current dto answers attempts (attempt + 1) row
      else
        lazyRotateKeyIfNeeded current (some (i, attempt + 2)) (updates.apply current ciphertext row)
          fun _ => .ret (.ok ())

/-- A call of `update`: whether the caller may see the connector, and what its attempts are
answered. -/
structure Request where
  id : String
  dto : UpdateConnectorCredentialDto
  access : Bool
  current : ℕ
  answers : ℕ → Answers

def update (hash : String → String) (i : ℕ) (r : Request) : Program :=
  Proc.perform .step id (fun s => s.row) >>= fun row =>
  if r.access then
    lazyRotateKeyIfNeeded r.current (some (i, 0)) row fun snapshot =>
      updateLoop hash i r.current r.dto r.answers 3 0 snapshot
  else refuse i (ConnectorUpdates.notFound r.id)

/-- The service: calls of `update` on the connector. -/
def service (hash : String → String) : System State Label Request where
  prog r i := update hash i r >>= fun _ => .ret ()
  crash := none

/-- No call is refused while it is pending, and the endpoint alone is changed only to one whose
wallet carries the stored secret. -/
def keepsAgreement : Label → State → Bool
  | .step, _ => true
  | .refuse i, s => !s.pending i
  | .move snapshot endpointUrl, s => stale s.row snapshot || endpointUrl = s.row.endpointUrl ||
      s.wallets (walletOf endpointUrl s.row.credentials.credentials) = some s.row.secret

/-! ## What the calls agree on -/

/-- The stored credentials have a secret. -/
def Row.hasSecret (r : Row) : Prop := r.credentials.credentials.webhookSecret.isSome = true

/-- What call `j` knows of a secret that it has registered, until it stores it: the wallet carries
it, or another call is pending, or the row has changed since it was read. -/
def Secured (j : ℕ) (wallet : Wallet) (secret : String) (read : Ciphertext) (s : State) : Prop :=
  s.wallets wallet = some secret ∨ (∃ q, q ≠ j ∧ s.pending q = true) ∨
    s.row.credentialsEncrypted ≠ read

/-- The ciphertexts of call `i` from number `n` on have not been stored. -/
def Unused (i n : ℕ) (s : State) : Prop := ∀ m, n ≤ m → ∀ v, (some (i, m), v) ∉ s.used

/-- What holds throughout: the secrets agree, or a call is pending; and no ciphertext holds two
values. -/
structure Inv (s : State) : Prop where
  agreement : s.Agrees ∨ ∃ q, s.pending q = true
  used : s.row.stored ∈ s.used
  single : ∀ c v w, (c, v) ∈ s.used → (c, w) ∈ s.used → v = w
  hasSecret : s.row.hasSecret

def contract : Contract State where
  inv := Inv
  rely o s s' := s.used ⊆ s'.used ∧ ∀ j, o = some j → s'.pending j = s.pending j ∧
    (∀ m v, (some (j, m), v) ∈ s'.used → (some (j, m), v) ∈ s.used) ∧
    ∀ wallet secret read v, (read, v) ∈ s.used → Secured j wallet secret read s →
      Secured j wallet secret read s'
  start i s := s.pending i = false ∧ Unused i 0 s

/-- What call `i` knows between two statements: which of its ciphertexts are unused, that the
row which it has read was stored, and, if it is `idle`, that it is not pending. -/
structure Local (i n : ℕ) (idle : Prop) (read : Row) (s : State) : Prop where
  unused : Unused i n s
  seen : read.stored ∈ s.used
  hasSecret : read.hasSecret
  idle : idle → s.pending i = false

theorem unused_stable (i n : ℕ) : contract.Stable i (Unused i n) :=
  fun _ _ _ _ h hr m hm v hmem => h m hm v ((hr.2 i rfl).2.1 m v hmem)

theorem local_stable (i n : ℕ) (idle : Prop) (read : Row) :
    contract.Stable i (Local i n idle read) := fun s s' hi hi' h hr =>
  ⟨unused_stable i n s s' hi hi' h.unused hr, hr.1 h.seen, h.hasSecret,
    fun hidle => (hr.2 i rfl).1.trans (h.idle hidle)⟩

theorem pending_stable (i : ℕ) : contract.Stable i fun s => s.pending i = false :=
  fun _ _ _ _ h hr => (hr.2 i rfl).1.trans h

theorem start_stable (i : ℕ) : contract.Stable i (contract.start i) :=
  (pending_stable i).and (unused_stable i 0)

/-- What is known of a registered secret stays true. -/
theorem secured_stable (i n : ℕ) (idle : Prop) (read : Row) (wallet : Wallet) (secret : String) :
    contract.Stable i fun s => Local i n idle read s ∧
      Secured i wallet secret read.credentialsEncrypted s := fun s s' hi hi' h hr =>
  ⟨local_stable i n idle read s s' hi hi' h.1 hr, (hr.2 i rfl).2.2 _ _ _ _ h.1.seen h.2⟩

theorem rely_refl (o : Option ℕ) (s : State) : contract.rely o s s :=
  ⟨List.Subset.refl _, fun _ _ => ⟨rfl, fun _ _ h => h, fun _ _ _ _ _ h => h⟩⟩

/-! ## The statements -/

section Statements

variable {i n : ℕ} {s : State}

/-- A registration makes its call pending, which is all that the others need to know. -/
theorem register_effect (hs : Inv s) (wallet : Wallet) (secret : String) :
    Inv (s.register i wallet secret) ∧
      ∀ o, o ≠ some i → contract.rely o s (s.register i wallet secret) := by
  have hpending : (s.register i wallet secret).pending i = true := Function.update_self _ _ _
  refine ⟨⟨.inr ⟨i, hpending⟩, hs.used, hs.single, hs.hasSecret⟩,
    fun o ho => ⟨List.Subset.refl _, ?_⟩⟩
  rintro j rfl
  have hne : i ≠ j := fun h => ho (congrArg some h.symm)
  exact ⟨Function.update_of_ne hne.symm _ _, fun _ _ h => h,
    fun _ _ _ _ _ _ => .inr (.inl ⟨i, hne, hpending⟩)⟩

/-- A row with a new ciphertext is not the one that any other call has read. -/
theorem rely_reseal (hunused : Unused i n s) {row : Row} {pending : ℕ → Bool}
    (hrow : row.credentialsEncrypted = some (i, n))
    (hpending : ∀ j, j ≠ i → pending j = s.pending j) {o : Option ℕ} (ho : o ≠ some i) :
    contract.rely o s ⟨row, s.wallets, pending, s.used ++ [row.stored]⟩ := by
  refine ⟨List.subset_append_left _ _, ?_⟩
  rintro j rfl
  have hne : j ≠ i := fun h => ho (congrArg some h)
  refine ⟨hpending j hne, fun m v hm => ?_, fun wallet secret read v hread _ => .inr (.inr ?_)⟩
  · rcases List.mem_append.mp hm with hm | hm
    · exact hm
    · have hfirst := congrArg Prod.fst (List.mem_singleton.mp hm)
      rw [Row.stored, hrow, Option.some.injEq, Prod.mk.injEq] at hfirst
      exact absurd hfirst.1 hne
  · change row.credentialsEncrypted ≠ read
    rw [hrow]
    exact fun h => hunused n le_rfl v (h ▸ hread)

/-- A row with the old ciphertext changes nothing that the others know. -/
theorem rely_keep (hs : Inv s) {row : Row} (hrow : row.stored = s.row.stored) (o : Option ℕ) :
    contract.rely o s ⟨row, s.wallets, s.pending, s.used ++ [row.stored]⟩ := by
  have hmem : ∀ x ∈ s.used ++ [row.stored], x ∈ s.used := by
    intro x hx
    rcases List.mem_append.mp hx with hx | hx
    · exact hx
    · rw [List.mem_singleton.mp hx, hrow]
      exact hs.used
  refine ⟨List.subset_append_left _ _, fun j _ => ⟨rfl, fun m v hm => hmem _ hm, ?_⟩⟩
  intro wallet secret read _ _ hsecured
  refine hsecured.imp id (Or.imp id fun h => ?_)
  change row.credentialsEncrypted ≠ read
  rwa [show row.credentialsEncrypted = s.row.credentialsEncrypted from congrArg Prod.fst hrow]

/-- The row is stored under a new ciphertext, or is what was stored before. -/
def Follower (i n : ℕ) (s : State) (row : Row) : Prop :=
  row.credentialsEncrypted = some (i, n) ∨ row.stored = s.row.stored

/-- The ciphertexts that are left to a call once it has stored one. -/
theorem unused_append (hs : Inv s) (hunused : Unused i n s) {row : Row} {pending : ℕ → Bool}
    (hrow : Follower i n s row) :
    Unused i (n + 1) ⟨row, s.wallets, pending, s.used ++ [row.stored]⟩ := by
  intro m hm v hmem
  rcases List.mem_append.mp hmem with hmem | hmem
  · exact hunused m (by omega) v hmem
  · have heq := List.mem_singleton.mp hmem
    rcases hrow with hrow | hrow
    · have hfirst := congrArg Prod.fst heq
      rw [Row.stored, hrow, Option.some.injEq, Prod.mk.injEq] at hfirst
      omega
    · exact hunused m (by omega) v (heq.trans hrow ▸ hs.used)

/-- A new ciphertext holds one value. -/
theorem single_append (hs : Inv s) (hunused : Unused i n s) {row : Row}
    (hrow : Follower i n s row) (c : Ciphertext) (v w : StoredConnectorCredentials)
    (hv : (c, v) ∈ s.used ++ [row.stored]) (hw : (c, w) ∈ s.used ++ [row.stored]) : v = w := by
  rcases hrow with hnew | hold
  · have hcases : ∀ x, (c, x) ∈ s.used ++ [row.stored] →
        (c, x) ∈ s.used ∨ c = some (i, n) ∧ x = row.credentials := by
      intro x hx
      refine (List.mem_append.mp hx).imp id fun hx => ?_
      have heq := List.mem_singleton.mp hx
      exact ⟨(congrArg Prod.fst heq).trans hnew, congrArg Prod.snd heq⟩
    rcases hcases v hv with hv | ⟨rfl, rfl⟩
    · rcases hcases w hw with hw | ⟨rfl, rfl⟩
      · exact hs.single c v w hv hw
      · exact absurd hv (hunused n le_rfl v)
    · rcases hcases w hw with hw | ⟨-, rfl⟩
      · exact absurd hw (hunused n le_rfl w)
      · rfl
  · have hmem : ∀ x ∈ s.used ++ [row.stored], x ∈ s.used := by
      intro x hx
      rcases List.mem_append.mp hx with hx | hx
      · exact hx
      · rw [List.mem_singleton.mp hx, hold]
        exact hs.used
    exact hs.single c v w (hmem _ hv) (hmem _ hw)

/-- A row that stands for the same wallet and the same secret keeps the invariant. -/
theorem Inv.sameSecret (hs : Inv s) (hunused : Unused i n s) {row : Row}
    (hrow : Follower i n s row) (hwallet : row.wallet = s.row.wallet)
    (hcredentials : row.credentials.credentials = s.row.credentials.credentials) :
    Inv ⟨row, s.wallets, s.pending, s.used ++ [row.stored]⟩ := by
  refine ⟨hs.agreement.imp (fun h => ?_) id, List.mem_concat_self,
    single_append hs hunused hrow, ?_⟩
  · change s.wallets row.wallet = some (secretOf row.credentials.credentials)
    rw [hwallet, hcredentials]
    exact h
  · change row.credentials.credentials.webhookSecret.isSome = true
    rw [hcredentials]
    exact hs.hasSecret

/-- A rotation keeps what the row stands for. -/
theorem rotated_credentials (current : ℕ) (ciphertext : Ciphertext) (r : Row) :
    (r.rotated current ciphertext).wallet = r.wallet ∧
      (r.rotated current ciphertext).credentials = r.credentials := by
  unfold Row.rotated
  split_ifs
  · exact ⟨rfl, rfl⟩
  · exact ⟨rfl, rfl⟩

theorem rotated_follower (current : ℕ) :
    Follower i n s (s.row.rotated current (some (i, n))) := by
  unfold Follower Row.rotated
  split_ifs
  · exact .inr rfl
  · exact .inl rfl

end Statements

/-! ## The programs -/

/-- Call `i` may run the program from `P`, and is not pending when it has returned. -/
abbrev Follows (i : ℕ) (p : Program) (P : State → Prop) : Prop :=
  contract.Ok (fun l s => keepsAgreement l s = true) i (fun _ s => s.pending i = false) p P

section Programs

variable {i n : ℕ} {idle : Prop} {read : Row}

/-- A refusal: the call is not pending. -/
theorem refuse_follows (e : Failure) (P : State → Prop) : Follows i (refuse i e) P := by
  have hstep : contract.Ok (fun l s => keepsAgreement l s = true) i
      (fun _ s => s.pending i = false) (Proc.perform (.refuse i) id fun _ => ()) P := by
    refine Contract.Ok.perform (fun _ => pending_stable i) fun s hs _ hc => ?_
    exact ⟨hs, fun o _ => rely_refl o s, by simpa [keepsAgreement] using hc⟩
  exact hstep.bind fun _ _ _ h => h

theorem require_follows {α : Type} {x : Except Failure α} {k : α → Program} {P : State → Prop}
    (hk : ∀ a, x = .ok a → Follows i (k a) P) : Follows i (require i x k) P := by
  cases hx : x with
  | ok a => exact hk a hx
  | error e => exact refuse_follows e P

/-- `ensureWebhookRegistered`: afterwards the secret is secured. -/
theorem ensureWebhookRegistered_follows {wallet : Wallet} {secret : String} {answers : Answers}
    {k : Program} (hidle : ¬idle)
    (hk : Follows i k fun s => Local i n idle read s ∧
      Secured i wallet secret read.credentialsEncrypted s) :
    Follows i (ensureWebhookRegistered i wallet secret answers k) (Local i n idle read) := by
  unfold ensureWebhookRegistered
  cases answers.registered with
  | ok u =>
    refine Contract.Ok.bind (Contract.Ok.perform
      (fun _ => secured_stable i n idle read wallet secret) fun s hs h _ => ?_) fun _ => hk
    obtain ⟨hinv, hrely⟩ := register_effect (i := i) hs wallet secret
    refine ⟨hinv, hrely, ⟨h.unused, h.seen, h.hasSecret, fun h' => absurd h' hidle⟩, .inl ?_⟩
    exact Function.update_self _ _ _
  | error e =>
    have hread : contract.Ok (fun l s => keepsAgreement l s = true) i
        (fun entry s => Local i n idle read s ∧ (entry = some secret →
          Secured i wallet secret read.credentialsEncrypted s))
        (Proc.perform .step id fun s => s.wallets wallet) (Local i n idle read) := by
      refine Contract.Ok.perform (fun entry s s' hi hi' h hr => ?_) fun s hs h _ => ?_
      · exact ⟨local_stable i n idle read s s' hi hi' h.1 hr,
          fun he => (secured_stable i n idle read wallet secret s s' hi hi' ⟨h.1, h.2 he⟩ hr).2⟩
      · exact ⟨hs, fun o _ => rely_refl o s, h, fun he => .inl he⟩
    refine hread.bind fun entry => ?_
    split_ifs with hverified
    · rw [Bool.and_eq_true, decide_eq_true_eq] at hverified
      exact hk.pre fun s _ h => ⟨h.1, h.2 hverified.2⟩
    · exact refuse_follows e _

theorem assertAgentLogIdAvailable_follows {hash : String → String} {existing : Row}
    {agentLogId : Option String} {answers : Answers} {k : Option String → Program}
    {P : State → Prop} (hk : ∀ h, Follows i (k h) P) :
    Follows i (assertAgentLogIdAvailable hash i existing agentLogId answers k) P := by
  cases agentLogId with
  | none =>
    rw [assertAgentLogIdAvailable]
    split_ifs
    · exact refuse_follows _ P
    · exact hk none
  | some agentLogId =>
    rw [assertAgentLogIdAvailable]
    split_ifs
    · exact hk _
    · exact refuse_follows _ P

/-- `lazyRotateKeyIfNeeded`: the call goes on with a row that was stored. -/
theorem lazyRotateKeyIfNeeded_follows {current : ℕ} {k : Row → Program}
    (hk : ∀ r, Follows i (k r) (Local i (n + 1) idle r)) :
    Follows i (lazyRotateKeyIfNeeded current (some (i, n)) read k) (Local i n idle read) := by
  unfold lazyRotateKeyIfNeeded
  split_ifs
  · refine (hk read).pre fun s _ h => ?_
    exact ⟨fun m hm => h.unused m (by omega), h.seen, h.hasSecret, h.idle⟩
  · refine Contract.Ok.bind (Contract.Ok.perform (fun r => local_stable i (n + 1) idle r)
      fun s hs h _ => ?_) hk
    obtain ⟨hwallet, hcredentials⟩ := rotated_credentials current (some (i, n)) s.row
    have hcases : Follower i n s (s.row.rotated current (some (i, n))) := rotated_follower current
    refine ⟨hs.sameSecret h.unused hcases hwallet (congrArg _ hcredentials), fun o ho => ?_,
      unused_append hs h.unused hcases, List.mem_concat_self, ?_, h.idle⟩
    · rcases hcases with hnew | hold
      · exact rely_reseal h.unused hnew (fun _ _ => rfl) ho
      · exact rely_keep hs hold o
    · unfold Row.hasSecret
      rw [hcredentials]
      exact hs.hasSecret

/-- A row that is not stale is the one that was read, as far as it is compared. -/
theorem eq_of_not_stale {row : Row} (h : stale row read = false) :
    row.endpointUrl = read.endpointUrl ∧ row.credentialsEncrypted = read.credentialsEncrypted := by
  simp only [stale, Bool.or_eq_false_iff, decide_eq_false_iff_not, not_not] at h
  exact ⟨h.1.1.1, h.2⟩

/-! ### Writes -/

/-- What a call knows once it has tried to write: it starts again from the row that it has found,
or it has stored its patch and is not pending any more. -/
def Written (i n : ℕ) (idle : Prop) (read : Row) (patch : Row → Row) (row : Row) (s : State) :
    Prop :=
  if stale row read then Local i (n + 1) idle row s else Local i (n + 1) True (patch row) s

theorem written_stable (patch : Row → Row) (row : Row) :
    contract.Stable i (Written i n idle read patch row) := by
  unfold Written
  split_ifs
  · exact local_stable i (n + 1) idle row
  · exact local_stable i (n + 1) True (patch row)

/-- A row that has changed is left as it is. -/
theorem written_of_stale {s : State} (hs : Inv s) (h : Local i n idle read s) {patch : Row → Row}
    (hstale : stale s.row read = true) : Written i n idle read patch s.row s := by
  unfold Written
  rw [if_pos hstale]
  exact ⟨fun m hm => h.unused m (by omega), hs.used, hs.hasSecret, h.idle⟩

/-- New credentials are stored where their secret was registered. -/
theorem write_credentials_ok {current : ℕ} {endpointUrl : Option String}
    {credentials : StoredConnectorCredentials} {hash : Option (Option String)}
    (hsecret : credentials.credentials.webhookSecret.isSome = true) :
    contract.Ok (fun l s => keepsAgreement l s = true) i
      (Written i n idle read (Patch.apply ⟨endpointUrl, some credentials, hash⟩ current
        (some (i, n))))
      (Proc.perform .step
        (fun s => if stale s.row read then s else
          s.store i (Patch.apply ⟨endpointUrl, some credentials, hash⟩ current (some (i, n)) s.row))
        fun s => s.row)
      fun s => Local i n idle read s ∧
        Secured i (walletOf (endpointUrl.getD read.endpointUrl) credentials.credentials)
          (secretOf credentials.credentials) read.credentialsEncrypted s := by
  refine Contract.Ok.perform (fun row => written_stable _ row) fun s hs h _ => ?_
  by_cases hstale : stale s.row read = true
  · simp only [if_pos hstale]
    exact ⟨hs, fun o _ => rely_refl o s, written_of_stale hs h.1 hstale⟩
  · simp only [if_neg hstale]
    obtain ⟨hurl, hread⟩ := eq_of_not_stale (Bool.not_eq_true _ ▸ hstale)
    set row := Patch.apply ⟨endpointUrl, some credentials, hash⟩ current (some (i, n)) s.row
    have hnew : row.credentialsEncrypted = some (i, n) := rfl
    have hwallet : row.wallet =
        walletOf (endpointUrl.getD read.endpointUrl) credentials.credentials := by
      change walletOf (endpointUrl.getD s.row.endpointUrl) credentials.credentials = _
      rw [hurl]
    have hpending : (s.store i row).pending i = false := Function.update_self _ _ _
    have hothers : ∀ j, j ≠ i → (s.store i row).pending j = s.pending j :=
      fun j hj => Function.update_of_ne hj _ _
    refine ⟨⟨?_, List.mem_concat_self, single_append hs h.1.unused (.inl hnew),
      hsecret⟩, fun o ho => rely_reseal h.1.unused hnew hothers ho, ?_⟩
    · rcases h.2 with hcarries | ⟨q, hq, hqpending⟩ | hmoved
      · refine .inl ?_
        change s.wallets row.wallet = some (secretOf credentials.credentials)
        rw [hwallet]
        exact hcarries
      · exact .inr ⟨q, (hothers q hq).trans hqpending⟩
      · exact absurd hread hmoved
    · unfold Written
      rw [if_neg hstale]
      exact ⟨unused_append hs h.1.unused (.inl hnew), List.mem_concat_self, hsecret,
        fun _ => hpending⟩

/-- The endpoint alone is written: the row stands for the same secret, in a wallet that carries
it or is the same. -/
theorem write_endpoint_ok {current : ℕ} {endpointUrl : String}
    {credentials : Option StoredConnectorCredentials} {hash : Option (Option String)}
    (hidle : idle)
    (hsame : ∀ v, credentials = some v → v.credentials = read.credentials.credentials) :
    contract.Ok (fun l s => keepsAgreement l s = true) i
      (Written i n idle read (Patch.apply ⟨some endpointUrl, credentials, hash⟩ current
        (some (i, n))))
      (Proc.perform (.move read endpointUrl)
        (fun s => if stale s.row read then s else
          s.store i (Patch.apply ⟨some endpointUrl, credentials, hash⟩ current (some (i, n)) s.row))
        fun s => s.row)
      (Local i n idle read) := by
  refine Contract.Ok.perform (fun row => written_stable _ row) fun s hs h hc => ?_
  by_cases hstale : stale s.row read = true
  · simp only [if_pos hstale]
    exact ⟨hs, fun o _ => rely_refl o s, written_of_stale hs h hstale⟩
  · simp only [if_neg hstale]
    obtain ⟨-, hread⟩ := eq_of_not_stale (Bool.not_eq_true _ ▸ hstale)
    set row := Patch.apply ⟨some endpointUrl, credentials, hash⟩ current (some (i, n)) s.row
      with hrow
    -- the ciphertext is the one that was read, so that it holds the same credentials
    have hvalue : s.row.credentials = read.credentials :=
      hs.single _ _ _ hs.used (by rw [hread]; exact h.seen)
    have hcredentials : row.credentials.credentials = s.row.credentials.credentials := by
      cases credentials with
      | none => rfl
      | some v => exact (hsame v rfl).trans (congrArg _ hvalue.symm)
    have hfollower : Follower i n s row := by
      cases credentials with
      | none => exact .inr rfl
      | some v => exact .inl rfl
    have hstore : s.store i row = ⟨row, s.wallets, s.pending, s.used ++ [row.stored]⟩ := by
      rw [State.store, ← h.idle hidle, Function.update_eq_self]
    rw [hstore]
    have hmove : endpointUrl = s.row.endpointUrl ∨
        s.wallets (walletOf endpointUrl s.row.credentials.credentials) = some s.row.secret := by
      simpa [keepsAgreement, hstale] using hc
    have hwallet : row.wallet = walletOf endpointUrl s.row.credentials.credentials := by
      change walletOf endpointUrl row.credentials.credentials = _
      rw [hcredentials]
    refine ⟨?_, fun o ho => ?_, ?_⟩
    · rcases hmove with hsameUrl | hcarries
      · exact hs.sameSecret h.unused hfollower (hwallet.trans (by rw [hsameUrl]; rfl)) hcredentials
      · refine ⟨.inl ?_, List.mem_concat_self,
          single_append hs h.unused hfollower, ?_⟩
        · change s.wallets row.wallet = some (secretOf row.credentials.credentials)
          rw [hwallet, hcredentials]
          exact hcarries
        · change row.credentials.credentials.webhookSecret.isSome = true
          rw [hcredentials]
          exact hs.hasSecret
    · rcases hfollower with hnew | hold
      · exact rely_reseal h.unused hnew (fun _ _ => rfl) ho
      · exact rely_keep hs hold o
    · unfold Written
      rw [if_neg hstale]
      refine ⟨unused_append hs h.unused hfollower, List.mem_concat_self, ?_,
        fun _ => h.idle hidle⟩
      change row.credentials.credentials.webhookSecret.isSome = true
      rw [hcredentials]
      exact hs.hasSecret

/-! ### Updates -/

/-- The loop of `update`. -/
theorem updateLoop_follows (hash : String → String) (current : ℕ)
    (dto : UpdateConnectorCredentialDto) (answers : ℕ → Answers) (attempts attempt : ℕ)
    (read : Row) :
    Follows i (updateLoop hash i current dto answers attempts attempt read)
      (Local i (attempt + 1) (dto.credentials = none) read) := by
  induction attempts generalizing attempt read with
  | zero => exact refuse_follows _ _
  | succ attempts ih =>
    -- what follows the write, whatever was written
    have hnext : ∀ (patch : Row → Row) (row : Row),
        Follows i (if stale row read then
            updateLoop hash i current dto answers attempts (attempt + 1) row
          else lazyRotateKeyIfNeeded current (some (i, attempt + 2)) (patch row)
            fun _ => .ret (.ok ()))
          (Written i (attempt + 1) (dto.credentials = none) read patch row) := by
      intro patch row
      unfold Written
      split_ifs
      · exact ih (attempt + 1) row
      · exact lazyRotateKeyIfNeeded_follows fun _ _ _ h => h.idle trivial
    rw [updateLoop, buildCredentialUpdates]
    cases hdto : dto.credentials with
    | some updates =>
      refine Contract.Ok.pre (P := fun s => read.hasSecret ∧
        Local i (attempt + 1) (dto.credentials = none) read s) (.assume fun hsecret => ?_)
        fun s _ h => ⟨h.hasSecret, hdto ▸ h⟩
      refine require_follows fun agentLogId _ => assertAgentLogIdAvailable_follows fun h => ?_
      refine ensureWebhookRegistered_follows (by simp [hdto]) ?_
      cases (answers attempt).write with
      | error e => exact refuse_follows e _
      | ok u =>
        refine Contract.Ok.bind (write_credentials_ok ?_) (hnext _)
        change (updates.webhookSecret.or read.credentials.credentials.webhookSecret).isSome = true
        rw [Option.isSome_or, Bool.or_eq_true]
        exact .inr hsecret
    | none =>
      cases dto.endpointUrl with
      | none => exact refuse_follows _ _
      | some endpointUrl =>
        rw [hdto] at hnext
        refine require_follows fun agentLogId _ => ?_
        split_ifs
        · cases (answers attempt).write with
          | error e => exact refuse_follows e _
          | ok u =>
            exact Contract.Ok.bind (write_endpoint_ok rfl (by simp)) (hnext _)
        · refine assertAgentLogIdAvailable_follows fun h => ?_
          cases (answers attempt).write with
          | error e => exact refuse_follows e _
          | ok u =>
            refine Contract.Ok.bind (write_endpoint_ok rfl fun v hv => ?_) (hnext _)
            rw [← Option.some.inj hv]

/-- `update`. -/
theorem update_follows (hash : String → String) (r : Request) :
    Follows i (update hash i r) (contract.start i) := by
  have hread : contract.Ok (fun l s => keepsAgreement l s = true) i
      (fun row s => Local i 0 (r.dto.credentials = none) row s)
      (Proc.perform .step id fun s => s.row) (contract.start i) := by
    refine Contract.Ok.perform (fun row => local_stable i 0 _ row) fun s hs h _ => ?_
    exact ⟨hs, fun o _ => rely_refl o s, h.2, hs.used, hs.hasSecret, fun _ => h.1⟩
  refine hread.bind fun row => ?_
  split_ifs
  · exact lazyRotateKeyIfNeeded_follows fun snapshot =>
      updateLoop_follows hash r.current r.dto r.answers 3 0 snapshot
  · exact refuse_follows _ _

end Programs

/-! ## Whole runs -/

/-- The calls follow their contract. -/
theorem service_follows (hash : String → String) :
    Contract.FollowsTo (service hash) contract (fun l s => keepsAgreement l s = true)
      fun i s => s.pending i = false where
  start := start_stable
  prog r i := (update_follows hash r).bind fun _ _ _ h => h
  crash g hg := by simp [service] at hg
  crashed g hg := by simp [service] at hg

/-- A connector whose webhook is registered with its stored secret, before the calls. -/
structure Registered (s : State) : Prop where
  agrees : s.Agrees
  hasSecret : s.row.hasSecret
  quiet : ∀ i, s.pending i = false
  used : s.used = [s.row.stored]
  old : s.row.credentialsEncrypted = none

/-- **The secrets agree.**  If no `update` is refused while a secret that it has registered is not
stored, and the endpoint alone is changed only to one whose wallet carries the stored secret: once
all calls have returned, the wallet's entry carries exactly the stored secret. -/
theorem secrets_agree (hash : String → String) (s₀ : State) (h₀ : Registered s₀)
    (c : Config State Label)
    (hc : Reach (service hash) (fun l s => keepsAgreement l s = true) s₀ c)
    (hreturned : c.Returned) :
    ∃ secret, c.state.row.credentials.credentials.webhookSecret = some secret ∧
      c.state.wallets c.state.row.wallet = some secret := by
  have hinv : Inv s₀ := by
    refine ⟨.inl h₀.agrees, h₀.used ▸ List.mem_singleton.mpr rfl, fun ct v w hv hw => ?_,
      h₀.hasSecret⟩
    rw [h₀.used, List.mem_singleton] at hv hw
    exact (congrArg Prod.snd hv).trans (congrArg Prod.snd hw).symm
  have hstart : ∀ i, contract.start i s₀ := by
    refine fun i => ⟨h₀.quiet i, fun m _ v hmem => ?_⟩
    rw [h₀.used, List.mem_singleton] at hmem
    have hfirst := congrArg Prod.fst hmem
    rw [Row.stored, h₀.old] at hfirst
    simp at hfirst
  have hgood := Contract.soundTo (service_follows hash) hinv hstart hc
  -- neither a call that has returned nor one that has not begun is pending
  have hquiet : ∀ i, c.state.pending i = false := by
    intro i
    by_cases hi : i < c.procs.length
    · exact Contract.sound_post (service_follows hash) hinv hstart hc (hreturned.getElem? hi)
    · exact (hgood.start i (by omega)).1
  have hagrees : c.state.Agrees := by
    rcases hgood.inv.agreement with hagrees | ⟨q, hq⟩
    · exact hagrees
    · rw [hquiet q] at hq
      simp at hq
  obtain ⟨secret, hsecret⟩ := Option.isSome_iff_exists.mp hgood.inv.hasSecret
  refine ⟨secret, hsecret, hagrees.trans ?_⟩
  rw [Row.secret, secretOf, hsecret, Option.getD_some]

/-! ## Two updates -/

def sampleRow : Row :=
  ⟨"https://agent", true, 1, none, ⟨⟨"key", some "tenant", some "s0"⟩, some "w"⟩, some "w"⟩

def sampleState : State :=
  ⟨sampleRow, fun wallet => if wallet = sampleRow.wallet then some "s0" else none,
    fun _ => false, [sampleRow.stored]⟩

def goodAnswers : Answers := ⟨.ok (some "w"), true, .ok (), true, .ok ()⟩

def setSecret (secret : String) (answers : ℕ → Answers) : Request :=
  ⟨"connector", ⟨none, some ⟨none, none, some secret⟩⟩, true, 1, answers⟩

/-- The agent is not healthy when the second attempt begins. -/
def failsLater (attempt : ℕ) : Answers :=
  if attempt = 0 then goodAnswers
  else { goodAnswers with health := .error (.other "Unexpected response status 503") }

/-- Both calls register their secret before the first one stores it. -/
def overlapping : List (Move Request) := [.run 0, .run 0, .run 1, .run 1, .run 0, .run 1]

theorem sampleState_registered : Registered sampleState where
  agrees := by decide
  hasSecret := rfl
  quiet _ := rfl
  used := rfl
  old := rfl

/-- The second update finds the row changed, starts again and succeeds. -/
theorem secrets_agree_two :
    ∃ c, Reach (service id) (fun l s => keepsAgreement l s = true) sampleState c ∧ c.Returned ∧
      ∃ secret, c.state.row.credentials.credentials.webhookSecret = some secret ∧
        c.state.wallets c.state.row.wallet = some secret := by
  have hresult : (((service id).execIf keepsAgreement ⟨sampleState, []⟩
      ([.spawn (setSecret "s1" fun _ => goodAnswers),
        .spawn (setSecret "s2" fun _ => goodAnswers)] ++ overlapping ++ [.run 1, .run 1])).map
      fun c => c.procs.all Proc.hasReturned) = some true := by
    decide +kernel
  obtain ⟨c, hexec, hall⟩ := Option.map_eq_some_iff.mp hresult
  have hreach := reach_execIf hexec
  have hreturned := Config.returned_of_all hall
  exact ⟨c, hreach, hreturned,
    secrets_agree id sampleState sampleState_registered c hreach hreturned⟩

/-- **A refused update disagrees.**  The second update registers `s2`, finds the row changed, and is
refused by a failing health check: the wallet carries `s2`, and `s1` is stored. -/
theorem refused_update_disagrees :
    Registered sampleState ∧ ∃ c, Reach (service id) Always sampleState c ∧ c.Returned ∧
      c.state.wallets c.state.row.wallet = some "s2" ∧
      c.state.row.credentials.credentials.webhookSecret = some "s1" := by
  have hresult : (((service id).exec ⟨sampleState, []⟩
      ([.spawn (setSecret "s1" fun _ => goodAnswers), .spawn (setSecret "s2" failsLater)] ++
        overlapping ++ [.run 1])).map fun c => (c.procs.all Proc.hasReturned,
      c.state.wallets c.state.row.wallet, c.state.row.credentials.credentials.webhookSecret)) =
        some (true, some "s2", some "s1") := by
    decide +kernel
  obtain ⟨c, hexec, htriple⟩ := Option.map_eq_some_iff.mp hresult
  obtain ⟨hall, hpair⟩ := Prod.mk.inj htriple
  obtain ⟨hwallet, hsecret⟩ := Prod.mk.inj hpair
  exact ⟨sampleState_registered, c, reach_exec hexec, Config.returned_of_all hall,
    hwallet, hsecret⟩

end DigitalTrust.WebhookAgreement
