/-
# A credential is submitted once

The claims, calls and retractions of `issue` are the acts of a slot of `SingleFlight.lean`, one
slot for each exchange and the issue Operation as the ticket.  The exchange row tells the state of
the slot, and a taken slot belongs to the process that created the ticket's Operation.
-/
import DigitalTrust.CredentialExchange
import DigitalTrust.SingleFlight

namespace DigitalTrust

open ReadCommitted Interleaving SingleFlight

/-! ## The slot of an exchange -/

/-- Whether a transaction writes the exchange back as not submitted. -/
def takesBack (x : Uuid) (t : Tx Key Row Event) : Bool :=
  match t.writes (.exchange x) with
  | some (some e) => e.issueSubmission = .notSubmitted
  | _ => false

/-- What an entry of the log means for the submission of exchange `x`: the audit record of the
claim, the agent's call, and the notification that goes with a retraction. -/
def issueAct (x : Uuid) (entry : Commit Key Row Event × Option Event) : Option (Act Uuid) :=
  match entry.2 with
  | some (.issueAudit y o) => if y = x then some (.claim o) else none
  | some (.call (.issueCredential y o)) => if y = x then some (.call o) else none
  | some (.dispatch _ .issueFailed (.row o)) =>
    if takesBack x entry.1.tx then some (.release o) else none
  | _ => none

variable {x o : Uuid} {i : ℕ} {t : Tx Key Row Event} {p : Committed} {op : Operation}
  {s : Slot Uuid}

/-- A claim is an audit record. -/
theorem issueAct_claim {entry : Commit Key Row Event × Option Event} :
    issueAct x entry = some (.claim o) ↔ entry.2 = some (.issueAudit x o) := by
  unfold issueAct
  split
  · rename_i y o' he
    rw [he]
    split_ifs with h
    · simp [h]
    · simp [h]
  · rename_i he
    rw [he]
    split_ifs
    all_goals simp
  · rename_i he
    rw [he]
    split_ifs
    all_goals simp
  · rename_i hno _ _
    refine ⟨fun h => by simp at h, fun h => absurd h ?_⟩
    exact fun h' => hno _ _ h'

/-- A release is the notification of a retraction that writes the exchange back. -/
theorem issueAct_release {entry : Commit Key Row Event × Option Event}
    (h : issueAct x entry = some (.release o)) :
    (∃ tenantId, entry.2 = some (.dispatch tenantId .issueFailed (.row o))) ∧
      ∃ e : CredentialExchange, entry.1.tx.writes (.exchange x) = some (some e) ∧
        e.issueSubmission = .notSubmitted := by
  unfold issueAct at h
  split at h
  · split_ifs at h
    simp at h
  · split_ifs at h
    simp at h
  · rename_i tenantId o' he
    split_ifs at h with hback
    obtain rfl : o' = o := by simpa using h
    refine ⟨⟨tenantId, he⟩, ?_⟩
    unfold takesBack at hback
    split at hback
    · rename_i e hw
      exact ⟨e, hw, by simpa using hback⟩
    · simp at hback
  · simp at h

def issueActs (x : Uuid) (i : ℕ) (t : Tx Key Row Event) : List (Act Uuid) :=
  (Commit.entries ⟨i, t⟩).filterMap (issueAct x)

/-- The slot of exchange `x` after all commits. -/
def issueSlot (x : Uuid) (p : Committed) : Option (Slot Uuid) :=
  run .free (p.log.filterMap (issueAct x))

theorem issueSlot_commit (x : Uuid) (i : ℕ) (t : Tx Key Row Event) (p : Committed) :
    issueSlot x (p.commit i t) = (issueSlot x p).bind fun s => run s (issueActs x i t) := by
  simp [issueSlot, issueActs, run_append]

/-- The claim that an exchange row shows: the Operation it names, unless it is not
submitted. -/
def CredentialExchange.claim (e : CredentialExchange) : Option (Option Uuid) :=
  if e.issueSubmission = .notSubmitted then none else some e.issueOperationId

/-- The rows of exchange `x` and of its issue Operation are those of a slot in state `s`. -/
structure IssueAgrees (x : Uuid) (p : Committed) (s : Slot Uuid) : Prop where
  slot : issueSlot x p = some s
  exchange : (p.row (.exchange x)).bind CredentialExchange.claim = s.ticket.map some
  operation : ∀ o, s.ticket = some o → ∃ op : Operation, p.row (.operation o) = some op ∧
    op.type = .credentialIssue ∧ op.exchangeId = some x

/-- A commit that carries the audit record of a claim is the transaction that made the claim:
it wrote the Operation, and named it in the exchange. -/
def ClaimRecorded (c : Commit Key Row Event) : Prop :=
  ∀ x o, .issueAudit x o ∈ c.tx.events →
    (∃ op : Operation, c.tx.writes (.operation o) = some (some op)) ∧
      ∃ e : CredentialExchange, c.tx.writes (.exchange x) = some (some e) ∧
        e.issueSubmission = .submitting ∧ e.issueOperationId = some o

/-- The contract of issuance: the rows of every exchange are those of its slot, every claim is
on record, and a taken slot is left alone by all but the creator of its ticket. -/
def issueContract : StoreContract Key Row Event where
  inv p := (∀ x, ∃ s, IssueAgrees x p s) ∧ ∀ c ∈ p.history, ClaimRecorded c
  rely
    | none => fun _ _ => True
    | some i => fun p p' => ∀ x s o, issueSlot x p = some s → s.ticket = some o →
        p.creator (.operation o) = some i →
        issueSlot x p' = some s ∧ p'.creator (.operation o) = some i
  start _ _ := True
  refl j p := by
    cases j with
    | none => trivial
    | some i => exact fun x s o hs _ hc => ⟨hs, hc⟩
  start_stable _ _ _ _ _ _ _ := trivial

/-- Process `i` has taken the slot of exchange `x` with ticket `o`. -/
def issueOwner (i : ℕ) (x o : Uuid) (s : Slot Uuid) (hs : s.ticket = some o) :
    issueContract.Assert i where
  holds p := issueSlot x p = some s ∧ p.creator (.operation o) = some i
  stable _ _ _ _ h hr := hr x s o h.1 hs h.2

/-! ## Steps of a slot -/

/-- The creator of a row that exists does not change. -/
theorem creator_commit_of_row {k : Key} {v : Row k} (h : p.row k = some v) :
    (p.commit i t).creator k = p.creator k := by
  simp only [Pub.commit, h]
  split <;> simp_all

/-- A transaction that keeps the identity of every Operation. -/
def KeepsOperations (t : Tx Key Row Event) (p : Committed) : Prop :=
  ∀ o w, t.writes (.operation o) = some w → ∀ op : Operation, p.row (.operation o) = some op →
    ∃ op' : Operation, w = some op' ∧ op.SameIdentity op'

/-- A kept operation is still there. -/
theorem KeepsOperations.row (h : KeepsOperations t p) (hop : p.row (.operation o) = some op) :
    ∃ op' : Operation, (p.commit i t).row (.operation o) = some op' ∧ op.SameIdentity op' := by
  cases hw : t.writes (.operation o) with
  | none => exact ⟨op, by simp [Pub.commit, hw, hop], .refl op⟩
  | some w =>
    obtain ⟨op', rfl, hsame⟩ := h o w hw op hop
    exact ⟨op', by simp [Pub.commit, hw], hsame⟩

/-- A transaction that means nothing for a slot leaves its rows in agreement. -/
theorem IssueAgrees.frame (h : IssueAgrees x p s) (hops : KeepsOperations t p)
    (hrun : run s (issueActs x i t) = some s)
    (hrow : ((p.commit i t).row (.exchange x)).bind CredentialExchange.claim =
      (p.row (.exchange x)).bind CredentialExchange.claim) : IssueAgrees x (p.commit i t) s where
  slot := by
    rw [issueSlot_commit, h.slot]
    exact hrun
  exchange := hrow.trans h.exchange
  operation o ho := by
    obtain ⟨op, hop, htype, hx⟩ := h.operation o ho
    obtain ⟨op', hop', hsame⟩ := hops.row hop
    exact ⟨op', hop', hsame.type.trans htype, hsame.exchangeId.trans hx⟩

/-- What the other processes see of a transaction that leaves a slot alone. -/
theorem IssueAgrees.rely_frame (h : IssueAgrees x p s) (hrun : run s (issueActs x i t) = some s)
    {j : ℕ} {s' : Slot Uuid} (hs : issueSlot x p = some s') (ho : s'.ticket = some o)
    (hc : p.creator (.operation o) = some j) :
    issueSlot x (p.commit i t) = some s' ∧ (p.commit i t).creator (.operation o) = some j := by
  obtain rfl : s = s' := Option.mem_unique h.slot hs
  obtain ⟨op, hop, -⟩ := h.operation o ho
  refine ⟨?_, (creator_commit_of_row hop).trans hc⟩
  rw [issueSlot_commit, h.slot]
  exact hrun

theorem claimRecorded_commit (h : ∀ c ∈ p.history, ClaimRecorded c) (ht : ClaimRecorded ⟨i, t⟩) :
    ∀ c ∈ (p.commit i t).history, ClaimRecorded c := by
  intro c hc
  rcases List.mem_append.mp hc with hc | hc
  · exact h c hc
  · rw [List.mem_singleton.mp hc]
    exact ht

/-- A step that moves the slot of one exchange, which is free or belongs to the process. -/
theorem issue_step {s' : Slot Uuid} (hinv : issueContract.inv p) (hslot : issueSlot x p = some s)
    (hmine : ∀ o, s.ticket = some o → p.creator (.operation o) = some i)
    (hops : KeepsOperations t p) (hx : IssueAgrees x (p.commit i t) s')
    (hrec : ClaimRecorded ⟨i, t⟩)
    (hother : ∀ y, y ≠ x → issueActs y i t = [] ∧ t.writes (.exchange y) = none) :
    issueContract.inv (p.commit i t) ∧
      ∀ j, j ≠ some i → issueContract.rely j p (p.commit i t) := by
  have hframe : ∀ y s, y ≠ x → run s (issueActs y i t) = some s := fun y s hy => by
    rw [(hother y hy).1]
    rfl
  refine ⟨⟨fun y => ?_, claimRecorded_commit hinv.2 hrec⟩, fun j hj => ?_⟩
  · by_cases hy : y = x
    · subst hy
      exact ⟨s', hx⟩
    · obtain ⟨s₁, hs₁⟩ := hinv.1 y
      refine ⟨s₁, hs₁.frame hops (hframe y s₁ hy) ?_⟩
      simp [Pub.commit, (hother y hy).2]
  · cases j with
    | none => trivial
    | some j =>
      intro y s₁ o hs₁ ho hc
      by_cases hy : y = x
      · -- a taken slot that moves belongs to process `i`
        subst hy
        obtain rfl : s = s₁ := Option.mem_unique hslot hs₁
        exact absurd (hc.symm.trans (hmine o ho)) hj
      · obtain ⟨s₂, hs₂⟩ := hinv.1 y
        exact hs₂.rely_frame (hframe y s₂ hy) hs₁ ho hc

/-! ## Neutral transactions -/

/-- Changes that mean nothing for a submission. -/
def issueChanges : Changes Key Row where
  rel k := match k with
    | .exchange _ => fun a b =>
      b.bind CredentialExchange.claim = a.bind CredentialExchange.claim
    | .operation _ => fun a b =>
      ∀ op : Operation, a = some op → ∃ op' : Operation, b = some op' ∧ op.SameIdentity op'
    | _ => fun _ _ => True
  refl k v := by
    cases k with
    | operation o => exact fun op h => ⟨op, h, .refl op⟩
    | exchange x => rfl
    | _ => trivial
  trans k u v w huv hvw := by
    cases k with
    | operation o =>
      intro op h
      obtain ⟨op', h', hs⟩ := huv op h
      obtain ⟨op'', h'', hs'⟩ := hvw op' h'
      exact ⟨op'', h'', hs.trans hs'⟩
    | exchange x => exact hvw.trans huv
    | _ => trivial

/-- The events of such a transaction are notifications. -/
def isDispatch : Event → Prop
  | .dispatch _ _ _ => True
  | _ => False

/-- Among notifications only those of a retraction are acts, and only of the exchange that is
written back. -/
theorem issueActs_dispatch (h : ∀ e ∈ t.events, isDispatch e) :
    (∀ a ∈ issueActs x i t, ∃ o, a = .release o) ∧
    (takesBack x t = false → issueActs x i t = []) := by
  have key : ∀ a entry, entry ∈ Commit.entries ⟨i, t⟩ → issueAct x entry = some a →
      takesBack x t = true ∧ ∃ o, a = .release o := by
    rintro a ⟨c, e⟩ hmem ha
    simp only [Commit.entries, List.mem_append, List.mem_map, List.mem_singleton,
      Prod.mk.injEq] at hmem
    rcases hmem with ⟨e', he', rfl, rfl⟩ | ⟨rfl, rfl⟩
    · have hd := h e' he'
      cases e' with
      | dispatch tenantId event resource =>
        simp only [issueAct] at ha
        split at ha
        · simp_all
        · simp_all
        · split_ifs at ha with hb
          rename_i o _ _ _
          exact ⟨hb, _, (Option.some.inj ha).symm⟩
        · simp at ha
      | _ => exact absurd hd id
    · simp [issueAct] at ha
  refine ⟨fun a ha => ?_, fun hb => ?_⟩
  · obtain ⟨entry, hmem, hact⟩ := List.mem_filterMap.mp ha
    exact (key a entry hmem hact).2
  · refine List.eq_nil_iff_forall_not_mem.mpr fun a ha => ?_
    obtain ⟨entry, hmem, hact⟩ := List.mem_filterMap.mp ha
    simp [(key a entry hmem hact).1] at hb

/-- Such transactions are neutral. -/
theorem issue_neutral : issueContract.Neutral issueChanges isDispatch := by
  intro i t p hinv hrows hevents
  have hops : KeepsOperations t p := fun o w hw op hop => hrows (.operation o) w hw op hop
  have hrun : ∀ x s, IssueAgrees x p s → run s (issueActs x i t) = some s := by
    intro x s hs
    cases hb : takesBack x t with
    | false =>
      rw [(issueActs_dispatch hevents).2 hb]
      rfl
    | true =>
      -- the row is written back as it was: the slot is free
      obtain ⟨e, hw, he⟩ : ∃ e : CredentialExchange, t.writes (.exchange x) = some (some e) ∧
          e.issueSubmission = .notSubmitted := by
        unfold takesBack at hb
        split at hb
        · rename_i e hw
          exact ⟨e, hw, by simpa using hb⟩
        · simp at hb
      have hrel : (some e).bind CredentialExchange.claim =
          (p.row (.exchange x)).bind CredentialExchange.claim := hrows _ _ hw
      have hfree : s = .free := by
        rw [hs.exchange, Option.bind_some, CredentialExchange.claim, if_pos he] at hrel
        cases s with
        | free => rfl
        | claimed o => simp [Slot.ticket] at hrel
        | called o => simp [Slot.ticket] at hrel
      rw [hfree]
      exact run_free_releases _ (issueActs_dispatch hevents).1
  have hrow : ∀ x, ((p.commit i t).row (.exchange x)).bind CredentialExchange.claim =
      (p.row (.exchange x)).bind CredentialExchange.claim := by
    intro x
    cases hw : t.writes (.exchange x) with
    | none => simp [Pub.commit, hw]
    | some w =>
      have hrel : w.bind CredentialExchange.claim =
        (p.row (.exchange x)).bind CredentialExchange.claim := hrows _ _ hw
      simpa [Pub.commit, hw] using hrel
  have hrec : ClaimRecorded ⟨i, t⟩ := fun x o ho => absurd (hevents _ ho) id
  refine ⟨⟨fun x => ?_, claimRecorded_commit hinv.2 hrec⟩, fun j => ?_, fun _ => trivial⟩
  · obtain ⟨s, hs⟩ := hinv.1 x
    exact ⟨s, hs.frame hops (hrun x s hs) (hrow x)⟩
  · cases j with
    | none => trivial
    | some j =>
      intro x s o hs ho hc
      obtain ⟨s₁, hs₁⟩ := hinv.1 x
      exact hs₁.rely_frame (hrun x s₁ hs₁) hs ho hc

/-- A delivery makes only such changes. -/
theorem issueChanges_allowed : Delivery.Allowed issueChanges isDispatch where
  exchange x e externalId state := by
    obtain ⟨ho, -, -⟩ := observed_fixed e x externalId state
    have hs := observed_submission e x externalId state
    show (some _).bind CredentialExchange.claim = (some e).bind CredentialExchange.claim
    simp only [Option.bind_some, CredentialExchange.claim, ho, hs]
  advance o a b h op hop := ⟨b, rfl, Option.some.inj hop ▸ h.toSameIdentity⟩
  settle o a b state result _ _ _ op hop :=
    ⟨_, rfl, Option.some.inj hop ▸ a.moved_sameIdentity state result⟩
  credential _ _ _ _ := trivial
  connection _ _ _ _ := trivial
  clone _ _ _ _ _ := trivial
  dispatch _ _ _ := trivial

theorem issueChanges_adoptable : Connection.Adoptable issueChanges :=
  ⟨fun _ _ _ _ => trivial, fun _ _ _ _ => trivial⟩

/-! ## The acts of `issue` -/

section Programs

variable {C : Label → Db → Prop} {i : ℕ} {φ : issueContract.Assert i} {req : IssueRequest}

/-- Setting the submission of an exchange that is being submitted is neutral. -/
theorem setSubmission_keeps {tenantId id : Uuid} {state : IssueSubmission}
    (h : state ≠ .notSubmitted) :
    Keeps issueContract index C i φ (setSubmission i tenantId id state) := by
  refine Keeps.transaction issue_neutral (Body.bind (Body.update_within within_idle ?_)
    fun _ _ hm => Body.pure hm)
  intro e he
  simp only [Bool.and_eq_true, decide_eq_true_eq] at he
  show (some _).bind CredentialExchange.claim = (some e).bind CredentialExchange.claim
  simp [CredentialExchange.claim, he.2, h]

/-! ### Commits -/

/-- The claim: the slot was free and is now taken by the process. -/
theorem claim_step {e : CredentialExchange} (hinv : issueContract.inv p)
    (hfree : (p.row (.exchange x)).bind CredentialExchange.claim = none)
    (hnew : p.row (.operation o) = none) (hx : t.writes (.exchange x) = some (some e))
    (he : e.issueSubmission = .submitting ∧ e.issueOperationId = some o)
    (ho : t.writes (.operation o) = some (some op))
    (hop : op.type = .credentialIssue ∧ op.exchangeId = some x)
    (hwrites : ∀ k, k ≠ .exchange x → k ≠ .operation o → t.writes k = none)
    (hevents : t.events = [.issueAudit x o]) :
    issueContract.Step i t p (issueOwner i x o (.claimed o) rfl).holds := by
  obtain ⟨s, hs⟩ := hinv.1 x
  obtain rfl : s = .free := by
    have := hs.exchange.symm.trans hfree
    cases s <;> simp_all [Slot.ticket]
  have hacts : ∀ y, issueActs y i t = if x = y then [.claim o] else [] := fun y => by
    simp only [issueActs, Commit.entries, hevents]
    split_ifs with hy <;> simp [issueAct, hy]
  have hslot : issueSlot x (p.commit i t) = some (.claimed o) := by
    rw [issueSlot_commit, hs.slot, hacts, if_pos rfl]
    rfl
  have hops : KeepsOperations t p := by
    intro o' w hw op' hop'
    by_cases h : o' = o
    · subst h
      rw [hnew] at hop'
      exact absurd hop' (by simp)
    · simp [hwrites (.operation o') (by simp) (by simpa using h)] at hw
  have hagree : IssueAgrees x (p.commit i t) (.claimed o) := by
    refine ⟨hslot, by simp [Pub.commit, hx, CredentialExchange.claim, he, Slot.ticket], ?_⟩
    rintro o' ho'
    obtain rfl : o = o' := by simpa [Slot.ticket] using ho'
    exact ⟨op, by simp [Pub.commit, ho], hop⟩
  have hrec : ClaimRecorded ⟨i, t⟩ := by
    intro x' o' h
    obtain ⟨rfl, rfl⟩ : x' = x ∧ o' = o := by simpa [hevents] using h
    exact ⟨⟨op, ho⟩, e, hx, he⟩
  obtain ⟨hi, hr⟩ := issue_step hinv hs.slot (fun o' h => by simp [Slot.ticket] at h) hops hagree
    hrec
    fun y hy => ⟨by rw [hacts, if_neg (Ne.symm hy)], hwrites _ (by simpa using hy) (by simp)⟩
  exact ⟨hi, hr, hslot, by simp [Pub.commit, ho, hnew]⟩

/-- The call: the slot that the process has claimed. -/
theorem call_step (hinv : issueContract.inv p)
    (hown : (issueOwner i x o (.claimed o) rfl).holds p) :
    issueContract.Step i (Tx.empty.push (.call (.issueCredential x o))) p
      (issueOwner i x o (.called o) rfl).holds := by
  obtain ⟨hslot, hcreator⟩ := hown
  obtain ⟨s, hs⟩ := hinv.1 x
  obtain rfl : s = .claimed o := Option.mem_unique hs.slot hslot
  set t : Tx Key Row Event := Tx.empty.push (.call (.issueCredential x o)) with ht
  have hacts : ∀ y, issueActs y i t = if x = y then [.call o] else [] := fun y => by
    simp only [issueActs, Commit.entries, ht, Tx.push, Tx.empty]
    split_ifs with hy <;> simp [issueAct, hy]
  have hslot' : issueSlot x (p.commit i t) = some (.called o) := by
    rw [issueSlot_commit, hs.slot, hacts, if_pos rfl]
    simp [run, step]
  have hnone : ∀ k, t.writes k = none := fun k => rfl
  have hagree : IssueAgrees x (p.commit i t) (.called o) :=
    ⟨hslot', hs.exchange, fun o' ho' => hs.operation o' ho'⟩
  obtain ⟨hi, hr⟩ := issue_step hinv hs.slot
    (fun o' h => by rw [← (by simpa [Slot.ticket] using h : o = o')]; exact hcreator)
    (fun o' w hw => by simp [hnone] at hw) hagree
    (fun x' o' h => by simp [ht, Tx.push, Tx.empty] at h)
    fun y hy => ⟨by rw [hacts, if_neg (Ne.symm hy)], hnone _⟩
  exact ⟨hi, hr, hslot', by simpa [Pub.commit, hnone] using hcreator⟩

/-- The retraction: the slot that the process has called. -/
theorem retract_step {tenantId : Uuid} {e : CredentialExchange} {op' : Operation}
    (hinv : issueContract.inv p) (hown : (issueOwner i x o (.called o) rfl).holds p)
    (hx : t.writes (.exchange x) = some (some e)) (he : e.issueSubmission = .notSubmitted)
    (hrow : p.row (.operation o) = some op) (ho : t.writes (.operation o) = some (some op'))
    (hop : op.SameIdentity op')
    (hwrites : ∀ k, k ≠ .exchange x → k ≠ .operation o → t.writes k = none)
    (hevents : t.events = [.dispatch tenantId .issueFailed (.row o)]) :
    issueContract.Step i t p fun _ => True := by
  obtain ⟨hslot, hcreator⟩ := hown
  have hacts : ∀ y, issueActs y i t = if x = y then [.release o] else [] := fun y => by
    simp only [issueActs, Commit.entries, hevents]
    split_ifs with hy
    · subst hy
      simp [issueAct, takesBack, hx, he]
    · simp [issueAct, takesBack, hwrites (.exchange y) (by simpa using Ne.symm hy) (by simp)]
  have hops : KeepsOperations t p := by
    intro o' w hw op₁ hop₁
    by_cases h : o' = o
    · subst h
      obtain rfl : some op' = w := Option.mem_unique ho hw
      obtain rfl : op = op₁ := Option.mem_unique hrow hop₁
      exact ⟨op', rfl, hop⟩
    · simp [hwrites (.operation o') (by simp) (by simpa using h)] at hw
  have hagree : IssueAgrees x (p.commit i t) .free := by
    refine ⟨?_, by simp [Pub.commit, hx, CredentialExchange.claim, he, Slot.ticket],
      fun o' h => by simp [Slot.ticket] at h⟩
    rw [issueSlot_commit, hslot, hacts, if_pos rfl]
    simp [run, step]
  obtain ⟨hi, hr⟩ := issue_step hinv hslot
    (fun o' h => by rw [← (by simpa [Slot.ticket] using h : o = o')]; exact hcreator) hops hagree
    (fun x' o' h => by simp [hevents] at h)
    fun y hy => ⟨by rw [hacts, if_neg (Ne.symm hy)], hwrites _ (by simpa using hy) (by simp)⟩
  exact ⟨hi, hr, trivial⟩

/-! ### Transactions -/

/-- The claim's transaction: a claim that is made leaves the slot to the process. -/
theorem claim_run {exchange : CredentialExchange} {remote : RemoteExchange} :
    Run issueContract index C i φ (transaction .step i (req.claim i exchange remote))
      fun r ψ => ∀ v, r = .ok v → v.2 = true →
        ψ = issueOwner i req.id req.operationId (.claimed req.operationId) rfl := by
  refine Run.transaction (Body.seq (body_lockExchange Body.throw fun s e hs he ht => ?_))
    fun e v h => by simp at h
  have hpub : s.pub.row (.exchange req.id) = some e := hs.row rfl he
  dsimp only
  split_ifs with hsub hstate
  · -- somebody has claimed it before
    refine Body.seq (Body.selectIn fun s' hs' => Body.seq ?_)
    unfold retainedIssueOperation
    split
    · exact Body.throw
    · split_ifs
      · refine Body.pure (Body.pure fun s'' hs'' => ⟨φ, ?_, fun v h => ?_, fun v h => by simp at h⟩)
        · exact (issue_neutral.step (within_idle.hold hs) hs'').2
        · obtain rfl := Except.ok.inj h
          simp
      · exact Body.throw
  · exact Body.throw
  · have hsub : e.issueSubmission = .notSubmitted := by simpa using hsub
    refine Body.seq (Body.seq (Body.seq (body_computeExpiresAt fun _ =>
      Body.seq (Body.insert fun s₁ hs₁ hk _ => Body.pure ?_))))
    refine Body.seq (Body.saveRow (c := some e) (CredentialExchange.save_self _ e)
      (by simp [Mine.hold_of_ne, hpub]) (by simp [Mine.write_of_ne]) (fun heq => ?_) fun _ => ?_)
    · have := congrArg CredentialExchange.issueSubmission heq
      simp [hsub] at this
    · refine Body.seq (body_transitionStateIfForward_written
        ((req.operation exchange).row req.createdAt) (by simp [Mine.write_of_ne])
        (by simp [CreateOperationInput.row]) fun s₂ hs₂ => ?_)
      have hnew : s₂.pub.row (.operation req.operationId) = none := hs₂.held (by simp)
      refine Body.emit (Body.pure fun s₃ hs₃ => ⟨_, ?_, fun _ _ _ => rfl, fun v h => by simp at h⟩)
      refine claim_step hs₃.inv ?_ ?_ (e := _) (by simp [Mine.write_of_ne]; rfl) ?_
        (by simp; rfl) ⟨rfl, rfl⟩ ?_ (by simp)
      · rw [hs₃.held (c := some e) (by simp [Mine.hold_of_ne, hpub])]
        simp [CredentialExchange.claim, hsub]
      · rw [hs₃.held (c := none) (by simp [hnew])]
      · exact ⟨rfl, rfl⟩
      · intro k hx ho
        simp [Mine.write_of_ne _ _ hx, Mine.write_of_ne _ _ ho]

/-- The retraction's transaction, once the process has made its call. -/
theorem retract_run :
    Run issueContract index C i (issueOwner i req.id req.operationId (.called req.operationId) rfl)
      (transaction .step i (req.retract i)) fun _ _ => True := by
  refine Run.transaction (Body.seq (body_lockExchange ?_ fun s e hs he ht => ?_)) fun _ => trivial
  · exact Body.pure fun s hs => ⟨_, (issue_neutral.step within_idle hs).2, trivial, trivial⟩
  have hpub : s.pub.row (.exchange req.id) = some e := hs.row rfl he
  have hidle := within_idle (W := issueChanges) (T := isDispatch) |>.hold (k := .exchange req.id) hs
  dsimp only
  split_ifs with hsub
  · exact Body.pure fun s' hs' => ⟨_, (issue_neutral.step hidle hs').2, trivial, trivial⟩
  · have hsub : e.issueSubmission = .submitting := by
      simp only [Bool.or_eq_true, decide_eq_true_eq, not_or, not_not] at hsub
      exact hsub.1
    refine Body.seq (body_transitionStateIfForward (fun _ _ _ _ _ _ _ => ?_)
      fun s₁ op hs₁ hop _ => ?_)
    · exact Body.pure fun s' hs' => ⟨_, (issue_neutral.step hidle hs').2, trivial, trivial⟩
    · have hrow : s₁.pub.row (.operation req.operationId) = some op := by
        rw [hs₁.view] at hop
        simpa using hop
      refine Body.seq (Body.saveRow (c := some e) (CredentialExchange.save_self _ e)
        (by simp [Mine.hold_of_ne, hpub]) (by simp [Mine.write_of_ne]) (fun heq => ?_) fun _ => ?_)
      · have := congrArg CredentialExchange.issueSubmission heq
        simp [hsub] at this
      · refine Body.emit fun s₂ hs₂ => ⟨⟨fun _ => True, fun _ _ _ _ _ _ => trivial⟩, ?_, trivial,
          trivial⟩
        refine retract_step hs₂.inv hs₂.holds (e := _) (by simp; rfl) rfl
          (hs₂.held (by simp [hrow])) (by simp [Mine.write_of_ne]; rfl)
          (OperationPatch.apply_sameIdentity _ op) ?_ (by simp; rfl)
        intro k hx ho
        simp [Mine.write_of_ne _ _ hx, Mine.write_of_ne _ _ ho]

/-- What follows the call, by the process that has made it. -/
theorem conclude_run {exchange : CredentialExchange} :
    Run issueContract index C i (issueOwner i req.id req.operationId (.called req.operationId) rfl)
      (req.conclude i exchange) fun _ _ => True := by
  have huncertain : ∀ {φ : issueContract.Assert i}, Keeps issueContract index C i φ
      (req.uncertain i) := fun {φ} =>
    Keeps.bind (setSubmission_keeps (by simp)) fun _ => Keeps.throw
  unfold IssueRequest.conclude
  split
  · refine Run.seq (Run.post retract_run fun r ψ _ => ?_)
    cases r with
    | ok _ => exact Run.throw trivial
    | error _ => trivial
  · exact Run.post huncertain fun _ _ _ => trivial
  · refine Keeps.seq (Keeps.tryCatch ?_ fun _ => huncertain)
      (fun _ => Run.post getOperationForTenant_keeps fun _ _ _ => trivial) fun _ => trivial
    refine Keeps.bind (assertCorrelation_keeps issue_neutral issueChanges_adoptable) fun _ => ?_
    exact Keeps.bind (setSubmission_keeps (by simp)) fun _ =>
      Delivery.process_keeps _ issue_neutral issueChanges_allowed

/-- `issue` follows the contract. -/
theorem issue_run : Run issueContract index C i φ (req.issue i) fun _ _ => True := by
  refine Keeps.seq getExchange_keeps (fun exchange => ?_) fun _ => trivial
  split
  · exact Run.throw trivial
  · split
    · refine Keeps.seq Keeps.select (fun existing => ?_) fun _ => trivial
      refine Keeps.seq ?_ (fun o => Run.post getOperationForTenant_keeps fun _ _ _ => trivial)
        fun _ => trivial
      unfold retainedIssueOperation
      split
      · exact Keeps.throw
      · split_ifs
        · exact Keeps.pure
        · exact Keeps.throw
    · refine Keeps.seq (readAndSynchronize_keeps issue_neutral issueChanges_allowed
        issueChanges_adoptable) (fun remote => ?_) fun _ => trivial
      refine Run.seq (Run.post claim_run fun r ψ hψ => ?_)
      cases r with
      | error _ => trivial
      | ok claimed =>
        dsimp only
        split_ifs with hsubmit
        · obtain rfl := hψ claimed rfl hsubmit
          exact Run.seq (Run.record fun s hs => ⟨_, call_step hs.inv hs.holds, conclude_run⟩)
        · exact Run.post getOperationForTenant_keeps fun _ _ _ => trivial

end Programs

/-! ## Every run -/

/-- What may happen around an exchange. -/
inductive ExchangeRequest where
  | issue (req : IssueRequest)
  | reconcile (agent : ExchangeAgent) (tenantId id : Uuid)
  | deliver (d : Delivery)

def exchangeHandler : ExchangeRequest → ℕ → Service Unit
  | .issue req, i => req.issue i
  | .reconcile agent tenantId id, i => do
      let _ ← reconcileExchange i agent tenantId id
      pure ()
  | .deliver d, i => d.process i

/-- Every request is served within the contract. -/
theorem exchangeHandler_serves {C : Label → Db → Prop} :
    issueContract.Serves index C exchangeHandler := by
  intro r i
  cases r with
  | issue req => exact issue_run
  | reconcile agent tenantId id =>
    refine Run.post (Keeps.bind (reconcileExchange_keeps issue_neutral issueChanges_allowed
      issueChanges_adoptable) fun _ => Keeps.pure) fun _ _ _ => trivial
  | deliver d =>
    exact Run.post (d.process_keeps issue_neutral issueChanges_allowed) fun _ _ _ => trivial

/-- A database in which nothing has been committed yet and no exchange is submitted. -/
structure IssueStart (keys : List Key) (p : Committed) : Prop where
  keys : ∀ k, p.row k ≠ none → k ∈ keys
  index : index.Respected p.row
  history : p.history = []
  notSubmitted : ∀ x (e : CredentialExchange), p.row (.exchange x) = some e →
    e.issueSubmission = .notSubmitted

/-- The invariant holds at the start. -/
theorem IssueStart.inv {keys : List Key} (h : IssueStart keys p) : issueContract.inv p := by
  refine ⟨fun x => ⟨.free, ?_, ?_, fun o ho => by simp [Slot.ticket] at ho⟩, fun c hc => ?_⟩
  · simp [issueSlot, Pub.log, h.history, run]
  · cases hx : p.row (.exchange x) with
    | none => rfl
    | some e => simp [CredentialExchange.claim, h.notSubmitted x e hx, Slot.ticket]
  · simp [h.history] at hc

/-- **One submission at a time.**  In every run with crashes: between two calls to issue the
credential of one exchange lies the commit that took the first one back; and an exchange whose
submission is taken names the issue Operation written by its last claim. -/
theorem issue_calls_separated {keys : List Key} {p₀ : Committed} (h₀ : IssueStart keys p₀)
    {c : Config Db Label}
    (hc : Reach (service true exchangeHandler) Always (Store.initial keys p₀) c) :
    (∀ x o₁ o₂ pre a mid b post, c.state.pub.log = pre ++ a :: mid ++ b :: post →
      a.2 = some (.call (.issueCredential x o₁)) → b.2 = some (.call (.issueCredential x o₂)) →
      ∃ r ∈ mid, (∃ tenantId, r.2 = some (.dispatch tenantId .issueFailed (.row o₁))) ∧
        ∃ e : CredentialExchange, r.1.tx.writes (.exchange x) = some (some e) ∧
          e.issueSubmission = .notSubmitted) ∧
    ∀ x (e : CredentialExchange), c.state.pub.row (.exchange x) = some e →
      e.issueSubmission ≠ .notSubmitted →
      ∃ o, e.issueOperationId = some o ∧
        (∃ op : Operation, c.state.pub.row (.operation o) = some op ∧
          op.type = .credentialIssue ∧ op.exchangeId = some x) ∧
        ∃ pre a post, c.state.pub.log = pre ++ a :: post ∧ a.2 = some (.issueAudit x o) ∧
          (∃ op : Operation, a.1.tx.writes (.operation o) = some (some op)) ∧
          ∀ b ∈ post, ∀ o', b.2 ≠ some (.issueAudit x o') := by
  obtain ⟨-, hslots, hrec⟩ := StoreContract.sound exchangeHandler_serves h₀.keys h₀.index h₀.inv
    (fun _ => trivial) hc
  refine ⟨fun x o₁ o₂ pre a mid b post hlog ha hb => ?_, fun x e he hsub => ?_⟩
  · obtain ⟨s, hs⟩ := hslots x
    have hrun := hs.slot
    rw [issueSlot, hlog] at hrun
    obtain ⟨r, hr, hact⟩ := separated hrun
      (show issueAct x a = some (.call o₁) by simp [issueAct, ha])
      (show issueAct x b = some (.call o₂) by simp [issueAct, hb])
    exact ⟨r, hr, issueAct_release hact⟩
  · obtain ⟨s, hs⟩ := hslots x
    have hclaim := hs.exchange
    rw [he, Option.bind_some, CredentialExchange.claim, if_neg hsub] at hclaim
    obtain ⟨o, ho, hopt⟩ := Option.map_eq_some_iff.mp hclaim.symm
    obtain ⟨pre, a, post, hlog, ha, hlast⟩ := last_claim hs.slot ho
    have haudit := issueAct_claim.mp ha
    refine ⟨o, hopt.symm, hs.operation o ho, pre, a, post, hlog, haudit, ?_, fun b hb o' hbo => ?_⟩
    · obtain ⟨hmem, hev⟩ := Pub.mem_log (show a ∈ c.state.pub.log by simp [hlog])
      exact (hrec a.1 hmem x o (hev _ haudit)).1
    · exact hlast b hb o' (issueAct_claim.mpr hbo)

/-- A connection that the agent knows as `"conn"`. -/
def boundConnection : Connection where
  tenantId := 1
  externalConnectionId := some "conn"
  theirLabel := none
  theirDid := none
  state := .active
  connectorId := some 7
  protocol := .didcommV1
  metadata := ⟨none, none, none⟩

/-- An exchange over it in which the holder has asked for the credential. -/
def requestedExchange : CredentialExchange where
  tenantId := 1
  connectorId := 7
  connectionId := some 3
  role := .issuer
  protocol := "didcomm-v1"
  format := .anoncreds
  state := .agent .requestReceived
  externalId := some "ext"
  issueSubmission := .notSubmitted
  issueOperationId := none

def requestedRows : List ((k : Key) × Row k) :=
  [⟨.exchange 2, requestedExchange⟩, ⟨.connection 3, boundConnection⟩, ⟨.tenant 1, ⟨none, none⟩⟩]

def reportingAgent : ExchangeAgent where
  resolve := .ok ()
  getExchange := .ok ⟨"ext", some "ext", some "conn", .requestReceived, none⟩
  connection := ⟨.ok (), .ok ⟨"conn", .active, some "didcomm-v1", none, none, none⟩, .ok []⟩

/-- An issuance that the agent answers with `issued`. -/
def issueRequest (operationId : Uuid) (issued : Except Failure RemoteExchange) : IssueRequest :=
  ⟨1, 2, operationId, 0, reportingAgent, issued, reportingAgent.connection⟩

theorem requestedRows_start :
    IssueStart (requestedRows.map Sigma.fst) (Pub.ofRows requestedRows) where
  keys _ hk := Pub.keys_ofRows hk
  index := Index.respected_ofRows (by decide)
  history := rfl
  notSubmitted x e he := by
    have hmem : (⟨.exchange x, e⟩ : (k : Key) × Row k) ∈ requestedRows := Pub.mem_of_ofRows he
    have hall : ∀ r ∈ requestedRows, ∀ (y : Uuid) (f : CredentialExchange),
        r = ⟨.exchange y, f⟩ → f.issueSubmission = .notSubmitted := by
      simp only [requestedRows, List.forall_mem_cons]
      simp [requestedExchange]
    exact hall _ hmem x e rfl

/-- An issuance that the agent refuses, and after it one whose answer is lost. -/
def refusedThenLost : List (Move ExchangeRequest) :=
  .spawn (.issue (issueRequest 10 (.error (.submissionRejected .validation)))) ::
    List.replicate 32 (.run 0) ++
    .spawn (.issue (issueRequest 11 (.error (.other "socket hang up")))) ::
    List.replicate 25 (.run 1)

theorem refusedThenLost_result :
    ((service true exchangeHandler).exec
      ⟨Store.initial (requestedRows.map Sigma.fst) (Pub.ofRows requestedRows), []⟩
        refusedThenLost).map
        (fun c => (c.state.pub.trace, c.state.pub.row (.exchange 2))) =
      some ([.issueAudit 2 10, .call (.issueCredential 2 10),
          .dispatch 1 .issueFailed (.row 10), .issueAudit 2 11, .call (.issueCredential 2 11)],
        some { requestedExchange with
          issueSubmission := .uncertain
          issueOperationId := some 11 }) := by
  decide +kernel

/-- In that run the exchange ends up naming the Operation of the second claim, and the two
calls are separated by the retraction of the first. -/
theorem issue_calls_separated_refusedThenLost :
    ∃ c, (service true exchangeHandler).exec
        ⟨Store.initial (requestedRows.map Sigma.fst) (Pub.ofRows requestedRows), []⟩
          refusedThenLost =
          some c ∧
      (∀ pre a mid b post, c.state.pub.log = pre ++ a :: mid ++ b :: post →
        a.2 = some (.call (.issueCredential 2 10)) → b.2 = some (.call (.issueCredential 2 11)) →
        ∃ r ∈ mid, ∃ tenantId, r.2 = some (.dispatch tenantId .issueFailed (.row 10))) ∧
      ∃ op : Operation, c.state.pub.row (.operation 11) = some op ∧ op.type = .credentialIssue ∧
        op.exchangeId = some 2 := by
  obtain ⟨c, hexec, hres⟩ := Option.map_eq_some_iff.mp refusedThenLost_result
  obtain ⟨-, hrow⟩ := Prod.mk.inj hres
  obtain ⟨hsep, hnamed⟩ := issue_calls_separated requestedRows_start
    (reach_exec hexec)
  refine ⟨c, hexec, fun pre a mid b post hlog ha hb => ?_, ?_⟩
  · obtain ⟨r, hr, hdispatch, -⟩ := hsep 2 10 11 pre a mid b post hlog ha hb
    exact ⟨r, hr, hdispatch⟩
  · obtain ⟨o, ho, hop, -⟩ := hnamed 2 _ hrow (by simp)
    obtain rfl : 11 = o := by simpa using ho
    exact hop

end DigitalTrust
