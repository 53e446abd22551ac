/-
# Racing sign-ins

`claimAllInvitedByEmail` of `tenant-user.service.ts` when several sign-ins of one identity run at
the same time.  A sign-in reads the invitations at its email, then the rows that the identity
already has, and then claims one invitation after another.  A tenant that has no row of the
identity at the second read had none at the first, so every sign-in tries the same invitation.
-/
import DigitalTrust.Interleaving
import DigitalTrust.TenantUsers

namespace DigitalTrust.InviteClaims

open Interleaving Relational
open Users (older)

/-! ## The sweep, statement by statement -/

/-- A claim that was committed, with the table before it. -/
structure Claim where
  tenantId : Uuid
  id : Uuid
  before : Users
  deriving DecidableEq

/-- The table, the claims committed so far, and the errors of the claims that failed. -/
structure Sweep where
  users : Users
  claims : List Claim
  violations : List Failure

abbrev Program := Proc Sweep Unit Unit

/-- A statement that may fail, which ends the call. -/
def statement (f : Sweep → Sweep) (k : Sweep → Program) : Program := .statement () true f () k

def query (k : Sweep → Program) : Program := statement id k

/-- The `UPDATE` of `claimInvitedById`. -/
def claimRow (tenantId id : Uuid) (externalUserId : String) (s : Sweep) : Sweep :=
  match s.users.claimInvitedById id externalUserId with
  | .error e => { s with violations := e :: s.violations }
  | .ok (users, true) => { s with users, claims := ⟨tenantId, id, s.users⟩ :: s.claims }
  | .ok (_, false) => s

/-- The loop of `claimAllInvitedByEmail`. -/
def claimInvites (externalUserId : String) : List (Uuid × TenantUser) → List Uuid → Program
  | [], _ => .ret ()
  | (id, invite) :: invites, takenTenantIds =>
    if invite.tenantId ∈ takenTenantIds then claimInvites externalUserId invites takenTenantIds
    else
      let rest := claimInvites externalUserId invites (invite.tenantId :: takenTenantIds)
      statement (claimRow invite.tenantId id externalUserId) fun s =>
        match s.users.claimInvitedById id externalUserId with
        | .error _ => .ret ()
        | .ok (_, false) => rest
        -- the claimed row is read again, then the audit event is written
        | .ok (_, true) => query fun _ => query fun _ => rest

def claimAllInvitedByEmail (q : UserQueries) (email externalUserId : String) : Program :=
  query fun s =>
    let invites := s.users.findUnclaimedInvitesByEmail q email
    if invites = [] then .ret ()
    else query fun s =>
      claimInvites externalUserId invites
        ((s.users.findByExternalUserId externalUserId).map fun x => x.2.tenantId)

/-- Any number of sign-ins of one identity with one email; a sign-in may also be cut off. -/
def signIns (q : UserQueries) (email externalUserId : String) : System Sweep Unit Unit where
  prog _ _ := claimAllInvitedByEmail q email externalUserId
  crash := some fun _ s => s

/-! ## The oldest invitation of a tenant -/

theorem older_iff {a b : Uuid × TenantUser} : older a b = true ↔
    a.2.createdAt < b.2.createdAt ∨ a.2.createdAt = b.2.createdAt ∧ a.1 ≤ b.1 := by
  simp [older]

/-- The condition of `findUnclaimedInvitesByEmail`. -/
def claimable (q : UserQueries) (email : String) (u : TenantUser) : Bool :=
  q.live u.tenantId && q.lower u.email = q.lower (q.trim email) && u.externalUserId = none &&
    u.status = .invited

/-- The invitation is the oldest one of the tenant that can be claimed. -/
def IsOldest (q : UserQueries) (email : String) (t : Users) (tenantId id : Uuid) : Prop :=
  ∃ u, t.row id = some u ∧ u.tenantId = tenantId ∧ claimable q email u = true ∧
    ∀ id' u', t.row id' = some u' → u'.tenantId = tenantId → claimable q email u' = true →
      older (id, u) (id', u') = true

variable {tenantId id id' : Uuid}

section Oldest

variable {q : UserQueries} {email : String}

variable {t : Users}

/-- There is one oldest invitation. -/
theorem IsOldest.unique (h : IsOldest q email t tenantId id)
    (h' : IsOldest q email t tenantId id') : id = id' := by
  obtain ⟨u, hu, htenant, hclaimable, hleast⟩ := h
  obtain ⟨u', hu', htenant', hclaimable', hleast'⟩ := h'
  have hle := older_iff.mp (hleast id' u' hu' htenant' hclaimable')
  have hge := older_iff.mp (hleast' id u hu htenant hclaimable)
  grind

/-- Only the rows of the tenant matter. -/
theorem IsOldest.congr {t' : Users}
    (hrows : ∀ id u, u.tenantId = tenantId → (t.row id = some u ↔ t'.row id = some u))
    (h : IsOldest q email t tenantId id) : IsOldest q email t' tenantId id := by
  obtain ⟨u, hu, htenant, hclaimable, hleast⟩ := h
  exact ⟨u, (hrows id u htenant).mp hu, htenant, hclaimable, fun id' u' hu' htenant' =>
    hleast id' u' ((hrows id' u' htenant').mpr hu') htenant'⟩

/-- The first invitation of a tenant that the query returns is its oldest. -/
theorem isOldest_of_find? {x : Uuid × TenantUser}
    (h : (t.findUnclaimedInvitesByEmail q email).find? (fun x => x.2.tenantId = tenantId) =
      some x) : IsOldest q email t tenantId x.1 := by
  have hmem : ∀ y, y ∈ t.findUnclaimedInvitesByEmail q email ↔
      t.row y.1 = some y.2 ∧ claimable q email y.2 = true := fun y => by
    rw [Users.findUnclaimedInvitesByEmail, Users.oldestFirst, List.mem_insertionSort,
      Table.mem_select]
    rfl
  have hsorted : (t.findUnclaimedInvitesByEmail q email).Pairwise fun a b => older a b = true := by
    have htotal : Std.Total fun a b : Uuid × TenantUser => older a b = true :=
      ⟨fun a b => by rw [older_iff, older_iff]; grind⟩
    have htrans : IsTrans (Uuid × TenantUser) fun a b => older a b = true :=
      ⟨fun a b c => by rw [older_iff, older_iff, older_iff]; grind⟩
    exact List.pairwise_insertionSort _ _
  obtain ⟨hx, before, after, hsplit, hbefore⟩ := List.find?_eq_some_iff_append.mp h
  have hxmem := (hmem x).mp (by rw [hsplit]; simp)
  refine ⟨x.2, hxmem.1, by simpa using hx, hxmem.2, fun id' u' hu' htenant' hclaimable' => ?_⟩
  have hy : (id', u') ∈ before ++ x :: after := hsplit ▸ (hmem (id', u')).mpr ⟨hu', hclaimable'⟩
  rw [hsplit, List.pairwise_append] at hsorted
  obtain hin | hin := List.mem_append.mp hy
  · exact absurd htenant' (by simpa using hbefore _ hin)
  · obtain rfl | hin := List.mem_cons.mp hin
    · exact older_iff.mpr (Or.inr ⟨rfl, le_rfl⟩)
    · exact (List.pairwise_cons.mp hsorted.2.1).1 _ hin

end Oldest

/-! ## What the table may become -/

/-- The identity has no row in the tenant. -/
def NoMember (externalUserId : String) (t : Users) (tenantId : Uuid) : Prop :=
  ∀ id u, t.row id = some u → u.tenantId = tenantId → u.externalUserId ≠ some externalUserId

/-- The row after its claim. -/
def claimed (externalUserId : String) (u : TenantUser) : TenantUser :=
  { u with externalUserId := some externalUserId, status := .active }

/-- The unique indexes of the table. -/
def Respected (t : Users) : Prop :=
  ∀ id u id' u', t.row id = some u → t.row id' = some u' → id' ≠ id → u.clash u' = false

/-- The target of every sign-in in a tenant without the identity: the oldest invitation at the
beginning. -/
structure Target (q : UserQueries) (email externalUserId : String) (t₀ : Users)
    (tenantId id : Uuid) : Prop where
  oldest : IsOldest q email t₀ tenantId id
  noMember : NoMember externalUserId t₀ tenantId

/-- Each row is as it was at the beginning, or it was a target and is claimed. -/
def Advanced (q : UserQueries) (email externalUserId : String) (t₀ t : Users) : Prop :=
  ∀ id, t.row id = t₀.row id ∨ ∃ u, t₀.row id = some u ∧
    Target q email externalUserId t₀ u.tenantId id ∧ t.row id = some (claimed externalUserId u)

section Table

variable {q : UserQueries} {email externalUserId : String} {t₀ t : Users} {tenantId : Uuid}

/-- Only one invitation of a tenant is a target. -/
theorem Target.unique (h : Target q email externalUserId t₀ tenantId id)
    (h' : Target q email externalUserId t₀ tenantId id') : id = id' :=
  h.oldest.unique h'.oldest

/-- The target of a tenant is a row without an identity that is still invited. -/
theorem Target.row (h : Target q email externalUserId t₀ tenantId id) :
    ∃ u, t₀.row id = some u ∧ u.tenantId = tenantId ∧ u.externalUserId = none ∧
      u.status = .invited := by
  obtain ⟨u, hu, htenant, hclaimable, -⟩ := h.oldest
  simp only [claimable, Bool.and_eq_true, decide_eq_true_eq] at hclaimable
  exact ⟨u, hu, htenant, hclaimable.1.2, hclaimable.2⟩

/-- A tenant whose target is not claimed has the rows of the beginning. -/
theorem Advanced.sameRows (h : Advanced q email externalUserId t₀ t)
    (hnot : ∀ id u, Target q email externalUserId t₀ tenantId id → t₀.row id = some u →
      t.row id ≠ some (claimed externalUserId u)) (id : Uuid) (u : TenantUser)
    (htenant : u.tenantId = tenantId) : t.row id = some u ↔ t₀.row id = some u := by
  obtain hsame | ⟨u₀, hu₀, htarget, hclaimed⟩ := h id
  · rw [hsame]
  · -- a claimed row belongs to another tenant
    have hother : u₀.tenantId ≠ tenantId := fun he => hnot id u₀ (he ▸ htarget) hu₀ hclaimed
    rw [hclaimed, hu₀, Option.some.injEq, Option.some.injEq]
    constructor
    · rintro rfl
      exact absurd htenant hother
    · rintro rfl
      exact absurd htenant hother

/-- Claimed rows are rows of the identity. -/
theorem NoMember.not_claimed (h : NoMember externalUserId t tenantId) (id : Uuid) (u : TenantUser)
    (htarget : Target q email externalUserId t₀ tenantId id) (hu : t₀.row id = some u) :
    t.row id ≠ some (claimed externalUserId u) := by
  obtain ⟨u', hu', htenant, -⟩ := htarget.row
  obtain rfl := Option.mem_unique hu hu'
  exact fun hclaimed => h id _ hclaimed htenant rfl

/-- The rows of the identity at the beginning stay. -/
theorem Advanced.noMember (h : Advanced q email externalUserId t₀ t)
    (hno : NoMember externalUserId t tenantId) : NoMember externalUserId t₀ tenantId := by
  intro id u hu htenant
  exact hno id u ((h.sameRows hno.not_claimed id u htenant).mpr hu) htenant

theorem clash_iff {a b : TenantUser} : a.clash b = true ↔ a.tenantId = b.tenantId ∧
    (a.externalUserId.isSome ∧ a.externalUserId = b.externalUserId ∨ a.email = b.email) := by
  simp [TenantUser.clash]

variable {u : TenantUser}

/-- No unique index is in the way of the claim of a target. -/
theorem not_refused (hunique : Respected t₀) (h : Advanced q email externalUserId t₀ t)
    (htarget : Target q email externalUserId t₀ tenantId id) (hu : t₀.row id = some u)
    (htenant : u.tenantId = tenantId) : t.refuses id (claimed externalUserId u) = false := by
  rw [Users.refuses, Option.isSome_eq_false_iff, Option.isNone_iff_eq_none, Table.first_eq_none]
  intro id' u' hu'
  by_contra hrefused
  obtain ⟨hid, hclash⟩ := Bool.and_eq_true_iff.mp (Bool.not_eq_false _ ▸ hrefused)
  have hid : id' ≠ id := of_decide_eq_true hid
  obtain ⟨hsame, hclash⟩ := clash_iff.mp hclash
  have htenant' : u'.tenantId = tenantId := hsame.symm.trans htenant
  -- another row of the tenant is as at the beginning
  have hrow' : t₀.row id' = some u' := by
    obtain hsame' | ⟨u₀, hu₀, htarget', hclaimed'⟩ := h id'
    · exact hsame' ▸ hu'
    · obtain rfl : u' = claimed externalUserId u₀ := Option.mem_unique hu' hclaimed'
      have htarget₀ : Target q email externalUserId t₀ tenantId id' := htenant' ▸ htarget'
      exact absurd (htarget₀.unique htarget) hid
  obtain ⟨-, hext⟩ | hmail := hclash
  · exact htarget.noMember id' u' hrow' htenant' hext.symm
  · have hclash₀ : u.clash u' = true := clash_iff.mpr ⟨hsame, Or.inr hmail⟩
    rw [hunique id u id' u' hu hrow' hid] at hclash₀
    exact Bool.false_ne_true hclash₀

/-- A row of the identity was one at the beginning, or it was a target. -/
theorem Advanced.member (h : Advanced q email externalUserId t₀ t) (hu : t.row id = some u) :
    t₀.row id = some u ∨ Target q email externalUserId t₀ u.tenantId id := by
  obtain hsame | ⟨u₀, -, htarget, hclaimed⟩ := h id
  · exact Or.inl (hsame ▸ hu)
  · obtain rfl := Option.mem_unique hu hclaimed
    exact Or.inr htarget

/-- At most one row per tenant has the identity. -/
theorem Advanced.unique_member (hunique : Respected t₀) (h : Advanced q email externalUserId t₀ t)
    {u' : TenantUser} (hu : t.row id = some u) (hu' : t.row id' = some u')
    (hext : u.externalUserId = some externalUserId)
    (hext' : u'.externalUserId = some externalUserId) (htenant : u.tenantId = u'.tenantId) :
    id = id' := by
  obtain hold | htarget := h.member hu <;> obtain hold' | htarget' := h.member hu'
  · by_contra hne
    have hclash : u.clash u' = true := clash_iff.mpr ⟨htenant, Or.inl (by simp [hext, hext'])⟩
    rw [hunique id u id' u' hold hold' (Ne.symm hne)] at hclash
    exact Bool.false_ne_true hclash
  · exact absurd hext (htarget'.noMember id u hold htenant)
  · exact absurd hext' (htarget.noMember id' u' hold' htenant.symm)
  · exact htarget.unique (htenant ▸ htarget')

/-- What the claim of a target does: nothing when it is claimed already, otherwise the row is
claimed. -/
theorem claimInvitedById_target (hunique : Respected t₀) (h : Advanced q email externalUserId t₀ t)
    (htarget : Target q email externalUserId t₀ tenantId id) :
    (∃ u, t₀.row id = some u ∧ t.row id = some (claimed externalUserId u) ∧
      t.claimInvitedById id externalUserId = .ok (t, false)) ∨
    ∃ u, t₀.row id = some u ∧ t.row id = some u ∧
      t.claimInvitedById id externalUserId = .ok (t.put id (claimed externalUserId u), true) := by
  obtain ⟨u, hu, htenant, hnone, hinvited⟩ := htarget.row
  obtain hsame | ⟨u', hu', -, hclaimed⟩ := h id
  · have hrow : t.row id = some u := hsame.trans hu
    have hfree := not_refused hunique h htarget hu htenant
    refine Or.inr ⟨u, hu, hrow, ?_⟩
    simp only [Users.claimInvitedById, hrow, hnone, hinvited, and_self, if_true, Users.save]
    rw [show ({ u with externalUserId := some externalUserId, status := .active } : TenantUser) =
      claimed externalUserId u from rfl, hfree]
    rfl
  · obtain rfl := Option.mem_unique hu hu'
    exact Or.inl ⟨u, hu, hclaimed, by simp [Users.claimInvitedById, hclaimed, claimed]⟩

end Table

/-! ## The contract -/

section Contract

variable (q : UserQueries) (email externalUserId : String) (t₀ : Users)

/-- What holds of the table and the claims between any two statements. -/
structure Invariant (s : Sweep) : Prop where
  advanced : Advanced q email externalUserId t₀ s.users
  noViolation : s.violations = []
  nodup : (s.claims.map Claim.tenantId).Nodup
  oldest : ∀ claim ∈ s.claims, IsOldest q email claim.before claim.tenantId claim.id
  taken : ∀ claim ∈ s.claims, ∃ u, t₀.row claim.id = some u ∧
    Target q email externalUserId t₀ claim.tenantId claim.id ∧
      s.users.row claim.id = some (claimed externalUserId u)
  logged : ∀ id, s.users.row id = t₀.row id ∨ ∃ claim ∈ s.claims, claim.id = id

/-- No statement takes the identity's row in a tenant away. -/
def contract : Contract Sweep where
  inv := Invariant q email externalUserId t₀
  rely _ s s' := ∀ tenantId, NoMember externalUserId s'.users tenantId →
    NoMember externalUserId s.users tenantId
  start _ _ := True

variable {q email externalUserId t₀}

/-- The claim of a target keeps the invariant. -/
theorem claimRow_target (hunique : Respected t₀) {s : Sweep}
    (hinv : Invariant q email externalUserId t₀ s)
    (htarget : Target q email externalUserId t₀ tenantId id) :
    Invariant q email externalUserId t₀ (claimRow tenantId id externalUserId s) ∧
      ∀ tenantId', NoMember externalUserId (claimRow tenantId id externalUserId s).users tenantId' →
        NoMember externalUserId s.users tenantId' := by
  obtain ⟨u, hu, hrow, hclaim⟩ | ⟨u, hu, hrow, hclaim⟩ :=
    claimInvitedById_target hunique hinv.advanced htarget
  · rw [claimRow, hclaim]
    exact ⟨hinv, fun _ h => h⟩
  · obtain ⟨u', hu', htenant, hnone, -⟩ := htarget.row
    obtain rfl := Option.mem_unique hu hu'
    have hrows : ∀ id', (s.users.put id (claimed externalUserId u)).row id' =
        if id' = id then some (claimed externalUserId u) else s.users.row id' := fun id' => by
      rw [Table.row_put, hrow, Option.map_some]
    have hunclaimed : ∀ id' v, Target q email externalUserId t₀ tenantId id' → t₀.row id' = some v →
        s.users.row id' ≠ some (claimed externalUserId v) := fun id' v htarget' hv hclaimed => by
      rw [htarget'.unique htarget, hrow] at hclaimed
      exact absurd (congrArg TenantUser.externalUserId (Option.some.inj hclaimed))
        (by simp [hnone, claimed])
    -- no claim of the tenant came before: its row would be this one
    have hfirst : ∀ claim ∈ s.claims, claim.tenantId ≠ tenantId := fun claim hmem he => by
      obtain ⟨v, hv, htarget', hclaimed⟩ := hinv.taken claim hmem
      exact hunclaimed claim.id v (he ▸ htarget') hv hclaimed
    rw [claimRow, hclaim]
    refine ⟨⟨fun id' => ?_, hinv.noViolation, ?_, fun claim hmem => ?_, fun claim hmem => ?_,
      fun id' => ?_⟩, fun tenantId' hno id' v hv htenant' hext => ?_⟩
    · simp only [hrows]
      split_ifs with hid
      · exact Or.inr ⟨u, hid ▸ hu, by rw [htenant, hid]; exact htarget, rfl⟩
      · exact hinv.advanced id'
    · simp only [List.map_cons, List.nodup_cons, List.mem_map, not_exists, not_and]
      exact ⟨fun claim hmem he => hfirst claim hmem he, hinv.nodup⟩
    · obtain rfl | hold := List.mem_cons.mp hmem
      · exact htarget.oldest.congr fun id' v hv =>
          (hinv.advanced.sameRows hunclaimed id' v hv).symm
      · exact hinv.oldest claim hold
    · obtain rfl | hold := List.mem_cons.mp hmem
      · exact ⟨u, hu, htarget, by simp only [hrows, if_true]⟩
      · obtain ⟨v, hv, htarget', hclaimed⟩ := hinv.taken claim hold
        refine ⟨v, hv, htarget', ?_⟩
        simp only [hrows]
        split_ifs with hid
        · rw [hid] at hv
          rw [Option.mem_unique hu hv]
        · exact hclaimed
    · simp only [hrows]
      split_ifs with hid
      · exact Or.inr ⟨_, List.mem_cons_self, hid.symm⟩
      · refine (hinv.logged id').imp_right fun hlogged => ?_
        obtain ⟨claim, hmem, hclaim⟩ := hlogged
        exact ⟨claim, List.mem_cons_of_mem _ hmem, hclaim⟩
    · -- a row of the identity is not the one that is claimed here
      have hid : id' ≠ id := by
        rintro rfl
        rw [Option.mem_unique hrow hv] at hnone
        rw [hnone] at hext
        exact absurd hext (by simp)
      exact hno id' v (by simp only [hrows, if_neg hid]; exact hv) htenant' hext

variable {i : ℕ}

/-! ### Programs -/

/-- The rule for a query. -/
theorem query_ok {k : Sweep → Program} {P : Sweep → Prop}
    (h : ∀ s, Invariant q email externalUserId t₀ s → P s → ∃ P', P' s ∧
      (contract q email externalUserId t₀).Stable i P' ∧
        (contract q email externalUserId t₀).Ok Always i (fun _ _ => True) (k s) P') :
    (contract q email externalUserId t₀).Ok Always i (fun _ _ => True) (query k) P :=
  .statement (fun _ _ _ _ => trivial) fun s hinv hP _ => ⟨hinv, fun _ _ _ hno => hno, h s hinv hP⟩

/-- The loop: of each tenant that is not taken, the invitation it comes to first is the
target. -/
theorem claimInvites_ok (hunique : Respected t₀) (invites : List (Uuid × TenantUser)) :
    ∀ takenTenantIds : List Uuid,
      (∀ tenantId, tenantId ∉ takenTenantIds → ∀ x,
        invites.find? (fun x => x.2.tenantId = tenantId) = some x →
          Target q email externalUserId t₀ tenantId x.1) →
      (contract q email externalUserId t₀).Ok Always i (fun _ _ => True)
        (claimInvites externalUserId invites takenTenantIds) fun _ => True := by
  induction invites with
  | nil => exact fun _ _ _ _ _ => trivial
  | cons head invites ih =>
    obtain ⟨id, invite⟩ := head
    intro takenTenantIds htargets
    -- the other tenants' first invitations are in the rest
    have hrest : ∀ taken', invite.tenantId ∈ taken' → (∀ x ∈ takenTenantIds, x ∈ taken') →
        (contract q email externalUserId t₀).Ok Always i (fun _ _ => True)
          (claimInvites externalUserId invites taken') fun _ => True := by
      intro taken' hmem hsub
      refine ih taken' fun tenantId hnot x hx => htargets tenantId (fun h => hnot (hsub _ h)) x ?_
      have hne : invite.tenantId ≠ tenantId := fun h => hnot (h ▸ hmem)
      rw [List.find?_cons_of_neg (by simpa using hne)]
      exact hx
    rw [claimInvites]
    split_ifs with htaken
    · exact hrest takenTenantIds htaken fun _ h => h
    · have htarget := htargets invite.tenantId htaken (id, invite)
        (List.find?_cons_of_pos (by simp))
      have hnext := hrest (invite.tenantId :: takenTenantIds) List.mem_cons_self
        fun _ h => List.mem_cons_of_mem _ h
      have hquery : ∀ {p : Program}, (contract q email externalUserId t₀).Ok Always i
          (fun _ _ => True) p (fun _ => True) → (contract q email externalUserId t₀).Ok Always i
            (fun _ _ => True) (query fun _ => p) fun _ => True := fun hp =>
        query_ok fun _ _ _ => ⟨fun _ => True, trivial, .const True, hp⟩
      refine .statement (fun _ _ _ _ => trivial) fun s hinv _ _ => ?_
      obtain ⟨hinv', hrely⟩ := claimRow_target hunique hinv htarget
      refine ⟨hinv', fun _ _ => hrely, fun _ => True, trivial, .const True, ?_⟩
      split
      · exact fun _ _ _ => trivial
      · exact hnext
      · exact hquery (hquery hnext)

/-- A sign-in. -/
theorem claimAllInvitedByEmail_ok (hunique : Respected t₀) :
    (contract q email externalUserId t₀).Ok Always i (fun _ _ => True)
      (claimAllInvitedByEmail q email externalUserId) fun _ => True := by
  refine query_ok fun s hinv _ => ?_
  -- what the sign-in knows of the invitations it has read
  refine ⟨fun s' => ∀ tenantId, NoMember externalUserId s'.users tenantId → ∀ x,
    (s.users.findUnclaimedInvitesByEmail q email).find? (fun x => x.2.tenantId = tenantId) =
      some x →
      Target q email externalUserId t₀ tenantId x.1, ?_, ?_, ?_⟩
  · intro tenantId hno x hx
    refine ⟨(isOldest_of_find? hx).congr ?_, hinv.advanced.noMember hno⟩
    exact hinv.advanced.sameRows hno.not_claimed
  · exact fun s₁ s₂ _ _ hknown hrely tenantId hno => hknown tenantId (hrely tenantId hno)
  · simp only
    split_ifs
    · exact fun _ _ _ => trivial
    · refine query_ok fun s₂ hinv₂ hknown => ⟨fun _ => True, trivial, .const True, ?_⟩
      refine claimInvites_ok hunique _ _ fun tenantId hnot x hx => hknown tenantId ?_ x hx
      -- a tenant that is not taken has no row of the identity
      intro id u hu htenant hext
      refine hnot (List.mem_map.mpr ⟨(id, u), ?_, htenant⟩)
      exact Table.mem_select.mpr ⟨hu, decide_eq_true hext⟩

/-- **Racing sign-ins.**  In every interleaving of sign-ins of one identity with one email: no claim
violates a unique index; at most one row per tenant has the identity; no row changes but by a claim;
of each tenant at most one invitation is claimed, the oldest that could be. -/
theorem claims_of_racing_signIns (q : UserQueries) (email externalUserId : String) (t₀ : Users)
    (hunique : Respected t₀) (c : Config Sweep Unit)
    (hc : Reach (signIns q email externalUserId) Always ⟨t₀, [], []⟩ c) :
    c.state.violations = [] ∧
      (∀ id u id' u', c.state.users.row id = some u → c.state.users.row id' = some u' →
        u.externalUserId = some externalUserId → u'.externalUserId = some externalUserId →
          u.tenantId = u'.tenantId → id = id') ∧
      (∀ id, c.state.users.row id = t₀.row id ∨ ∃ claim ∈ c.state.claims, claim.id = id) ∧
      (c.state.claims.map Claim.tenantId).Nodup ∧
      ∀ claim ∈ c.state.claims, IsOldest q email claim.before claim.tenantId claim.id := by
  have hstart : Invariant q email externalUserId t₀ ⟨t₀, [], []⟩ :=
    ⟨fun _ => Or.inl rfl, rfl, List.nodup_nil, fun _ h => absurd h List.not_mem_nil,
      fun _ h => absurd h List.not_mem_nil, fun _ => Or.inl rfl⟩
  have hfollows : (contract q email externalUserId t₀).Follows (signIns q email externalUserId)
      Always :=
    ⟨fun _ => .const True, fun _ _ => claimAllInvitedByEmail_ok hunique, fun g hg i s hs => by
      obtain rfl := Option.some.inj hg
      exact ⟨hs, fun _ _ _ hno => hno⟩⟩
  have hinv : Invariant q email externalUserId t₀ c.state :=
    (Contract.sound hfollows hstart (fun _ => trivial) hc).inv
  exact ⟨hinv.noViolation, fun id u id' u' => hinv.advanced.unique_member hunique, hinv.logged,
    hinv.nodup, hinv.oldest⟩

end Contract

/-! ## Two sign-ins and two invitations -/

def sampleInvite (email : String) (createdAt : ℕ) : TenantUser :=
  ⟨7, none, email, none, .member, .invited, false, createdAt⟩

/-- Two invitations of one address, the second one older. -/
def twoInvites : Users := ⟨[(1, sampleInvite "user" 5), (2, sampleInvite "User" 3)], by decide⟩

/-- Queries that take the two addresses for the same. -/
def caselessQueries : UserQueries :=
  { plainQueries with lower := fun email => if email = "User" then "user" else email }

theorem respected_twoInvites : Respected twoInvites := by
  intro id u id' u' hu hu' hne
  have hmem := Table.row_eq_some.mp hu
  have hmem' := Table.row_eq_some.mp hu'
  simp only [twoInvites, List.mem_cons, List.not_mem_nil, or_false, Prod.mk.injEq] at hmem hmem'
  rcases hmem with ⟨rfl, rfl⟩ | ⟨rfl, rfl⟩ <;> rcases hmem' with ⟨rfl, rfl⟩ | ⟨rfl, rfl⟩
  all_goals first | exact absurd rfl hne | decide

/-- Both sign-ins have read everything before either claims. -/
def twoSignIns : List (Move Unit) :=
  [.spawn (), .spawn (), .run 0, .run 1, .run 0, .run 1, .run 1, .run 0, .run 1, .run 1]

/-- The older invitation is claimed once, and the other one stays. -/
theorem claims_of_racing_signIns_two :
    ∃ c, (signIns caselessQueries "user" "sub").exec ⟨⟨twoInvites, [], []⟩, []⟩
        twoSignIns = some c ∧
      c.state.claims = [⟨7, 2, twoInvites⟩] ∧ c.state.violations = [] ∧
      c.state.users.row 1 = some (sampleInvite "user" 5) ∧
      IsOldest caselessQueries "user" twoInvites 7 2 := by
  have hresult : ((signIns caselessQueries "user" "sub").exec
      ⟨⟨twoInvites, [], []⟩, []⟩ twoSignIns).map (fun c => (c.state.claims, c.state.users.row 1)) =
        some ([⟨7, 2, twoInvites⟩], some (sampleInvite "user" 5)) := by
    decide +kernel
  obtain ⟨c, hexec, hc⟩ := Option.map_eq_some_iff.mp hresult
  obtain ⟨hclaims, hother⟩ := Prod.mk.inj hc
  have htheorem := claims_of_racing_signIns caselessQueries "user" "sub" twoInvites
    respected_twoInvites c (reach_exec hexec)
  exact ⟨c, hexec, hclaims, htheorem.1, hother,
    htheorem.2.2.2.2 ⟨7, 2, twoInvites⟩ (by simp [hclaims])⟩

end DigitalTrust.InviteClaims
