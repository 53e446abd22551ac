/-
# Listing the users of a tenant

`list` of `tenant-user.service.ts`, beside the page itself (`ServiceListings`): the search that it
hands to the repository, and `self_actions_allowed`.
-/
import DigitalTrust.ServiceListings
import DigitalTrust.TenantUsers
import DigitalTrust.TextSearch
import DigitalTrust.TokenScopes

namespace DigitalTrust.TenantUserListing

open Json Relational TextSearch
open TokenScopes (trim)

/-! ## The search -/

section Search

open TenantUserRepository

/-- `...(options.search?.trim() ? { search: options.search.trim() } : {})`. -/
def searchOption (text : TextFunctions) (search : Option Text) : Option Text :=
  (search.map text.trim).filter (· ≠ [])

/-- The pattern that `findPageForTenant` builds for a search that it is given. -/
def searchPattern (text : TextFunctions) (search : Text) : Text :=
  '%' :: (escaped (text.toLowerCase (text.trim search)) ++ ['%'])

theorem like_percent_cons {p : Text} (hp : p ≠ []) (t : Text) :
    like ('%' :: p) t = t.tails.any (like p) := by
  cases p with
  | nil => exact absurd rfl hp
  | cons c p => cases t <;> simp [like]

/-- A character that is none of the special ones stands for itself. -/
theorem like_plain_cons {c : Char} (hc : c ∉ ['!', '%', '_']) {p : Text} (hp : p ≠ []) (d : Char)
    (t : Text) : like (c :: p) (d :: t) = (c = d && like p t) := by
  simp only [List.mem_cons, List.not_mem_nil, or_false, not_or] at hc
  obtain ⟨hbang, hpercent, hunder⟩ := hc
  cases p with
  | nil => exact absurd rfl hp
  | cons c' p => simp [like, hbang, hpercent, hunder]

theorem like_plain_nil {c : Char} (hc : c ∉ ['!', '%', '_']) {p : Text} (hp : p ≠ []) :
    like (c :: p) [] = false := by
  simp only [List.mem_cons, List.not_mem_nil, or_false, not_or] at hc
  obtain ⟨hbang, hpercent, hunder⟩ := hc
  cases p with
  | nil => exact absurd rfl hp
  | cons c' p => simp [like, hbang, hpercent]

/-- A character after the escape stands for itself. -/
theorem like_escape_cons (c : Char) (p : Text) (d : Char) (t : Text) :
    like ('!' :: c :: p) (d :: t) = (c = d && like p t) := by
  simp [like]

theorem escaped_cons (c : Char) (s : Text) :
    escaped (c :: s) = (if c ∈ ['!', '%', '_'] then ['!', c] else [c]) ++ escaped s :=
  List.flatMap_cons

/-- The escaped text, with any ending after it, matches what begins with the text. -/
theorem like_escaped_append (s t : Text) : like (escaped s ++ ['%']) t = true ↔ s <+: t := by
  induction s generalizing t with
  | nil => simp [escaped, like]
  | cons c s ih =>
    have hne : escaped s ++ ['%'] ≠ [] := by simp
    by_cases hc : c ∈ ['!', '%', '_']
    · have hcons : escaped (c :: s) ++ ['%'] = '!' :: c :: (escaped s ++ ['%']) := by
        rw [escaped_cons, if_pos hc, List.append_assoc]
        rfl
      rw [hcons]
      cases t with
      | nil => simp [like]
      | cons d t => rw [like_escape_cons, Bool.and_eq_true, ih, decide_eq_true_eq,
          List.cons_prefix_cons]
    · have hcons : escaped (c :: s) ++ ['%'] = c :: (escaped s ++ ['%']) := by
        rw [escaped_cons, if_neg hc, List.append_assoc]
        rfl
      rw [hcons]
      cases t with
      | nil => simp [like_plain_nil hc hne]
      | cons d t => rw [like_plain_cons hc hne, Bool.and_eq_true, ih, decide_eq_true_eq,
          List.cons_prefix_cons]

/-- Between two wildcards, the escaped text matches what contains the text. -/
theorem like_contains (s t : Text) : like ('%' :: (escaped s ++ ['%'])) t = true ↔ s <:+: t := by
  have hne : escaped s ++ ['%'] ≠ [] := by simp
  rw [like_percent_cons hne, List.any_eq_true, List.infix_iff_prefix_suffix]
  constructor
  · rintro ⟨u, hu, hlike⟩
    exact ⟨u, (like_escaped_append s u).mp hlike, (List.mem_tails u t).mp hu⟩
  · rintro ⟨u, hprefix, hsuffix⟩
    exact ⟨u, (List.mem_tails u t).mpr hsuffix, (like_escaped_append s u).mpr hprefix⟩

/-- For a search that is not blank, the rows listed are those with an occurrence of the lower-cased
trimmed search in the lower-cased email or display name. -/
theorem search_is_literal (text : TextFunctions) (htrim : text.trim = trim)
    (hlower : text.lower = text.toLowerCase) (search : Text) (hsearch : trim search ≠ []) :
    ∃ s, searchOption text (some search) = some s ∧
      (∀ value : Text, like (searchPattern text s) (text.lower value) = true ↔
        text.toLowerCase (trim search) <:+: text.toLowerCase value) ∧
      ∀ c : Columns, searched text (some s) c = true ↔
        text.toLowerCase (trim search) <:+: text.toLowerCase c.email ∨
          ∃ name, c.displayName = some name ∧
            text.toLowerCase (trim search) <:+: text.toLowerCase name := by
  have hs : text.trim (trim search) = trim search := by rw [htrim]; exact strip_strip _ _
  refine ⟨trim search, ?_, fun value => ?_, fun c => ?_⟩
  · simp [searchOption, htrim, hsearch]
  · rw [searchPattern, hs, like_contains, hlower]
  · simp only [searched, Option.map_some, hs, hlower]
    by_cases hempty : text.toLowerCase (trim search) = []
    · simp [hempty]
    · simp [hempty, like_contains, Option.any_eq_true_iff_get, Option.eq_some_iff_get_eq]

/-- Text functions that agree with the real ones on ASCII texts. -/
def asciiText : TextFunctions := ⟨trim, List.map Char.toLower, List.map Char.toLower⟩

/-- A search with wildcards in it. -/
theorem search_is_literal_sample :
    trim " 5%_A! ".toList ≠ [] ∧
      ∃ s, searchOption asciiText (some " 5%_A! ".toList) = some s ∧
        (∀ value : Text, like (searchPattern asciiText s) (asciiText.lower value) = true ↔
          asciiText.toLowerCase (trim " 5%_A! ".toList) <:+: asciiText.toLowerCase value) ∧
        ∀ c : Columns, searched asciiText (some s) c = true ↔
          asciiText.toLowerCase (trim " 5%_A! ".toList) <:+: asciiText.toLowerCase c.email ∨
            ∃ name, c.displayName = some name ∧
              asciiText.toLowerCase (trim " 5%_A! ".toList) <:+: asciiText.toLowerCase name :=
  ⟨by decide, search_is_literal asciiText rfl rfl " 5%_A! ".toList (by decide)⟩

end Search

/-! ## What callers may do to their own rows -/

section SelfActions

open TenantUserService

/-- The value that `list` reports as `self_actions_allowed`. -/
def selfActionsAllowed (t : Users) (tenantId : Uuid)
    (callerTenantUser : Option (Uuid × TenantUser)) (callerUserId : Option Uuid) : Bool :=
  match (callerTenantUser.map Prod.fst).or callerUserId with
  | none => false
  | some callerId =>
    match t.findByTenantAndId tenantId callerId with
    | none => false
    | some caller =>
      if caller.status = .active ∧ isAdministrator caller.role = true then
        let administratorCount := t.countActiveAdministratorsByTenant tenantId
        let activeOwnerCount :=
          if caller.role = .owner then some (t.countActiveOwnersByTenant tenantId) else none
        1 < administratorCount && activeOwnerCount.all fun n => 1 < n
      else false

/-- The service carries a call out. -/
def Accepted (x : Except Failure Users) : Prop := ∃ t', x = .ok t'

/-- Another active administrator remains without `u`, and another active owner if `u` is one. -/
def Replaceable (t : Users) (tenantId : Uuid) (u : TenantUser) : Prop :=
  1 < t.countActiveAdministratorsByTenant tenantId ∧
    (u.role = .owner → 1 < t.countActiveOwnersByTenant tenantId)

theorem activeOwners_le_owners (t : Users) (tenantId : Uuid) :
    t.countActiveOwnersByTenant tenantId ≤ t.countByTenantAndRole tenantId .owner := by
  refine t.count_mono fun _ u h => ?_
  simp only [Bool.and_eq_true] at h ⊢
  exact h.1

/-- No row stands in the way of another: the unique constraints of the table hold. -/
def Unique (t : Users) : Prop := ∀ id u, t.row id = some u → t.refuses id u = false

variable {t : Users} {tenantId id : Uuid} {u : TenantUser}
  {c : Option (Uuid × TenantUser)} {callerUserId : Option Uuid}

/-- The row of an active owner or admin of the tenant. -/
structure ActiveAdministrator (t : Users) (tenantId id : Uuid) (u : TenantUser) : Prop where
  found : t.findByTenantAndId tenantId id = some u
  active : u.status = .active
  admin : isAdministrator u.role = true

/-- A call on one's own row is made by that row. -/
theorem findCurrentCaller_self (h : ActiveAdministrator t tenantId id u)
    (hc : ∀ x ∈ c, x.1 = id) :
    findCurrentCaller t tenantId id u c = .ok (c.map fun _ => u) := by
  cases c with
  | none => rfl
  | some x =>
    have hx : x.1 = id := hc x rfl
    simp only [findCurrentCaller, hx, if_true, bind_eq_ok, need_eq_ok, ensure_eq_ok, pure_eq_ok]
    exact ⟨u, rfl, (), ⟨h.active, h.admin⟩, rfl⟩

/-- Callers may manage their own row. -/
theorem assertMayManageOwner_self {touchesOwner : Bool}
    (h : touchesOwner = true → u.role = .owner) :
    assertMayManageOwner (c.map fun _ => u) touchesOwner = .ok () := by
  rw [assertMayManageOwner, ensure_eq_ok]
  rintro ⟨htouches, hany⟩
  cases c with
  | none => cases hany
  | some x => exact absurd (h htouches) (of_decide_eq_true hany)

theorem selfActionsAllowed_iff (h : ActiveAdministrator t tenantId id u)
    (hc : (c.map Prod.fst).or callerUserId = some id) :
    selfActionsAllowed t tenantId c callerUserId = true ↔ Replaceable t tenantId u := by
  by_cases howner : u.role = .owner
  · simp [selfActionsAllowed, Replaceable, hc, h.found, h.active, howner, isAdministrator]
  · simp [selfActionsAllowed, Replaceable, hc, h.found, h.active, h.admin, howner]

/-! ### Giving up access -/

/-- When an administrator may remove themselves. -/
theorem delete_self_iff (h : ActiveAdministrator t tenantId id u) (hc : ∀ x ∈ c, x.1 = id) :
    Accepted (TenantUserService.delete t tenantId id c) ↔ Replaceable t tenantId u := by
  have hmay : assertMayManageOwner (c.map fun _ => u) (decide (u.role = .owner)) = .ok () :=
    assertMayManageOwner_self fun h => of_decide_eq_true h
  have hle := activeOwners_le_owners t tenantId
  simp only [Accepted, TenantUserService.delete, h.found, assertAnotherAdministratorRemains,
    bind_eq_ok, need_eq_ok, ensure_eq_ok, pure_eq_ok, Option.some.injEq, exists_eq_left',
    findCurrentCaller_self h hc, hmay, Except.ok.injEq, Replaceable, h.active, h.admin]
  constructor
  · rintro ⟨_, -, -, -, -, -, howner, -, hlast, -⟩
    exact ⟨hlast ⟨trivial, trivial⟩, fun h => howner ⟨h, trivial⟩⟩
  · rintro ⟨hlast, howner⟩
    exact ⟨_, (), trivial, (), fun h => lt_of_lt_of_le (howner h) hle, (), fun h => howner h.1, (),
      fun _ => hlast, rfl⟩

/-- A change of one's own row that gives the administrator's access up, by role or status. -/
structure GivesUp (dto : UpdateTenantUserDto) : Prop where
  email : dto.email = none
  role : ∀ role ∈ dto.role, isAdministrator role = false
  access : dto.role ≠ none ∨ (dto.status ≠ none ∧ dto.status ≠ some .active)

/-- The columns that no two rows of a tenant share stay as they are. -/
theorem refuses_apply {dto : UpdateTenantUserDto} (h : dto.email = none) :
    t.refuses id (dto.apply u) = t.refuses id u := by
  have hclash : (dto.apply u).clash = u.clash := by
    funext v
    simp [TenantUser.clash, UpdateTenantUserDto.apply, h]
  rw [Users.refuses, Users.refuses, hclash]

/-- When they may give up their role. -/
theorem update_self_iff (hunique : Unique t) (h : ActiveAdministrator t tenantId id u)
    (hc : ∀ x ∈ c, x.1 = id) {dto : UpdateTenantUserDto} (hdto : GivesUp dto) :
    Accepted (update t tenantId id dto c) ↔ Replaceable t tenantId u := by
  have hnotOwner : dto.role ≠ some .owner := fun h => absurd (hdto.role _ h) (by decide)
  have hmay : assertMayManageOwner (c.map fun _ => u)
      (decide (dto.role = some .owner) || decide (u.role = .owner)) = .ok () :=
    assertMayManageOwner_self fun h => by simpa [hnotOwner] using h
  have hsave : ∃ t', t.save id (dto.apply u) = .ok t' := by
    refine ⟨t.put id (dto.apply u), ?_⟩
    simp only [Users.save, bind_eq_ok, ensure_eq_ok, pure_eq_ok]
    have hu := (findByTenantAndId_eq_some.mp h.found).1
    exact ⟨(), (refuses_apply hdto.email).trans (hunique id u hu), trivial⟩
  have hany : dto.role ≠ none → (dto.role.any fun role => !isAdministrator role) = true := by
    intro hrole
    obtain ⟨role, hrole⟩ := Option.ne_none_iff_exists'.mp hrole
    simp [hrole, hdto.role role hrole]
  have hle := activeOwners_le_owners t tenantId
  simp only [Accepted, update, h.found, assertAnotherAdministratorRemains, bind_eq_ok, need_eq_ok,
    ensure_eq_ok, Option.some.injEq, exists_eq_left', findCurrentCaller_self h hc, hmay,
    Except.ok.injEq, Replaceable, h.active, h.admin]
  constructor
  · rintro ⟨_, -, -, -, -, -, howner, -, hlast, -⟩
    refine ⟨hlast ⟨trivial, trivial, hdto.access.imp_left hany⟩, fun h => howner ⟨trivial, h, ?_⟩⟩
    exact hdto.access.imp_left fun hrole => ⟨hrole, hnotOwner⟩
  · rintro ⟨hlast, howner⟩
    obtain ⟨t', ht'⟩ := hsave
    exact ⟨t', (), trivial, (), fun h => lt_of_lt_of_le (howner h.2.2) hle, (),
      fun h => howner h.2.1, (), fun _ => hlast, ht'⟩

/-- For every active owner or admin who is the caller: the flag is reported if and only if they may
remove their own row, take any role without administration, and take any status but the active
one. -/
theorem self_actions_iff (hunique : Unique t) (hu : t.row id = some u) (ht : u.tenantId = tenantId)
    (hactive : u.status = .active) (hadmin : isAdministrator u.role = true)
    (hc : (c.map Prod.fst).or callerUserId = some id) :
    (selfActionsAllowed t tenantId c callerUserId = true ↔
        Accepted (TenantUserService.delete t tenantId id c)) ∧
      (∀ role, isAdministrator role = false →
        (selfActionsAllowed t tenantId c callerUserId = true ↔
          Accepted (update t tenantId id ⟨none, none, some role, none⟩ c))) ∧
      ∀ status, status ≠ .active →
        (selfActionsAllowed t tenantId c callerUserId = true ↔
          Accepted (update t tenantId id ⟨none, none, none, some status⟩ c)) := by
  have hself : ∀ x ∈ c, x.1 = id := by
    intro x hx
    rw [Option.mem_def] at hx
    simpa [hx] using hc
  have hrow : ActiveAdministrator t tenantId id u :=
    ⟨findByTenantAndId_eq_some.mpr ⟨hu, ht⟩, hactive, hadmin⟩
  rw [selfActionsAllowed_iff hrow hc]
  refine ⟨(delete_self_iff hrow hself).symm, fun role hrole => ?_,
    fun status hstatus => ?_⟩
  · have hdto : GivesUp ⟨none, none, some role, none⟩ :=
      ⟨rfl, by simpa using hrole, Or.inl (Option.some_ne_none role)⟩
    exact (update_self_iff hunique hrow hself hdto).symm
  · have hdto : GivesUp ⟨none, none, none, some status⟩ :=
      ⟨rfl, by simp, Or.inr ⟨Option.some_ne_none status, by simpa using hstatus⟩⟩
    exact (update_self_iff hunique hrow hself hdto).symm

def firstOwner : Uuid × TenantUser := (1, sampleUser "a@example.com" .owner)

/-- The first of two owners is told that they may, and may: remove themselves, become a member, and
disable themselves. -/
theorem self_actions_iff_twoOwners :
    Unique twoOwners ∧ selfActionsAllowed twoOwners 7 (some firstOwner) (some 1) = true ∧
      Accepted (TenantUserService.delete twoOwners 7 1 (some firstOwner)) ∧
      Accepted (update twoOwners 7 1 ⟨none, none, some .member, none⟩ (some firstOwner)) ∧
      Accepted (update twoOwners 7 1 ⟨none, none, none, some .disabled⟩ (some firstOwner)) := by
  have hunique : Unique twoOwners := by
    intro id u hu
    rw [Table.row_eq_some] at hu
    have hcases : (id, u) = (1, sampleUser "a@example.com" .owner) ∨
        (id, u) = (2, sampleUser "b@example.com" .owner) := by
      simpa [twoOwners] using hu
    rcases hcases with h | h
    · obtain ⟨rfl, rfl⟩ := Prod.mk.inj h
      decide
    · obtain ⟨rfl, rfl⟩ := Prod.mk.inj h
      decide
  have hallowed : selfActionsAllowed twoOwners 7 (some firstOwner) (some 1) = true := by
    decide +kernel
  have hcaller : ((some firstOwner).map Prod.fst).or (some 1) = some 1 := rfl
  obtain ⟨hdelete, hrole, hstatus⟩ :=
    self_actions_iff (u := firstOwner.2) hunique (by rfl) rfl rfl rfl hcaller
  exact ⟨hunique, hallowed, hdelete.mp hallowed, (hrole .member rfl).mp hallowed,
    (hstatus .disabled (by decide)).mp hallowed⟩

end SelfActions

end DigitalTrust.TenantUserListing
