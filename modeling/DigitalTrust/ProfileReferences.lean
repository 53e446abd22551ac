/-
# References to profiles

A request names a profile by its id or as `name/version`.  `credential-offer.service.ts` takes
such a reference apart at its last slash, `presentation-request.service.ts` at its first one,
and the create endpoints take names and versions with slashes.
-/
import DigitalTrust.IssuanceProfiles
import DigitalTrust.TextSearch

namespace DigitalTrust.ProfileReferences

open Relational TextSearch
open IssuanceProfiles (IssuanceProfile IssuanceProfileStatus)

/-! ## Profiles -/

inductive VerificationProfileStatus where
  | draft
  | published
  | deprecated
  deriving DecidableEq

/-- A row of `verification_profile`, with the columns that a reference is resolved by. -/
structure VerificationProfile where
  tenantId : Uuid
  name : String
  version : String
  status : VerificationProfileStatus
  deriving DecidableEq

/-- The columns of the unique constraint that both tables have. -/
structure ProfileKey where
  tenantId : Uuid
  name : String
  version : String
  deriving DecidableEq

/-- The columns of `uq_issuance_profile_tenant_name_version`. -/
def issuanceKey {J : Type} (p : IssuanceProfile J) : ProfileKey := ⟨p.tenantId, p.name, p.version⟩

/-- The columns of `uq_verification_profile_tenant_name_version`. -/
def verificationKey (p : VerificationProfile) : ProfileKey := ⟨p.tenantId, p.name, p.version⟩

/-- A table of profiles that keeps its unique constraint. -/
structure ProfileTable (ρ : Type) (key : ρ → ProfileKey) where
  rows : Table Uuid ρ
  unique : ∀ id id' r r', rows.row id = some r → rows.row id' = some r' → key r = key r' → id = id'

variable {id : Uuid} {s : String} {xs ys : List Char}

section Lookup

variable {ρ : Type} {key : ρ → ProfileKey}

/-- A table of rows with distinct ids and distinct names and versions. -/
def ProfileTable.ofRows (rows : List (Uuid × ρ)) (hid : (rows.map Prod.fst).Nodup)
    (hkey : (rows.map fun x => key x.2).Nodup) : ProfileTable ρ key where
  rows := ⟨rows, hid⟩
  unique id id' r r' h h' heq := by
    have hrow : (id, r) = (id', r') :=
      List.inj_on_of_nodup_map hkey (Table.row_eq_some.mp h) (Table.row_eq_some.mp h') heq
    exact congrArg Prod.fst hrow

/-- `findById` of either repository. -/
def ProfileTable.findById (t : ProfileTable ρ key) (id : Uuid) : Option (Uuid × ρ) :=
  (t.rows.row id).map (id, ·)

/-- `findByNameAndVersion` of either repository. -/
def ProfileTable.findByNameAndVersion (t : ProfileTable ρ key) (tenantId : Uuid)
    (name version : String) : Option (Uuid × ρ) :=
  t.rows.first fun _ r => key r = ⟨tenantId, name, version⟩

theorem ProfileTable.key_of_found {t : ProfileTable ρ key} {tenantId : Uuid} {name version : String}
    {r : ρ} (h : t.findByNameAndVersion tenantId name version = some (id, r)) :
    key r = ⟨tenantId, name, version⟩ := by
  simpa using (Table.first_eq_some h).2

/-- A profile is found under its name and version, and no other one is. -/
theorem ProfileTable.findByNameAndVersion_key {t : ProfileTable ρ key} {r : ρ}
    (h : t.rows.row id = some r) :
    t.findByNameAndVersion (key r).tenantId (key r).name (key r).version = some (id, r) := by
  cases hfound : t.findByNameAndVersion (key r).tenantId (key r).name (key r).version with
  | none =>
    have hnone := Table.first_eq_none.mp hfound id r h
    simp at hnone
  | some x =>
    obtain ⟨id', r'⟩ := x
    have hrow : t.rows.row id' = some r' := (Table.first_eq_some hfound).1
    obtain rfl : id' = id := t.unique _ _ _ _ hrow h (key_of_found hfound)
    obtain rfl : r = r' := Option.mem_unique h hrow
    rfl

end Lookup

/-! ## Creation -/

section Creation

-- the length that `MinLength` and `MaxLength` look at
variable (length : String → ℕ)

def acceptsText (min max : ℕ) (s : String) : Bool := min ≤ length s && length s ≤ max

/-- The name and version that `CreateIssuanceProfileDto` takes. -/
def acceptsIssuance (name version : String) : Bool :=
  acceptsText length 1 100 name && acceptsText length 1 20 version

/-- The name and version that `CreateVerificationProfileDto` takes. -/
def acceptsVerification (name version : String) : Bool :=
  acceptsText length 1 100 name && acceptsText length 1 20 version

end Creation

/-! ## References -/

def reference (name version : String) : String := name ++ "/" ++ version

section Resolve

-- which texts `isUUID` takes for an id, and the id that the database reads from a text
variable (isUUID : String → Bool) (uuidOf : String → Uuid)

/-- `findProfile` of `credential-offer.service.ts`. -/
def findProfile {J : Type} (t : ProfileTable (IssuanceProfile J) issuanceKey) (tenantId : Uuid)
    (profileId : String) : Except Failure (Option (Uuid × IssuanceProfile J)) :=
  match lastIndexOf ['/'] profileId.toList with
  | none =>
    if isUUID profileId then .ok (t.findById (uuidOf profileId))
    else .error (.badRequest s!"profile_id '{profileId}' is not a valid UUID or 'name/version'")
  | some separatorIndex =>
    .ok (t.findByNameAndVersion tenantId (String.ofList (profileId.toList.take separatorIndex))
      (String.ofList (profileId.toList.drop (separatorIndex + 1))))

/-- The profile checks of `resolveFromProfile`. -/
def resolveFromProfile {J : Type} (t : ProfileTable (IssuanceProfile J) issuanceKey)
    (tenantId : Uuid) (profileId : String) : Except Failure (Uuid × IssuanceProfile J) := do
  let found ← findProfile isUUID uuidOf t tenantId profileId
  let profile ← need (found.filter fun x => x.2.tenantId = tenantId)
    (.badRequest s!"Issuance profile '{profileId}' was not found")
  ensure (profile.2.status ≠ .draft)
    (.badRequest s!"Issuance profile '{profileId}' is not published")
  ensure (profile.2.status ≠ .deprecated)
    (.badRequest s!"Issuance profile '{profileId}' has been deprecated")
  return profile

/-- The characters that `UUID_REGEX` takes at each place. -/
def uuidPattern : List (Char → Bool) :=
  let hex : Char → Bool := fun c => c ∈ "0123456789abcdefABCDEF".toList
  let hyphen : Char → Bool := fun c => c = '-'
  List.replicate 8 hex ++ hyphen :: (List.replicate 4 hex ++
    hyphen :: (fun c => c ∈ "12345".toList) :: (List.replicate 3 hex ++
      hyphen :: (fun c => c ∈ "89abAB".toList) :: (List.replicate 3 hex ++
        hyphen :: List.replicate 12 hex)))

def uuidRegexTest (s : String) : Bool :=
  s.toList.length = uuidPattern.length && (uuidPattern.zip s.toList).all fun x => x.1 x.2

def resolveProfileByNameVersion (t : ProfileTable VerificationProfile verificationKey)
    (tenantId : Uuid) (value : String) :
    Except Failure (Option (Uuid × VerificationProfile)) :=
  let malformed : Failure :=
    .badRequest "verification_profile_id must be a UUID or a 'name/version' string."
  match indexOf ['/'] value.toList with
  | none => .error malformed
  | some separatorIndex =>
    if separatorIndex = 0 ∨ separatorIndex = value.toList.length - 1 then .error malformed
    else
      .ok (t.findByNameAndVersion tenantId (String.ofList (value.toList.take separatorIndex))
        (String.ofList (value.toList.drop (separatorIndex + 1))))

def lookupProfile (t : ProfileTable VerificationProfile verificationKey) (tenantId : Uuid)
    (profileIdOrName : String) : Except Failure (Option (Uuid × VerificationProfile)) :=
  if uuidRegexTest profileIdOrName then .ok (t.findById (uuidOf profileIdOrName))
  else resolveProfileByNameVersion t tenantId profileIdOrName

/-- `resolveProfile` of `presentation-request.service.ts`. -/
def resolveProfile (t : ProfileTable VerificationProfile verificationKey) (tenantId : Uuid)
    (profileIdOrName : String) : Except Failure (Uuid × VerificationProfile) := do
  let found ← lookupProfile uuidOf t tenantId profileIdOrName
  let profile ← need (found.filter fun x => x.2.tenantId = tenantId)
    (.badRequest s!"Verification profile '{profileIdOrName}' was not found.")
  ensure (profile.2.status = .published)
    (.badRequest s!"Verification profile '{profileIdOrName}' is not published.")
  return profile

end Resolve

/-! ## Taking a reference apart -/

theorem toList_reference (name version : String) :
    (reference name version).toList = name.toList ++ '/' :: version.toList := by
  simp [reference]

/-- No place of an id takes a slash. -/
theorem slash_not_in_pattern : ∀ f ∈ uuidPattern, f '/' = false := by decide +kernel

/-- A text with a slash is not an id. -/
theorem uuidRegexTest_of_slash (h : '/' ∈ s.toList) : uuidRegexTest s = false := by
  by_contra hne
  rw [Bool.not_eq_false, uuidRegexTest, Bool.and_eq_true, decide_eq_true_eq,
    List.all_eq_true] at hne
  obtain ⟨i, hi, hget⟩ := List.mem_iff_getElem.mp h
  have hpat : i < uuidPattern.length := hne.1 ▸ hi
  have hmem : (uuidPattern[i], s.toList[i]) ∈ uuidPattern.zip s.toList :=
    List.mem_iff_getElem.mpr ⟨i, by simp [hi, hpat], by simp⟩
  have htest : uuidPattern[i] s.toList[i] = true := hne.2 _ hmem
  rw [hget, slash_not_in_pattern _ (List.getElem_mem hpat)] at htest
  exact Bool.false_ne_true htest

/-- A text is not the same without its beginning. -/
theorem ofList_ne_of_append (h : s.toList = xs ++ '/' :: ys) :
    s ≠ String.ofList xs ∧ s ≠ String.ofList ys := by
  have hlen : s.toList.length = xs.length + (ys.length + 1) := by simp [h]
  constructor
  · intro heq
    rw [heq, String.toList_ofList] at hlen
    omega
  · intro heq
    rw [heq, String.toList_ofList] at hlen
    omega

section Found

variable (isUUID : String → Bool) (uuidOf : String → Uuid)

variable {J : Type}

/-- A reference that is taken apart at its last slash. -/
theorem findProfile_append (t : ProfileTable (IssuanceProfile J) issuanceKey) (tenantId : Uuid)
    (h : s.toList = xs ++ '/' :: ys) (hys : '/' ∉ ys) :
    findProfile isUUID uuidOf t tenantId s =
      .ok (t.findByNameAndVersion tenantId (String.ofList xs) (String.ofList ys)) := by
  have hdrop : (xs ++ '/' :: ys).drop (xs.length + 1) = ys := by simp
  rw [findProfile, h, lastIndexOf_append hys]
  simp only [List.take_left, hdrop]

/-- A reference that is taken apart at its first slash. -/
theorem lookupProfile_append (t : ProfileTable VerificationProfile verificationKey)
    (tenantId : Uuid) (h : s.toList = xs ++ '/' :: ys) (hxs : '/' ∉ xs) :
    lookupProfile uuidOf t tenantId s =
      if xs = [] ∨ ys = [] then
        .error (.badRequest "verification_profile_id must be a UUID or a 'name/version' string.")
      else .ok (t.findByNameAndVersion tenantId (String.ofList xs) (String.ofList ys)) := by
  have hslash : '/' ∈ s.toList := by simp [h]
  have hindex : indexOf ['/'] (xs ++ '/' :: ys) = some xs.length := indexOf_append hxs ys
  have hdrop : (xs ++ '/' :: ys).drop (xs.length + 1) = ys := by simp
  have hempty : (xs.length = 0 ∨ xs.length = (xs ++ '/' :: ys).length - 1) ↔ xs = [] ∨ ys = [] := by
    rw [List.length_append, List.length_cons, ← List.length_eq_zero_iff,
      ← List.length_eq_zero_iff (l := ys)]
    omega
  rw [lookupProfile, uuidRegexTest_of_slash hslash, if_neg Bool.false_ne_true,
    resolveProfileByNameVersion, h, hindex]
  simp only [hempty, List.take_left, hdrop]

/-- The reference to an issuance profile leads back to it exactly if the version has no slash. -/
theorem findProfile_reference_iff {t : ProfileTable (IssuanceProfile J) issuanceKey}
    {p : IssuanceProfile J} (hp : t.rows.row id = some p) :
    findProfile isUUID uuidOf t p.tenantId (reference p.name p.version) = .ok (some (id, p)) ↔
      '/' ∉ p.version.toList := by
  constructor
  · intro hfound hslash
    -- the version found is what stands behind the last slash of the version
    obtain ⟨xs, ys, hversion, hys⟩ := exists_last_of_mem hslash
    have htext : (reference p.name p.version).toList =
      (p.name.toList ++ '/' :: xs) ++ '/' :: ys := by
      rw [toList_reference, hversion, List.append_assoc, List.cons_append]
    rw [findProfile_append isUUID uuidOf t p.tenantId htext hys] at hfound
    have hkey := ProfileTable.key_of_found (Except.ok.inj hfound)
    exact (ofList_ne_of_append hversion).2 (congrArg ProfileKey.version hkey)
  · intro hslash
    rw [findProfile_append isUUID uuidOf t p.tenantId (toList_reference _ _) hslash,
      String.ofList_toList, String.ofList_toList]
    exact congrArg Except.ok (ProfileTable.findByNameAndVersion_key hp)

/-- The reference to a verification profile leads back to it exactly if the name has no slash. -/
theorem lookupProfile_reference_iff {t : ProfileTable VerificationProfile verificationKey}
    {q : VerificationProfile} (hq : t.rows.row id = some q) (hname : q.name ≠ "")
    (hversion : q.version ≠ "") :
    lookupProfile uuidOf t q.tenantId (reference q.name q.version) = .ok (some (id, q)) ↔
      '/' ∉ q.name.toList := by
  constructor
  · intro hfound hslash
    -- the name found is what stands before the first slash of the name
    obtain ⟨xs, ys, hsplit, hxs⟩ := List.eq_append_cons_of_mem hslash
    have htext : (reference q.name q.version).toList =
      xs ++ '/' :: (ys ++ '/' :: q.version.toList) := by
      rw [toList_reference, hsplit, List.append_assoc, List.cons_append]
    rw [lookupProfile_append uuidOf t q.tenantId htext hxs] at hfound
    split at hfound
    · cases hfound
    · have hkey := ProfileTable.key_of_found (Except.ok.inj hfound)
      exact (ofList_ne_of_append hsplit).1 (congrArg ProfileKey.name hkey)
  · intro hslash
    have hne : ¬ (q.name.toList = [] ∨ q.version.toList = []) := by
      simp [hname, hversion]
    rw [lookupProfile_append uuidOf t q.tenantId (toList_reference _ _) hslash, if_neg hne,
      String.ofList_toList, String.ofList_toList]
    exact congrArg Except.ok (ProfileTable.findByNameAndVersion_key hq)

end Found

/-- **References.**  The reference to a profile leads back to it: for an issuance profile exactly if
its version has no slash, for a verification profile exactly if its name has none. -/
theorem reference_resolves_iff (length : String → ℕ) (hlength : length "" = 0)
    (isUUID : String → Bool) (uuidOf : String → Uuid) {J : Type}
    (issuance : ProfileTable (IssuanceProfile J) issuanceKey)
    (verification : ProfileTable VerificationProfile verificationKey) {id id' : Uuid}
    {p : IssuanceProfile J} {q : VerificationProfile} (hp : issuance.rows.row id = some p)
    (hq : verification.rows.row id' = some q)
    (hq' : acceptsVerification length q.name q.version = true) :
    (findProfile isUUID uuidOf issuance p.tenantId (reference p.name p.version) =
        .ok (some (id, p)) ↔ '/' ∉ p.version.toList) ∧
    (lookupProfile uuidOf verification q.tenantId (reference q.name q.version) =
        .ok (some (id', q)) ↔ '/' ∉ q.name.toList) := by
  simp only [acceptsVerification, acceptsText, Bool.and_eq_true, decide_eq_true_eq] at hq'
  have hname : q.name ≠ "" := fun h => by
    rw [h, hlength] at hq'
    omega
  have hversion : q.version ≠ "" := fun h => by
    rw [h, hlength] at hq'
    omega
  exact ⟨findProfile_reference_iff isUUID uuidOf hp,
    lookupProfile_reference_iff uuidOf hq hname hversion⟩

/-! ## Profiles with slashes -/

def sampleIssuance (name version : String) : IssuanceProfile Unit where
  tenantId := 1
  name := name
  version := version
  description := none
  credentialDefinitionId := 2
  attributeSchema := ()
  defaults := none
  display := none
  metadata := ()
  protocolHint := .auto
  status := .published

/-- A verification profile of the tenant `1`. -/
def sampleVerification (name version : String) : VerificationProfile :=
  ⟨1, name, version, .published⟩

/-- Two issuance profiles; the version of the first has a slash. -/
def issuanceProfiles : ProfileTable (IssuanceProfile Unit) issuanceKey :=
  .ofRows [(10, sampleIssuance "permit" "2025/1"), (11, sampleIssuance "permit/2025" "1")]
    (by decide) (by decide)

/-- Two verification profiles; the name of the first has a slash. -/
def verificationProfiles : ProfileTable VerificationProfile verificationKey :=
  .ofRows [(20, sampleVerification "age/adult" "1"), (21, sampleVerification "age" "adult/1")]
    (by decide) (by decide)

/-- The other two profiles are found under their references. -/
theorem reference_resolves_iff_others :
    findProfile (fun _ => false) (fun _ => 0) issuanceProfiles 1 (reference "permit/2025" "1") =
        .ok (some (11, sampleIssuance "permit/2025" "1")) ∧
    lookupProfile (fun _ => 0) verificationProfiles 1 (reference "age" "adult/1") =
        .ok (some (21, sampleVerification "age" "adult/1")) := by
  have hp : issuanceProfiles.rows.row 11 = some (sampleIssuance "permit/2025" "1") := by
    decide +kernel
  have hq : verificationProfiles.rows.row 21 = some (sampleVerification "age" "adult/1") := by
    decide +kernel
  have h := reference_resolves_iff String.length rfl (fun _ => false) (fun _ => 0)
    issuanceProfiles verificationProfiles hp hq (by decide +kernel)
  exact ⟨h.1.mpr (by decide +kernel), h.2.mpr (by decide +kernel)⟩

/-- The create endpoints take the names and versions of all four profiles, and the references to
the first of each kind lead to the second. -/
theorem reference_misresolved :
    acceptsIssuance String.length "permit" "2025/1" = true ∧
    acceptsVerification String.length "age/adult" "1" = true ∧
    issuanceProfiles.rows.row 10 = some (sampleIssuance "permit" "2025/1") ∧
    verificationProfiles.rows.row 20 = some (sampleVerification "age/adult" "1") ∧
    resolveFromProfile (fun _ => false) (fun _ => 0) issuanceProfiles 1
        (reference "permit" "2025/1") = .ok (11, sampleIssuance "permit/2025" "1") ∧
    resolveProfile (fun _ => 0) verificationProfiles 1 (reference "age/adult" "1") =
      .ok (21, sampleVerification "age" "adult/1") := by
  decide +kernel

end DigitalTrust.ProfileReferences
