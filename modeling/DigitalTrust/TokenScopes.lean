/-
# Scopes of user tokens

`resolveUserAccessTokenScope` and the JWT customizer of `oidc-provider.service.ts`: the `scope`
claim becomes the granted identity scopes together with the scopes of the user's role.  It is left
alone where it has as many scopes as it should and each of them is one that it should have.
-/
import DigitalTrust.Json
import DigitalTrust.TextSearch

namespace DigitalTrust.TokenScopes

open Json

/-! ## Words of a text -/

/-- The characters that `\s` stands for. -/
def isSpace (c : Char) : Bool :=
  c ∈ [' ', '\t', '\n', '\u000b', '\u000c', '\r', '\u00a0', '\u1680', '\u2028', '\u2029',
    '\u202f', '\u205f', '\u3000', '\ufeff'] || ('\u2000' ≤ c && c ≤ '\u200a')

def trim (t : Text) : Text := TextSearch.strip isSpace t

/-- `text.split(/\s+/).filter(Boolean)`. -/
def words (t : Text) : List Text := (t.splitOnP isSpace).filter (· ≠ [])

/-- A text that is one word. -/
def IsToken (t : Text) : Prop := t ≠ [] ∧ ∀ c ∈ t, isSpace c = false

@[simp] theorem words_nil : words [] = [] := by simp [words]

/-- The words on both sides of a space. -/
theorem words_append_cons {c : Char} (hc : isSpace c = true) (x y : Text) :
    words (x ++ c :: y) = words x ++ words y := by
  unfold words
  rw [List.splitOnP_append_cons x y hc, List.filter_append]

theorem words_of_isToken {t : Text} (h : IsToken t) : words t = [t] := by
  rw [words, List.splitOnP_eq_singleton h.2]
  simp [h.1]

/-- A text is one word or none, or has a space with a text before it that has none. -/
theorem space_free_or_split (t : Text) :
    (∀ c ∈ t, isSpace c = false) ∨
      ∃ x c y, t = x ++ c :: y ∧ isSpace c = true ∧ ∀ d ∈ x, isSpace d = false := by
  cases hrest : t.dropWhile (fun c => !isSpace c) with
  | nil =>
    left
    simpa using List.dropWhile_eq_nil_iff.mp hrest
  | cons c y =>
    right
    refine ⟨t.takeWhile (fun c => !isSpace c), c, y, ?_, ?_, fun d hd => ?_⟩
    · rw [← hrest, List.takeWhile_append_dropWhile]
    · have hhead := List.head_dropWhile_not (fun c => !isSpace c) (l := t) (by simp [hrest])
      simpa [hrest] using hhead
    · simpa using List.mem_takeWhile_imp hd

/-- Every word is one. -/
theorem isToken_of_mem_words {t w : Text} (h : w ∈ words t) : IsToken w := by
  induction hn : t.length using Nat.strong_induction_on generalizing t with
  | _ n ih =>
    rcases space_free_or_split t with hfree | ⟨x, c, y, rfl, hc, hx⟩
    · by_cases hnil : t = []
      · simp [hnil] at h
      · rw [words_of_isToken ⟨hnil, hfree⟩, List.mem_singleton] at h
        exact h ▸ ⟨hnil, hfree⟩
    · rw [words_append_cons hc, List.mem_append] at h
      rw [List.length_append, List.length_cons] at hn
      rcases h with h | h
      · exact ih x.length (by omega) h rfl
      · exact ih y.length (by omega) h rfl

/-- The words of texts that are joined by spaces. -/
theorem words_intercalate (ts : List Text) :
    words (List.intercalate [' '] ts) = ts.flatMap words := by
  induction ts with
  | nil => simp
  | cons t ts ih =>
    cases ts with
    | nil => simp
    | cons u us =>
      rw [List.intercalate_cons_cons, List.append_assoc, List.singleton_append,
        words_append_cons (by decide), ih, List.flatMap_cons (x := t)]

theorem flatMap_words_of_tokens {ts : List Text} (h : ∀ t ∈ ts, IsToken t) :
    ts.flatMap words = ts := by
  induction ts with
  | nil => rfl
  | cons t ts ih =>
    rw [List.flatMap_cons, words_of_isToken (h t List.mem_cons_self),
      ih fun u hu => h u (List.mem_cons_of_mem _ hu), List.singleton_append]

/-! ## The claim -/

/-- `new Set(values)`: each value once, where it comes first. -/
def distinct (values : List Text) : List Text := values.reverse.dedup.reverse

@[simp] theorem mem_distinct {values : List Text} {s : Text} :
    s ∈ distinct values ↔ s ∈ values := by
  simp [distinct]

theorem nodup_distinct (values : List Text) : (distinct values).Nodup := by
  rw [distinct, List.nodup_reverse]
  exact List.nodup_dedup _

/-- What the customizer reads of a token. -/
structure UserScopeToken where
  accountId : Option Text

/-- The claims that it reads and writes; a member that is not a string is `none`. -/
structure Payload where
  tenantRole : Option Text
  tenantId : Option Text
  scope : Option Text

structure UserScopeRules where
  identityScopes : List Text
  allowedScopes : List Text

def UserScopeToken.isUser (token : UserScopeToken) : Bool :=
  match token.accountId with
  | some accountId => accountId ≠ []
  | none => false

/-- The scopes that a claim names. -/
def Payload.scopes (payload : Payload) : List Text :=
  match payload.scope with
  | some scope => words scope
  | none => []

section Customizer

-- the scopes that a role has in a tenant when the token is signed
variable (findScopesForRole : (role tenantId : Text) → List Text)

/-- The scopes of the user's role; none where the claims name no membership. -/
def Payload.roleScopes (payload : Payload) : List Text :=
  match payload.tenantRole, payload.tenantId with
  | some role, some tenantId => findScopesForRole role tenantId
  | _, _ => []

/-- The scopes that the claim should name, in the order of the code. -/
def dueScopes (payload : Payload) (rules : UserScopeRules) : List Text :=
  distinct (payload.scopes.filter (· ∈ rules.identityScopes) ++
    (payload.roleScopes findScopesForRole).filter (· ∈ rules.allowedScopes))

/-- The claim seems to be right already. -/
def unchanged (payload : Payload) (rules : UserScopeRules) : Bool :=
  let scopes := dueScopes findScopesForRole payload rules
  scopes.length = payload.scopes.length && payload.scopes.all (· ∈ scopes)

def resolveUserAccessTokenScope (token : UserScopeToken) (payload : Payload)
    (rules : UserScopeRules) : Option Text :=
  if token.isUser then
    if unchanged findScopesForRole payload rules then none
    else some (List.intercalate [' '] (dueScopes findScopesForRole payload rules))
  else none

/-- The claims that are signed. -/
def customizeJwt (token : UserScopeToken) (payload : Payload) (rules : UserScopeRules) : Payload :=
  match resolveUserAccessTokenScope findScopesForRole token payload rules with
  | none => payload
  | some scope => { payload with scope := if scope ≠ [] then some scope else none }

/-! ## Reading the signed claim -/

/-- The granted identity scopes, and the scopes of the role that the server allows. -/
def Due (payload : Payload) (rules : UserScopeRules) (s : Text) : Prop :=
  s ∈ payload.scopes ∧ s ∈ rules.identityScopes ∨
    s ∈ payload.roleScopes findScopesForRole ∧ s ∈ rules.allowedScopes

/-- The scopes of the role that have to be added to the granted ones. -/
def addedScopes (payload : Payload) (rules : UserScopeRules) : List Text :=
  (distinct ((payload.roleScopes findScopesForRole).filter (· ∈ rules.allowedScopes))).filter
    (· ∉ payload.scopes)

/-- No granted scope has to go, some have to be added, and the granted string has as many
repetitions as that. -/
def RepetitionsHideAdditions (payload : Payload) (rules : UserScopeRules) : Prop :=
  (∀ s ∈ payload.scopes, Due findScopesForRole payload rules s) ∧
  addedScopes findScopesForRole payload rules ≠ [] ∧
  payload.scopes.length =
    (distinct payload.scopes).length + (addedScopes findScopesForRole payload rules).length

variable {findScopesForRole} {token : UserScopeToken} {payload : Payload} {rules : UserScopeRules}

theorem mem_dueScopes {s : Text} :
    s ∈ dueScopes findScopesForRole payload rules ↔ Due findScopesForRole payload rules s := by
  simp [dueScopes, Due]

theorem mem_addedScopes {s : Text} :
    s ∈ addedScopes findScopesForRole payload rules ↔
      (s ∈ payload.roleScopes findScopesForRole ∧ s ∈ rules.allowedScopes) ∧
        s ∉ payload.scopes := by
  simp [addedScopes]

/-- If nothing has to go, the right claim names the granted scopes once and the added ones. -/
theorem length_dueScopes
    (h : ∀ s ∈ payload.scopes, Due findScopesForRole payload rules s) :
    (dueScopes findScopesForRole payload rules).length =
      (distinct payload.scopes).length + (addedScopes findScopesForRole payload rules).length := by
  rw [← List.length_append]
  have hnodup : (dueScopes findScopesForRole payload rules).Nodup := nodup_distinct _
  refine List.Perm.length_eq ((List.perm_ext_iff_of_nodup hnodup ?_).mpr fun s => ?_)
  · refine List.Nodup.append (nodup_distinct _) ((nodup_distinct _).filter _) ?_
    intro s hs hadded
    exact (mem_addedScopes.mp hadded).2 (mem_distinct.mp hs)
  · rw [mem_dueScopes, List.mem_append, mem_distinct, mem_addedScopes]
    constructor
    · intro hdue
      by_cases hs : s ∈ payload.scopes
      · exact .inl hs
      · exact .inr ⟨hdue.resolve_left fun h => hs h.1, hs⟩
    · rintro (hs | hs)
      · exact h s hs
      · exact .inr hs.1

theorem unchanged_iff :
    unchanged findScopesForRole payload rules = true ↔
      (dueScopes findScopesForRole payload rules).length = payload.scopes.length ∧
        ∀ s ∈ payload.scopes, Due findScopesForRole payload rules s := by
  simp [unchanged, mem_dueScopes]

/-- A claim that is left alone is the one that was granted. -/
theorem scopes_of_unchanged (hunchanged : unchanged findScopesForRole payload rules = true) :
    (customizeJwt findScopesForRole token payload rules).scopes = payload.scopes := by
  have hresolve : resolveUserAccessTokenScope findScopesForRole token payload rules = none := by
    simp [resolveUserAccessTokenScope, hunchanged]
  rw [customizeJwt, hresolve]

/-- A claim that is written anew names the words of the scopes that it should name. -/
theorem scopes_of_changed (huser : token.isUser = true)
    (hchanged : unchanged findScopesForRole payload rules = false) :
    (customizeJwt findScopesForRole token payload rules).scopes =
      (dueScopes findScopesForRole payload rules).flatMap words := by
  rw [customizeJwt, resolveUserAccessTokenScope, if_pos huser, hchanged,
    if_neg Bool.false_ne_true, ← words_intercalate]
  by_cases hempty : List.intercalate [' '] (dueScopes findScopesForRole payload rules) = []
  · simp [Payload.scopes, hempty]
  · simp [Payload.scopes, hempty]

/-- **The signed claim.**  It names the granted identity scopes and the allowed scopes of the role,
and nothing else, exactly if each of the latter is one word and repetitions do not hide that some
have to be added. -/
theorem scope_claim_iff (huser : token.isUser = true) :
    (∀ s, s ∈ (customizeJwt findScopesForRole token payload rules).scopes ↔
        Due findScopesForRole payload rules s) ↔
      (∀ s ∈ payload.roleScopes findScopesForRole, s ∈ rules.allowedScopes → IsToken s) ∧
        ¬ RepetitionsHideAdditions findScopesForRole payload rules := by
  have hgranted : ∀ s ∈ payload.scopes, IsToken s := by
    intro s hs
    unfold Payload.scopes at hs
    split at hs
    · exact isToken_of_mem_words hs
    · cases hs
  cases hcase : unchanged findScopesForRole payload rules with
  | true =>
    obtain ⟨hlength, hdue⟩ := unchanged_iff.mp hcase
    rw [length_dueScopes hdue] at hlength
    rw [scopes_of_unchanged hcase]
    constructor
    · intro hright
      refine ⟨fun s hs hallowed => hgranted s ((hright s).mpr (.inr ⟨hs, hallowed⟩)), ?_⟩
      rintro ⟨-, hadded, -⟩
      obtain ⟨s, hs⟩ := List.exists_mem_of_ne_nil _ hadded
      obtain ⟨hrole, hmissing⟩ := mem_addedScopes.mp hs
      exact hmissing ((hright s).mpr (.inr hrole))
    · rintro ⟨-, hrepeated⟩ s
      refine ⟨hdue s, fun h => ?_⟩
      -- nothing is hidden, so no scope of the role has to be added
      have hnone : addedScopes findScopesForRole payload rules = [] := by
        by_contra hadded
        exact hrepeated ⟨hdue, hadded, hlength.symm⟩
      rcases h with h | h
      · exact h.1
      · by_contra hmissing
        have hs := mem_addedScopes.mpr ⟨h, hmissing⟩
        rw [hnone] at hs
        cases hs
  | false =>
    rw [scopes_of_changed huser hcase]
    constructor
    · intro hright
      refine ⟨fun s hs hallowed => ?_, ?_⟩
      · obtain ⟨t, -, ht⟩ := List.mem_flatMap.mp ((hright s).mpr (.inr ⟨hs, hallowed⟩))
        exact isToken_of_mem_words ht
      · rintro ⟨hdue, -, hlength⟩
        have hsame : unchanged findScopesForRole payload rules = true :=
          unchanged_iff.mpr ⟨by rw [length_dueScopes hdue, hlength], hdue⟩
        exact Bool.false_ne_true (hcase.symm.trans hsame)
    · rintro ⟨htokens, -⟩ s
      rw [flatMap_words_of_tokens, mem_dueScopes]
      intro t ht
      rcases mem_dueScopes.mp ht with h | h
      · exact hgranted t h.1
      · exact htokens t h.1 h.2

end Customizer

/-! ## A scope that is granted twice -/

/-- A member of the tenant `t` whose role holds one scope. -/
def sampleUser : UserScopeToken := ⟨some "u".toList⟩

def samplePayload (scope : Text) : Payload := ⟨some "member".toList, some "t".toList, some scope⟩

def sampleRules : UserScopeRules := ⟨["openid".toList], ["connections:manage".toList]⟩

def sampleRole (_ _ : Text) : List Text := ["connections:manage".toList]

/-- Granted once, `openid` is signed together with the scope of the role. -/
theorem scope_claim_iff_once :
    sampleUser.isUser = true ∧
      ∀ s, s ∈ (customizeJwt sampleRole sampleUser (samplePayload "openid".toList)
          sampleRules).scopes ↔
        Due sampleRole (samplePayload "openid".toList) sampleRules s := by
  have huser : sampleUser.isUser = true := by decide +kernel
  refine ⟨huser, (scope_claim_iff huser).mpr ⟨?_, ?_⟩⟩
  · intro s hs _
    obtain rfl : s = "connections:manage".toList := List.mem_singleton.mp hs
    exact isToken_of_mem_words (t := "connections:manage".toList) (by decide +kernel)
  · rintro ⟨-, -, hlength⟩
    exact absurd hlength (by decide +kernel)

/-- Granted twice, it is signed alone: the claim is taken for unchanged and lacks the scope of the
role. -/
theorem scope_claim_repeated :
    ¬ ∀ s, s ∈ (customizeJwt sampleRole sampleUser (samplePayload "openid openid".toList)
          sampleRules).scopes ↔
        Due sampleRole (samplePayload "openid openid".toList) sampleRules s := by
  intro h
  have hmissing := (h "connections:manage".toList).mpr
    (.inr ⟨List.mem_singleton.mpr rfl, List.mem_singleton.mpr rfl⟩)
  exact absurd hmissing (by decide +kernel)

end DigitalTrust.TokenScopes
