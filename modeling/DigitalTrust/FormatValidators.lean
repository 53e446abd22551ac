/-
# Validators of credential formats

`anoncreds-format.validator.ts`, `sd-jwt-format.validator.ts` and `w3c-vc-format.validator.ts`, with
`claim-type.util.ts` under them, and `validateOfferCredentialRequest` of `credential.validators.ts`.
Each format has a shape of its own for a schema; the attributes are then checked by the same loop.
-/
import DigitalTrust.AdapterRegistry
import DigitalTrust.Binary64
import DigitalTrust.TokenScopes

namespace DigitalTrust.FormatValidators

open Json
open TokenScopes (trim)

/-! ## Issues -/

/-- What an issue reports to have found: a text, or a value as `describe` writes it. -/
inductive Actual where
  | text (t : Text)
  | described (value : Option Value)

structure FormatValidationIssue where
  field : Text
  expected : Text
  actual : Actual
  message : Text

structure CredentialAttribute where
  name : Text
  value : Text

/-- `names.join(', ')`. -/
def commaSeparated (names : List Text) : Text := List.intercalate ", ".toList names

/-- `typeof value === 'string' && value.trim().length > 0`. -/
def hasText (value : Option Value) : Bool :=
  ((value.bind Value.string?).map trim).any fun t => t ≠ []

/-! ## Claim types -/

inductive ClaimType where
  | string
  | number
  | boolean
  | array
  | object
  deriving DecidableEq

def ClaimType.text : ClaimType → Text
  | string => "string".toList
  | number => "number".toList
  | boolean => "boolean".toList
  | array => "array".toList
  | object => "object".toList

def claimTypes : List ClaimType := [.string, .number, .boolean, .array, .object]

/-- `isClaimType` : the type that a value names. -/
def claimType? (value : Option Value) : Option ClaimType :=
  (value.bind Value.string?).bind fun t => claimTypes.find? fun type => type.text = t

/-- `Number.isFinite` for the number that a text stands for. -/
def isFiniteNumber (text : Text) : Bool := Binary64.toDouble |numberValue text| ≠ .infinity

def matchesClaimType (rawValue : Text) (type : ClaimType) : Bool :=
  if type = .string then true
  else match parse rawValue with
    | none => false
    | some parsed =>
      match type, parsed with
      | .number, .number text => isFiniteNumber text
      | .boolean, .bool _ => true
      | .array, .array _ => true
      | .object, .object _ => true
      | _, _ => false

/-! ## The loop over the attributes -/

/-- What a validator knows about the attributes of a schema: its issue for a name that is met again,
for an attribute that is met the first time, and for a required name that is not met. -/
structure AttributeRules where
  duplicate : CredentialAttribute → FormatValidationIssue
  entry : CredentialAttribute → Option FormatValidationIssue
  required : List Text
  missing : Text → FormatValidationIssue

/-- The loop over the attributes, with the names seen so far. -/
def AttributeRules.entryIssues (rules : AttributeRules) (seenNames : List Text) :
    List CredentialAttribute → List FormatValidationIssue
  | [] => []
  | attr :: attributes =>
    (if attr.name ∈ seenNames then [rules.duplicate attr]
      else (rules.entry attr).toList) ++
      rules.entryIssues (attr.name :: seenNames) attributes

/-- The loop over the attributes, then the names that are missing. -/
def AttributeRules.issues (rules : AttributeRules) (attributes : List CredentialAttribute) :
    List FormatValidationIssue :=
  rules.entryIssues [] attributes ++
    (rules.required.filter fun name => name ∉ attributes.map CredentialAttribute.name).map
      rules.missing

/-! ## AnonCreds -/

namespace AnonCreds

/-- `isStringArray` : the strings. -/
def stringArray? (value : Option Value) : Option (List Text) :=
  (value.bind Value.array?).bind fun elements =>
    if elements.all fun e => e.string?.isSome then some (elements.filterMap Value.string?) else none

/-- `isNonEmptyStringArray` : the strings. -/
def nonEmptyStringArray? (value : Option Value) : Option (List Text) :=
  (stringArray? value).filter (· ≠ [])

def validateAttrNames (attrNames : Option Value) : Option FormatValidationIssue :=
  match nonEmptyStringArray? attrNames with
  | none => some {
      field := "attr_names".toList
      expected := "a non-empty array of attribute name strings".toList
      actual := .described attrNames
      message :=
        "AnonCreds schema must declare attr_names as a non-empty array of strings".toList }
  | some names =>
    if names.dedup.length ≠ names.length then some {
      field := "attr_names".toList
      expected := "unique attribute names".toList
      actual := .described attrNames
      message := "AnonCreds schema attr_names must not contain duplicates".toList }
    else none

def validateSchemaNameAndVersion (schema : Value) : List FormatValidationIssue :=
  ["schema_name".toList, "schema_version".toList].filterMap fun field =>
    if hasText (schema.member field) then none else some {
      field := field
      expected := "a non-empty string".toList
      actual := .described (schema.member field)
      message := "AnonCreds schema must declare a non-empty ".toList ++ field }

def validateOptionalAttributes (optionalAttributes attrNames : Option Value) :
    List FormatValidationIssue :=
  if optionalAttributes.isNone then []
  else match stringArray? optionalAttributes with
    | none => [{
        field := "optional_attributes".toList
        expected := "an array of attribute name strings".toList
        actual := .described optionalAttributes
        message := "AnonCreds schema optional_attributes must be a string array".toList }]
    | some optionalNames =>
      match nonEmptyStringArray? attrNames with
      | none => []
      | some names =>
        (optionalNames.filter fun name => name ∉ names).map fun name => {
          field := "optional_attributes".toList
          expected := "one of: ".toList ++ commaSeparated names
          actual := .text name
          message := "optional_attributes entry '".toList ++ name ++
            "' is not declared in attr_names".toList }

def validateSchema (schema : Value) : List FormatValidationIssue :=
  let attrNames := schema.member "attr_names".toList
  (validateAttrNames attrNames).toList ++ validateSchemaNameAndVersion schema ++
    validateOptionalAttributes (schema.member "optional_attributes".toList) attrNames

/-- `validateAttributeEntry`, `findMissingRequiredAttributes`; the value of an attribute is a string
by its type. -/
def rules (attrNames optionalAttributes : List Text) : AttributeRules where
  duplicate attr := {
    field := attr.name
    expected := "a single value".toList
    actual := .text "duplicate attribute".toList
    message := "Attribute '".toList ++ attr.name ++ "' was supplied more than once".toList }
  entry attr :=
    if attr.name ∈ attrNames then none else some {
      field := attr.name
      expected := "one of: ".toList ++ commaSeparated attrNames
      actual := .text attr.name
      message := "Attribute '".toList ++ attr.name ++
        "' is not declared in the credential definition schema".toList }
  required := (attrNames.filter fun name => name ∉ optionalAttributes).eraseDups
  missing name := {
    field := name
    expected := "a value".toList
    actual := .text "missing".toList
    message := "Required attribute '".toList ++ name ++ "' was not supplied".toList }

def validateAttributes (schema : Value) (attributes : List CredentialAttribute) :
    List FormatValidationIssue :=
  match nonEmptyStringArray? (schema.member "attr_names".toList) with
  | none => [{
      field := "attr_names".toList
      expected := "a non-empty array of attribute name strings".toList
      actual := .described (schema.member "attr_names".toList)
      message := ("Cannot validate attributes: AnonCreds schema attr_names is missing or " ++
        "invalid").toList }]
  | some attrNames =>
    (rules attrNames
      ((stringArray? (schema.member "optional_attributes".toList)).getD [])).issues attributes

end AnonCreds

/-! ## Declared claims -/

/-- The entries of a non-empty object, all of which can be read; `none` if one cannot. -/
def readEntries {δ : Type} (read : Value → Option δ) (value : Option Value) :
    Option (List (Text × δ)) :=
  (value.bind Value.object?).bind fun members =>
    if members ≠ [] ∧ (ownEntries members).all fun e => (read e.2).isSome then
      some ((ownEntries members).filterMap fun e => (read e.2).map fun d => (e.1, d))
    else none

/-- `isPlainObject(declaration) && isClaimType(declaration.type)` : the type. -/
def declaredType? (declaration : Value) : Option ClaimType :=
  if declaration.object?.isSome then claimType? (declaration.member "type".toList) else none

/-- The texts in which the issues of the two validators of claims differ. -/
structure ClaimTexts where
  noun : Text
  duplicate : Text
  undeclared : Text
  required : Text

def claimRules (texts : ClaimTexts) (claims : List (Text × ClaimType)) : AttributeRules where
  duplicate attr := {
    field := attr.name
    expected := "a single value".toList
    actual := .text texts.duplicate
    message := texts.noun ++ " '".toList ++ attr.name ++ "' was supplied more than once".toList }
  entry attr :=
    match claims.lookup attr.name with
    | none => some {
        field := attr.name
        expected := "one of: ".toList ++ commaSeparated (claims.map Prod.fst)
        actual := .text attr.name
        message := texts.noun ++ " '".toList ++ attr.name ++ texts.undeclared }
    | some type =>
      if matchesClaimType attr.value type then none else some {
        field := attr.name
        expected := "a ".toList ++ type.text ++ " value".toList
        actual := .described (some (.string attr.value))
        message := texts.noun ++ " '".toList ++ attr.name ++
          "' does not match its declared type '".toList ++ type.text ++ "'".toList }
  required := claims.map Prod.fst
  missing name := {
    field := name
    expected := "a value".toList
    actual := .text "missing".toList
    message := texts.required ++ " '".toList ++ name ++ "' was not supplied".toList }

/-! ## SD-JWT -/

namespace SdJwt

structure ClaimDeclaration where
  type : ClaimType
  disclosable : Option Bool

def bool? : Value → Option Bool
  | .bool b => some b
  | _ => none

def validateVct (vct : Option Value) : Option FormatValidationIssue :=
  if hasText vct then none else some {
    field := "vct".toList
    expected := "a non-empty string".toList
    actual := .described vct
    message := "SD-JWT schema must declare a non-empty vct (credential type)".toList }

def validateClaimDeclaration (name : Text) (declaration : Value) : List FormatValidationIssue :=
  let field := "claims.".toList ++ name
  let type := declaration.member "type".toList
  let disclosable := declaration.member "disclosable".toList
  if declaration.object?.isNone then [{
    field := field
    expected := "an object with a `type` field".toList
    actual := .described (some declaration)
    message := "SD-JWT claim '".toList ++ name ++ "' must declare its type as an object".toList }]
  else
    (if (claimType? type).isSome then [] else [{
      field := field ++ ".type".toList
      expected := "one of: string, number, boolean, array, object".toList
      actual := .described type
      message := "SD-JWT claim '".toList ++ name ++ "' declares an unsupported type".toList }]) ++
    if disclosable.isSome ∧ (disclosable.bind bool?).isNone then [{
      field := field ++ ".disclosable".toList
      expected := "a boolean".toList
      actual := .described disclosable
      message := "SD-JWT claim '".toList ++ name ++
        "' disclosable flag must be a boolean".toList }]
    else []

def validateClaims (claims : Option Value) : List FormatValidationIssue :=
  match claims.bind Value.object? with
  | none | some [] => [{
      field := "claims".toList
      expected := "a non-empty object mapping claim names to declarations".toList
      actual := .described claims
      message := "SD-JWT schema must declare at least one claim".toList }]
  | some members => (ownEntries members).flatMap fun e => validateClaimDeclaration e.1 e.2

/-- The declaration of a claim, if it has a type. -/
def readDeclaration (declaration : Value) : Option ClaimDeclaration :=
  (declaredType? declaration).map fun type =>
    { type := type, disclosable := (declaration.member "disclosable".toList).bind bool? }

def readValidClaims (schema : Value) : Option (List (Text × ClaimDeclaration)) :=
  readEntries readDeclaration (schema.member "claims".toList)

def validateSchema (schema : Value) : List FormatValidationIssue :=
  (validateVct (schema.member "vct".toList)).toList ++
    validateClaims (schema.member "claims".toList)

def texts : ClaimTexts where
  noun := "Claim".toList
  duplicate := "duplicate claim".toList
  undeclared := "' is not declared in the SD-JWT schema".toList
  required := "Required claim".toList

def validateAttributes (schema : Value) (attributes : List CredentialAttribute) :
    List FormatValidationIssue :=
  match readValidClaims schema with
  | none => [{
      field := "claims".toList
      expected := "a non-empty object mapping claim names to declarations".toList
      actual := .described (schema.member "claims".toList)
      message := "Cannot validate claims: SD-JWT schema claims is missing or invalid".toList }]
  | some claims => (claimRules texts (claims.map fun c => (c.1, c.2.type))).issues attributes

end SdJwt

/-! ## W3C VC -/

namespace W3cVc

def baseContexts : List Text :=
  ["https://www.w3.org/2018/credentials/v1".toList, "https://www.w3.org/ns/credentials/v2".toList]

def allowedContexts : List Text :=
  baseContexts ++
    ["https://www.w3.org/2018/credentials/examples/v1".toList,
      "https://w3id.org/security/suites/ed25519-2020/v1".toList,
      "https://w3id.org/security/suites/jws-2020/v1".toList,
      "https://w3id.org/citizenship/v1".toList]

def baseType : Text := "VerifiableCredential".toList

/-- `isNonEmptyStringArray` : the strings, none of which is blank. -/
def nonEmptyStringArray? (value : Option Value) : Option (List Text) :=
  (value.bind Value.array?).bind fun elements =>
    if elements ≠ [] ∧ elements.all fun e => hasText (some e) then
      some (elements.filterMap Value.string?)
    else none

def validateContext (context : Option Value) : List FormatValidationIssue :=
  match nonEmptyStringArray? context with
  | none => [{
      field := "@context".toList
      expected := "a non-empty array of context URL strings".toList
      actual := .described context
      message := "W3C VC schema must declare a non-empty @context array".toList }]
  | some urls =>
    let disallowed := urls.filter fun url => url ∉ allowedContexts
    (if disallowed ≠ [] then [{
      field := "@context".toList
      expected := "each URL to be one of: ".toList ++ commaSeparated allowedContexts
      actual := .described (some (.array (disallowed.map .string)))
      message :=
        "W3C VC schema @context contains a URL that is not in the allowed list".toList }]
    else []) ++
    if urls.any fun url => url ∈ baseContexts then [] else [{
      field := "@context".toList
      expected := "at least one of: ".toList ++ commaSeparated baseContexts
      actual := .described context
      message := "W3C VC schema @context must include the base VC context".toList }]

def validateType (type : Option Value) : List FormatValidationIssue :=
  match nonEmptyStringArray? type with
  | none => [{
      field := "type".toList
      expected := "a non-empty array of type strings".toList
      actual := .described type
      message := "W3C VC schema must declare a non-empty type array".toList }]
  | some types =>
    (if baseType ∈ types then [] else [{
      field := "type".toList
      expected := "an array including '".toList ++ baseType ++ "'".toList
      actual := .described type
      message := "W3C VC schema type array must include the base '".toList ++ baseType ++
        "' type".toList }]) ++
    if types.any fun t => t ≠ baseType then [] else [{
      field := "type".toList
      expected := "an array including a specific type in addition to '".toList ++ baseType ++
        "'".toList
      actual := .described type
      message := ("W3C VC schema type array must include a specific type from the credential " ++
        "definition").toList }]

def validateCredentialSubjectDeclaration (name : Text) (declaration : Value) :
    Option FormatValidationIssue :=
  if (declaredType? declaration).isSome then none else some {
    field := "credentialSubject.".toList ++ name
    expected :=
      "an object whose `type` is one of: string, number, boolean, array, object".toList
    actual := .described (some declaration)
    message := "W3C VC credentialSubject field '".toList ++ name ++
      "' must declare a supported type".toList }

def validateCredentialSubject (credentialSubject : Option Value) : List FormatValidationIssue :=
  match credentialSubject.bind Value.object? with
  | none | some [] => [{
      field := "credentialSubject".toList
      expected := "a non-empty object mapping field names to declarations".toList
      actual := .described credentialSubject
      message := "W3C VC schema must declare at least one credentialSubject field".toList }]
  | some members =>
    (ownEntries members).filterMap fun e => validateCredentialSubjectDeclaration e.1 e.2

def readValidCredentialSubject (schema : Value) : Option (List (Text × ClaimType)) :=
  readEntries declaredType? (schema.member "credentialSubject".toList)

def validateSchema (schema : Value) : List FormatValidationIssue :=
  validateContext (schema.member "@context".toList) ++ validateType (schema.member "type".toList) ++
    validateCredentialSubject (schema.member "credentialSubject".toList)

def texts : ClaimTexts where
  noun := "Attribute".toList
  duplicate := "duplicate attribute".toList
  undeclared := "' is not declared in the W3C VC credentialSubject schema".toList
  required := "Required attribute".toList

def validateAttributes (schema : Value) (attributes : List CredentialAttribute) :
    List FormatValidationIssue :=
  match readValidCredentialSubject schema with
  | none => [{
      field := "credentialSubject".toList
      expected := "a non-empty object mapping field names to declarations".toList
      actual := .described (schema.member "credentialSubject".toList)
      message := ("Cannot validate attributes: W3C VC schema credentialSubject is missing or " ++
        "invalid").toList }]
  | some credentialSubject => (claimRules texts credentialSubject).issues attributes

end W3cVc

/-! ## What a schema declares -/

structure Declaration where
  name : Text
  type : ClaimType
  required : Bool

/-- A value is the JSON literal of a type; a string may be any text. -/
def HasType (value : Text) : ClaimType → Prop
  | .string => True
  | .number => ∃ text, parse value = some (.number text) ∧ isFiniteNumber text = true
  | .boolean => ∃ b, parse value = some (.bool b)
  | .array => ∃ elements, parse value = some (.array elements)
  | .object => ∃ members, parse value = some (.object members)

/-- The attributes are what the declarations ask for. -/
structure Conforms (declarations : List Declaration) (attributes : List CredentialAttribute) :
    Prop where
  unrepeated : (attributes.map CredentialAttribute.name).Nodup
  declared : ∀ a ∈ attributes, ∃ d ∈ declarations, d.name = a.name
  present : ∀ d ∈ declarations, d.required = true → ∃ a ∈ attributes, a.name = d.name
  typed : ∀ a ∈ attributes, ∀ d ∈ declarations, d.name = a.name → HasType a.value d.type

/-- The claims that an object declares, with their types. -/
def declaredClaims (value : Option Value) : List (Text × ClaimType) :=
  (ownEntries ((value.bind Value.object?).getD [])).filterMap fun e =>
    (declaredType? e.2).map fun type => (e.1, type)

/-- Names with their types, all of them required. -/
def requiredClaims (claims : List (Text × ClaimType)) : List Declaration :=
  claims.map fun c => ⟨c.1, c.2, true⟩

/-- Names of strings, all of them required except for some. -/
def stringClaims (names optionalNames : List Text) : List Declaration :=
  names.map fun n => ⟨n, .string, decide (n ∉ optionalNames)⟩

/-- The formats with a validator of their own here. -/
inductive Format where
  | anonCreds
  | sdJwt
  | w3cVc

namespace Format

def validateSchema : Format → Value → List FormatValidationIssue
  | anonCreds => AnonCreds.validateSchema
  | sdJwt => SdJwt.validateSchema
  | w3cVc => W3cVc.validateSchema

def validateAttributes : Format → Value → List CredentialAttribute → List FormatValidationIssue
  | anonCreds => AnonCreds.validateAttributes
  | sdJwt => SdJwt.validateAttributes
  | w3cVc => W3cVc.validateAttributes

def declarations : Format → Value → List Declaration
  | anonCreds, schema =>
    stringClaims ((AnonCreds.stringArray? (schema.member "attr_names".toList)).getD [])
      ((AnonCreds.stringArray? (schema.member "optional_attributes".toList)).getD [])
  | sdJwt, schema => requiredClaims (declaredClaims (schema.member "claims".toList))
  | w3cVc, schema => requiredClaims (declaredClaims (schema.member "credentialSubject".toList))

end Format

/-! ## The loop -/

/-- When no entry has an issue. -/
theorem AttributeRules.entryIssues_eq_nil (rules : AttributeRules)
    (attributes : List CredentialAttribute) :
    ∀ seenNames, rules.entryIssues seenNames attributes = [] ↔
      (attributes.map CredentialAttribute.name).Nodup ∧
        (∀ a ∈ attributes, a.name ∉ seenNames) ∧ ∀ a ∈ attributes, rules.entry a = none := by
  induction attributes with
  | nil => simp [entryIssues]
  | cons a attributes ih =>
    intro seenNames
    -- the names after the first are checked against its name as well
    rw [entryIssues, List.append_eq_nil_iff, ih, List.map_cons, List.nodup_cons,
      List.forall_mem_cons, List.forall_mem_cons]
    have hhead :
        (if a.name ∈ seenNames then [rules.duplicate a] else (rules.entry a).toList) = [] ↔
          a.name ∉ seenNames ∧ rules.entry a = none := by
      split_ifs with h <;> simp [h]
    have hlater : (∀ b ∈ attributes, b.name ∉ a.name :: seenNames) ↔
        a.name ∉ attributes.map CredentialAttribute.name ∧
          ∀ b ∈ attributes, b.name ∉ seenNames := by
      simp only [List.mem_cons, not_or, List.mem_map, not_exists, not_and, forall_and]
    rw [hhead, hlater]
    tauto

/-- When the attributes have no issue. -/
theorem AttributeRules.issues_eq_nil (rules : AttributeRules)
    (attributes : List CredentialAttribute) :
    rules.issues attributes = [] ↔
      (attributes.map CredentialAttribute.name).Nodup ∧ (∀ a ∈ attributes, rules.entry a = none) ∧
        ∀ name ∈ rules.required, ∃ a ∈ attributes, a.name = name := by
  rw [issues, List.append_eq_nil_iff, rules.entryIssues_eq_nil, List.map_eq_nil_iff,
    List.filter_eq_nil_iff]
  simp [and_assoc]

theorem matchesClaimType_iff (value : Text) (type : ClaimType) :
    matchesClaimType value type = true ↔ HasType value type := by
  cases hparse : parse value with
  | none => cases type <;> simp [matchesClaimType, HasType, hparse]
  | some parsed => cases type <;> cases parsed <;> simp [matchesClaimType, HasType, hparse]

/-- AnonCreds accepts any value of a known name. -/
theorem AnonCreds.rules_entry (names optionalNames : List Text) (a : CredentialAttribute) :
    (AnonCreds.rules names optionalNames).entry a = none ↔ a.name ∈ names := by
  rw [AnonCreds.rules]
  dsimp only
  by_cases hmem : a.name ∈ names
  · rw [if_pos hmem]
    exact iff_of_true rfl hmem
  · rw [if_neg hmem]
    exact iff_of_false (Option.some_ne_none _) hmem

theorem AnonCreds.mem_required {names optionalNames : List Text} {name : Text} :
    name ∈ (AnonCreds.rules names optionalNames).required ↔
      name ∈ names ∧ name ∉ optionalNames := by
  rw [AnonCreds.rules]
  dsimp only
  rw [List.mem_eraseDups, List.mem_filter, decide_eq_true_iff]

/-- The rules of AnonCreds ask for what the names declare. -/
theorem AnonCreds.issues_iff (names optionalNames : List Text)
    (attributes : List CredentialAttribute) :
    (AnonCreds.rules names optionalNames).issues attributes = [] ↔
      Conforms (stringClaims names optionalNames) attributes := by
  rw [AttributeRules.issues_eq_nil]
  constructor
  · rintro ⟨hnodup, hentry, hrequired⟩
    refine ⟨hnodup, fun a ha => ?_, fun d hd hreq => ?_, fun a _ d hd _ => ?_⟩
    · have hmem := (AnonCreds.rules_entry names optionalNames a).mp (hentry a ha)
      exact ⟨_, List.mem_map_of_mem hmem, rfl⟩
    · obtain ⟨n, hn, rfl⟩ := List.mem_map.mp hd
      exact hrequired n (AnonCreds.mem_required.mpr ⟨hn, of_decide_eq_true hreq⟩)
    · obtain ⟨n, -, rfl⟩ := List.mem_map.mp hd
      trivial
  · intro h
    refine ⟨h.unrepeated, fun a ha => (AnonCreds.rules_entry _ _ a).mpr ?_, fun n hn => ?_⟩
    · obtain ⟨d, hd, hname⟩ := h.declared a ha
      obtain ⟨n, hn, rfl⟩ := List.mem_map.mp hd
      exact hname ▸ hn
    · obtain ⟨hmem, hnot⟩ := AnonCreds.mem_required.mp hn
      exact h.present _ (List.mem_map_of_mem hmem) (decide_eq_true hnot)

/-- The type under a name. -/
theorem lookup_iff {claims : List (Text × ClaimType)} (hnodup : (claims.map Prod.fst).Nodup)
    {name : Text} {type : ClaimType} :
    claims.lookup name = some type ↔ (name, type) ∈ claims := by
  induction claims with
  | nil => simp
  | cons c claims ih =>
    obtain ⟨hnot, hnodup⟩ := List.nodup_cons.mp hnodup
    rw [List.lookup_cons, List.mem_cons, Prod.ext_iff]
    by_cases hname : name = c.1
    · subst hname
      have habsent : (c.1, type) ∉ claims := fun h => hnot (List.mem_map.mpr ⟨_, h, rfl⟩)
      simp [habsent, eq_comm]
    · have hbeq : (name == c.1) = false := beq_eq_false_iff_ne.mpr hname
      simp [hbeq, hname, ih hnodup]

/-- When a claim's attribute is accepted. -/
theorem claimRules_entry {texts : ClaimTexts} {claims : List (Text × ClaimType)}
    (hnodup : (claims.map Prod.fst).Nodup) (a : CredentialAttribute) :
    (claimRules texts claims).entry a = none ↔
      ∃ type, (a.name, type) ∈ claims ∧ HasType a.value type := by
  cases hlookup : claims.lookup a.name with
  | none =>
    have hnot : ∀ type, (a.name, type) ∉ claims := fun type hmem => by
      rw [← lookup_iff hnodup, hlookup] at hmem
      cases hmem
    simp [claimRules, hlookup, hnot]
  | some type =>
    have hmem := (lookup_iff hnodup).mp hlookup
    have hunique : ∀ type', (a.name, type') ∈ claims → type' = type := fun type' hmem' => by
      rw [← lookup_iff hnodup, hlookup] at hmem'
      exact (Option.some.inj hmem').symm
    have hentry : (claimRules texts claims).entry a = none ↔ HasType a.value type := by
      rw [← matchesClaimType_iff]
      simp [claimRules, hlookup]
    rw [hentry]
    exact ⟨fun h => ⟨type, hmem, h⟩, fun ⟨type', hmem', h⟩ => hunique type' hmem' ▸ h⟩

/-- The rules of the validators of claims ask for what the claims declare. -/
theorem claimRules_issues_iff {texts : ClaimTexts} {claims : List (Text × ClaimType)}
    (hnodup : (claims.map Prod.fst).Nodup) (attributes : List CredentialAttribute) :
    (claimRules texts claims).issues attributes = [] ↔
      Conforms (requiredClaims claims) attributes := by
  rw [AttributeRules.issues_eq_nil]
  constructor
  · rintro ⟨hunrepeated, hentry, hrequired⟩
    have htyped := fun a ha => (claimRules_entry hnodup a).mp (hentry a ha)
    refine ⟨hunrepeated, fun a ha => ?_, fun d hd _ => ?_, fun a ha d hd hname => ?_⟩
    · obtain ⟨type, hmem, -⟩ := htyped a ha
      exact ⟨_, List.mem_map_of_mem hmem, rfl⟩
    · obtain ⟨c, hc, rfl⟩ := List.mem_map.mp hd
      exact hrequired c.1 (List.mem_map_of_mem hc)
    · obtain ⟨type, hmem, htype⟩ := htyped a ha
      obtain ⟨c, hc, rfl⟩ := List.mem_map.mp hd
      have hc' : (a.name, c.2) ∈ claims := hname ▸ hc
      have heq := ((lookup_iff hnodup).mpr hc').symm.trans ((lookup_iff hnodup).mpr hmem)
      exact Option.some.inj heq ▸ htype
  · intro h
    refine ⟨h.unrepeated, fun a ha => (claimRules_entry hnodup a).mpr ?_, fun n hn => ?_⟩
    · obtain ⟨d, hd, hname⟩ := h.declared a ha
      have htype := h.typed a ha d hd hname
      obtain ⟨c, hc, rfl⟩ := List.mem_map.mp hd
      exact ⟨c.2, hname ▸ hc, htype⟩
    · obtain ⟨c, hc, rfl⟩ := List.mem_map.mp hn
      exact h.present _ (List.mem_map_of_mem hc) rfl

/-! ## The declarations of an accepted schema -/

/-- An object all of whose members declare a claim. -/
structure Declares (value : Option Value) (members : List (Text × Value)) : Prop where
  object : value.bind Value.object? = some members
  nonempty : members ≠ []
  typed : ∀ e ∈ ownEntries members, (declaredType? e.2).isSome = true

/-- No claim is declared twice. -/
theorem nodup_declaredClaims (value : Option Value) :
    ((declaredClaims value).map Prod.fst).Nodup := by
  have hsublist : ((declaredClaims value).map Prod.fst).Sublist
      ((ownEntries ((value.bind Value.object?).getD [])).map Prod.fst) := by
    rw [declaredClaims, List.map_filterMap, ← List.filterMap_eq_map]
    induction ownEntries ((value.bind Value.object?).getD []) with
    | nil => exact List.Sublist.refl _
    | cons e entries ih =>
      cases htype : declaredType? e.2 with
      | none => simpa [htype] using ih.cons e.1
      | some type => simpa [htype] using ih.cons_cons e.1
  exact hsublist.nodup (map_ownEntries _ ▸ nodup_ownKeys _)

/-- A reader that keeps the type reads the claims that are declared. -/
theorem readEntries_of_declares {δ : Type} {read : Value → Option δ} (typeOf : δ → ClaimType)
    (hread : ∀ v, (read v).map typeOf = declaredType? v) {value : Option Value}
    {members : List (Text × Value)} (h : Declares value members) :
    ∃ claims, readEntries read value = some claims ∧
      claims.map (fun c => (c.1, typeOf c.2)) = declaredClaims value := by
  have hsome : (ownEntries members).all (fun e => (read e.2).isSome) = true := by
    rw [List.all_eq_true]
    intro e he
    have htyped := h.typed e he
    rwa [← hread, Option.isSome_map] at htyped
  refine ⟨_, by rw [readEntries, h.object, Option.bind_some, if_pos ⟨h.nonempty, hsome⟩], ?_⟩
  rw [declaredClaims, h.object, Option.getD_some, List.map_filterMap]
  refine List.filterMap_congr fun e _ => ?_
  rw [← hread, Option.map_map, Option.map_map]
  rfl

theorem SdJwt.map_readDeclaration (v : Value) :
    (SdJwt.readDeclaration v).map ClaimDeclaration.type = declaredType? v := by
  rw [SdJwt.readDeclaration, Option.map_map]
  exact Option.map_id'

/-- A valid claim declares a type. -/
theorem SdJwt.declaredType_of_valid {name : Text} {declaration : Value}
    (h : SdJwt.validateClaimDeclaration name declaration = []) :
    (declaredType? declaration).isSome = true := by
  rw [SdJwt.validateClaimDeclaration] at h
  by_cases hobject : declaration.object?.isNone = true
  · rw [if_pos hobject] at h
    cases h
  · rw [if_neg hobject] at h
    have htype := (List.append_eq_nil_iff.mp h).1
    have hsome : declaration.object?.isSome = true := by
      rwa [Option.isSome_iff_ne_none, ne_eq, ← Option.isNone_iff_eq_none]
    rw [declaredType?, if_pos hsome]
    by_contra hnot
    rw [if_neg hnot] at htype
    cases htype

variable {schema : Value}

/-- The claims of an accepted SD-JWT schema. -/
theorem SdJwt.declares (h : SdJwt.validateSchema schema = []) :
    ∃ members, Declares (schema.member "claims".toList) members := by
  have hclaims := (List.append_eq_nil_iff.mp h).2
  rw [SdJwt.validateClaims] at hclaims
  split at hclaims
  · cases hclaims
  · cases hclaims
  · rename_i members hnonempty hobject
    refine ⟨members, hobject, hnonempty, fun e he => ?_⟩
    exact SdJwt.declaredType_of_valid (List.flatMap_eq_nil_iff.mp hclaims e he)

/-- The subject of an accepted W3C VC schema. -/
theorem W3cVc.declares (h : W3cVc.validateSchema schema = []) :
    ∃ members, Declares (schema.member "credentialSubject".toList) members := by
  have hsubject := (List.append_eq_nil_iff.mp h).2
  rw [W3cVc.validateCredentialSubject] at hsubject
  split at hsubject
  · cases hsubject
  · cases hsubject
  · rename_i members hnonempty hobject
    refine ⟨members, hobject, hnonempty, fun e he => ?_⟩
    have hentry := List.filterMap_eq_nil_iff.mp hsubject e he
    rw [W3cVc.validateCredentialSubjectDeclaration] at hentry
    by_contra hnot
    rw [if_neg hnot] at hentry
    cases hentry

/-- The names of an accepted AnonCreds schema. -/
theorem AnonCreds.names (h : AnonCreds.validateSchema schema = []) :
    ∃ names, AnonCreds.stringArray? (schema.member "attr_names".toList) = some names ∧
      names ≠ [] ∧ names.Nodup := by
  have hnames := (List.append_eq_nil_iff.mp (List.append_eq_nil_iff.mp h).1).1
  rw [Option.toList_eq_nil_iff, AnonCreds.validateAttrNames] at hnames
  split at hnames
  · cases hnames
  · rename_i names hread
    obtain ⟨hread, hnonempty⟩ := Option.filter_eq_some_iff.mp hread
    refine ⟨names, hread, of_decide_eq_true hnonempty, ?_⟩
    by_contra hnot
    have hshorter : names.dedup.length ≠ names.length := fun heq =>
      hnot (List.dedup_eq_self.mp ((List.dedup_sublist names).eq_of_length heq))
    rw [if_pos hshorter] at hnames
    cases hnames

/-- AnonCreds accepts what conforms. -/
theorem AnonCreds.valid_iff (hschema : AnonCreds.validateSchema schema = [])
    (attributes : List CredentialAttribute) :
    AnonCreds.validateAttributes schema attributes = [] ↔
      Conforms (Format.anonCreds.declarations schema) attributes := by
  obtain ⟨names, hread, hnonempty, -⟩ := AnonCreds.names hschema
  have hnames : AnonCreds.nonEmptyStringArray? (schema.member "attr_names".toList) = some names :=
    Option.filter_eq_some_iff.mpr ⟨hread, decide_eq_true hnonempty⟩
  rw [Format.declarations, AnonCreds.validateAttributes, hnames, hread]
  exact AnonCreds.issues_iff _ _ _

/-- So does SD-JWT. -/
theorem SdJwt.valid_iff (hschema : SdJwt.validateSchema schema = [])
    (attributes : List CredentialAttribute) :
    SdJwt.validateAttributes schema attributes = [] ↔
      Conforms (Format.sdJwt.declarations schema) attributes := by
  obtain ⟨members, hmembers⟩ := SdJwt.declares hschema
  obtain ⟨claims, hread, hclaims⟩ := readEntries_of_declares _ SdJwt.map_readDeclaration hmembers
  rw [Format.declarations, SdJwt.validateAttributes, SdJwt.readValidClaims, hread, ← hclaims]
  exact claimRules_issues_iff (hclaims ▸ nodup_declaredClaims _) _

/-- So does W3C VC. -/
theorem W3cVc.valid_iff (hschema : W3cVc.validateSchema schema = [])
    (attributes : List CredentialAttribute) :
    W3cVc.validateAttributes schema attributes = [] ↔
      Conforms (Format.w3cVc.declarations schema) attributes := by
  obtain ⟨members, hmembers⟩ := W3cVc.declares hschema
  obtain ⟨claims, hread, hclaims⟩ :=
    readEntries_of_declares id (fun _ => Option.map_id') hmembers
  have hclaims' : claims = declaredClaims (schema.member "credentialSubject".toList) := by
    rw [← hclaims]
    exact (List.map_id' claims).symm
  rw [Format.declarations, W3cVc.validateAttributes, W3cVc.readValidCredentialSubject, hread,
    hclaims']
  exact claimRules_issues_iff (nodup_declaredClaims _) _

/-- No issue: no name is met again, every name is declared, every required name is met, and every
value has its declared type. -/
theorem attributes_valid_iff (format : Format) (schema : Value)
    (hschema : format.validateSchema schema = []) (attributes : List CredentialAttribute) :
    format.validateAttributes schema attributes = [] ↔
      Conforms (format.declarations schema) attributes := by
  cases format with
  | anonCreds => exact AnonCreds.valid_iff hschema attributes
  | sdJwt => exact SdJwt.valid_iff hschema attributes
  | w3cVc => exact W3cVc.valid_iff hschema attributes

def ageSchema : Value :=
  .object [("vct".toList, .string "person".toList),
    ("claims".toList, .object [("age".toList, .object [("type".toList, .string "number".toList)])])]

theorem attributes_valid_iff_age :
    Format.sdJwt.validateAttributes ageSchema [⟨"age".toList, "34".toList⟩] = [] ∧
      (Format.sdJwt.validateAttributes ageSchema [⟨"age".toList, "34".toList⟩] = [] ↔
        Conforms (Format.sdJwt.declarations ageSchema) [⟨"age".toList, "34".toList⟩]) :=
  ⟨by decide +kernel, attributes_valid_iff _ _ (by decide +kernel) _⟩

/-! ## Offers -/

/-- `OfferCredentialRequest`; `none` for a format that is none of the enumeration. -/
structure OfferCredentialRequest where
  format : Option Connectors.CredentialFormat
  attributes : List CredentialAttribute

/-- `validateOfferCredentialRequest` : the issues of a `ValidationError`. A request that is not an
object is `none`. -/
def validateOfferCredentialRequest : Option OfferCredentialRequest → Option (List Text)
  | none => some ["request must be a non-null object".toList]
  | some req =>
    let issues :=
      (if req.format.any (· ∈ Connectors.CredentialFormat.values) then []
        else ["format is required/invalid".toList]) ++
      if req.attributes = [] then ["attributes must not be empty".toList]
      else (req.attributes.filter fun a => !hasText (some (.string a.name))).map fun _ =>
        "attribute name must not be empty".toList
    if issues = [] then none else some issues

def Format.format : Format → Connectors.CredentialFormat
  | anonCreds => .anonCreds
  | sdJwt => .sdJwtVc
  | w3cVc => .jsonLd

/-- A list of attributes passes both validators of an offer. -/
def Offerable (format : Format) (schema : Value) (attributes : List CredentialAttribute) : Prop :=
  format.validateAttributes schema attributes = [] ∧
    validateOfferCredentialRequest (some ⟨some format.format, attributes⟩) = none

def Declaration.named (d : Declaration) : Bool := hasText (some (.string d.name))

theorem report_eq_none (issues : List Text) :
    (if issues = [] then none else some issues) = none ↔ issues = [] := by
  by_cases h : issues = [] <;> simp [h]

/-- The shape an offer must have. -/
theorem validateOfferCredentialRequest_iff (format : Format)
    (attributes : List CredentialAttribute) :
    validateOfferCredentialRequest (some ⟨some format.format, attributes⟩) = none ↔
      attributes ≠ [] ∧ ∀ a ∈ attributes, hasText (some (.string a.name)) = true := by
  have hformat : (some format.format).any (· ∈ Connectors.CredentialFormat.values) = true := by
    cases format <;> rfl
  rw [validateOfferCredentialRequest]
  dsimp only
  rw [report_eq_none, if_pos hformat, List.nil_append]
  by_cases hnil : attributes = []
  · rw [if_pos hnil]
    exact iff_of_false (List.cons_ne_nil _ _) fun h => h.1 hnil
  · rw [if_neg hnil, List.map_eq_nil_iff, List.filter_eq_nil_iff]
    simp [hnil]

def sampleValue : ClaimType → Text
  | .string => []
  | .number => "0".toList
  | .boolean => "true".toList
  | .array => "[]".toList
  | .object => "\x7b\x7d".toList

theorem hasType_sampleValue (type : ClaimType) : HasType (sampleValue type) type := by
  rw [← matchesClaimType_iff]
  cases type <;> decide +kernel

/-- An attribute for each declaration whose name is not blank. -/
def sampleAttributes (declarations : List Declaration) : List CredentialAttribute :=
  (declarations.filter Declaration.named).map fun d => ⟨d.name, sampleValue d.type⟩

/-- The sample attributes conform. -/
theorem conforms_sampleAttributes {declarations : List Declaration}
    (hnodup : (declarations.map Declaration.name).Nodup)
    (hnamed : ∀ d ∈ declarations, d.required = true → d.named = true) :
    Conforms declarations (sampleAttributes declarations) := by
  refine ⟨?_, fun a ha => ?_, fun d hd hreq => ?_, fun a ha d hd hname => ?_⟩
  · rw [sampleAttributes, List.map_map]
    exact (List.filter_sublist.map Declaration.name).nodup hnodup
  · obtain ⟨d, hd, rfl⟩ := List.mem_map.mp ha
    exact ⟨d, List.mem_of_mem_filter hd, rfl⟩
  · have hmem := List.mem_filter.mpr ⟨hd, hnamed d hd hreq⟩
    exact ⟨_, List.mem_map_of_mem hmem, rfl⟩
  · -- a name is declared once, so the type is that of the sample
    obtain ⟨d', hd', rfl⟩ := List.mem_map.mp ha
    have heq : d = d' := List.inj_on_of_nodup_map hnodup hd (List.mem_of_mem_filter hd') hname
    exact heq ▸ hasType_sampleValue d.type

/-- A valid schema declares each name once. -/
theorem nodup_declarations {format : Format} (hschema : format.validateSchema schema = []) :
    ((format.declarations schema).map Declaration.name).Nodup := by
  cases format with
  | anonCreds =>
    obtain ⟨names, hread, -, hnodup⟩ := AnonCreds.names hschema
    rw [Format.declarations, hread, Option.getD_some, stringClaims, List.map_map]
    exact (List.map_id' names).symm ▸ hnodup
  | sdJwt =>
    rw [Format.declarations, requiredClaims, List.map_map]
    exact nodup_declaredClaims _
  | w3cVc =>
    rw [Format.declarations, requiredClaims, List.map_map]
    exact nodup_declaredClaims _

/-- Some list of attributes can be offered exactly when a declared name is not blank, and no
required one is. -/
theorem offerable_iff (format : Format) (schema : Value)
    (hschema : format.validateSchema schema = []) :
    (∃ attributes, Offerable format schema attributes) ↔
      (∃ d ∈ format.declarations schema, d.named = true) ∧
        ∀ d ∈ format.declarations schema, d.required = true → d.named = true := by
  have hvalid : ∀ attributes, format.validateAttributes schema attributes = [] ↔
      Conforms (format.declarations schema) attributes := by
    cases format with
    | anonCreds => exact AnonCreds.valid_iff hschema
    | sdJwt => exact SdJwt.valid_iff hschema
    | w3cVc => exact W3cVc.valid_iff hschema
  simp only [Offerable, hvalid, validateOfferCredentialRequest_iff]
  constructor
  · rintro ⟨attributes, hconforms, hnonempty, hnamed⟩
    constructor
    · obtain ⟨a, ha⟩ := List.exists_mem_of_ne_nil _ hnonempty
      obtain ⟨d, hd, hname⟩ := hconforms.declared a ha
      refine ⟨d, hd, ?_⟩
      rw [Declaration.named, hname]
      exact hnamed a ha
    · intro d hd hreq
      obtain ⟨a, ha, hname⟩ := hconforms.present d hd hreq
      rw [Declaration.named, ← hname]
      exact hnamed a ha
  · rintro ⟨⟨d, hd, hd'⟩, hnamed⟩
    refine ⟨_, conforms_sampleAttributes (nodup_declarations hschema) hnamed, ?_, ?_⟩
    · exact List.ne_nil_of_mem (List.mem_map_of_mem (List.mem_filter.mpr ⟨hd, hd'⟩))
    · intro a ha
      obtain ⟨d, hd, rfl⟩ := List.mem_map.mp ha
      exact (List.mem_filter.mp hd).2

def nameSchema (name : Text) : Value :=
  .object [("attr_names".toList, .array [.string name]),
    ("schema_name".toList, .string "person".toList),
    ("schema_version".toList, .string "1.0".toList)]

theorem offerable_iff_age :
    Format.anonCreds.validateSchema (nameSchema "age".toList) = [] ∧
      ∃ attributes, Offerable .anonCreds (nameSchema "age".toList) attributes := by
  refine ⟨by decide +kernel, (offerable_iff _ _ (by decide +kernel)).mpr ⟨?_, ?_⟩⟩
  · exact ⟨⟨"age".toList, .string, true⟩, List.mem_singleton.mpr rfl, by decide +kernel⟩
  · intro d hd _
    rw [List.mem_singleton.mp hd]
    decide +kernel

/-- A schema may require a blank name, which no offer may have. -/
theorem blank_name_not_offerable :
    Format.anonCreds.validateSchema (nameSchema " ".toList) = [] ∧
      ¬ ∃ attributes, Offerable .anonCreds (nameSchema " ".toList) attributes := by
  have hschema : AnonCreds.validateSchema (nameSchema " ".toList) = [] := by decide +kernel
  refine ⟨hschema, ?_⟩
  rintro ⟨attributes, hvalid, hrequest⟩
  have hconforms := (AnonCreds.valid_iff hschema attributes).mp hvalid
  have hnamed := ((validateOfferCredentialRequest_iff .anonCreds attributes).mp hrequest).2
  have hdeclared : (⟨" ".toList, .string, true⟩ : Declaration) ∈
      Format.anonCreds.declarations (nameSchema " ".toList) :=
    List.mem_singleton.mpr rfl
  obtain ⟨a, ha, hname⟩ := hconforms.present _ hdeclared rfl
  have htext := hnamed a ha
  rw [hname] at htext
  revert htext
  decide +kernel

end DigitalTrust.FormatValidators
