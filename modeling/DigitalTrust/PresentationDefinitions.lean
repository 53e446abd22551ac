/-
# Attributes of a presentation definition

`presentation-definition.validator.ts`: a path is cut at dots and brackets wherever they stand, also
inside a quoted bracket segment, and the quotes around the last piece are taken off.
-/
import DigitalTrust.Json
import DigitalTrust.Schema

namespace DigitalTrust.PresentationDefinitions

open Json

/-! ## Paths -/

/-- The characters that `[.[\]]` stands for. -/
def isSeparator (c : Char) : Bool := c = '.' ∨ c = '[' ∨ c = ']'

/-- `segment.length >= 2 && segment.startsWith(q) && segment.endsWith(q)`. -/
def quotedBy (q : Char) (segment : Text) : Bool :=
  2 ≤ segment.length ∧ segment.head? = some q ∧ segment.getLast? = some q

def stripJsonPathQuotes (segment : Text) : Text :=
  if quotedBy '\'' segment ∨ quotedBy '"' segment then segment.tail.dropLast else segment

def attributeNameFromPath (path : Text) : Option Text :=
  let segments := (path.splitOnP isSeparator).filter (· ≠ [])
  segments.getLast?.map stripJsonPathQuotes

/-! ## Definitions -/

/-- The elements of a member, if it is an array. -/
def elementsOf (v : Option Value) : List Value := (v.bind Value.array?).getD []

def hasValidDescriptorId (descriptor : Value) : Bool :=
  ((descriptor.member "id".toList).bind Value.string?).isSome

/-- The strings of a field's `path`. -/
def pathsOfField (field : Value) : List Text :=
  (elementsOf (field.member "path".toList)).filterMap Value.string?

def attributeNamesFromField (field : Value) : List Text :=
  (pathsOfField field).filterMap attributeNameFromPath

/-- `descriptor.constraints?.fields`, if it is an array. -/
def fieldsOfDescriptor (descriptor : Value) : List Value :=
  elementsOf ((descriptor.member "constraints".toList).bind (Value.member "fields".toList))

def attributeNamesFromDescriptor (descriptor : Value) : List Text :=
  (fieldsOfDescriptor descriptor).flatMap attributeNamesFromField

/-- `names.add(name)` for a `Set`, which keeps the order of first insertion. -/
def addName (names : List Text) (name : Text) : List Text :=
  if name ∈ names then names else names ++ [name]

/-- The body of the loop over the descriptors. -/
def addDescriptor (names : List Text) (descriptor : Value) : Except Failure (List Text) :=
  if hasValidDescriptorId descriptor then
    .ok ((attributeNamesFromDescriptor descriptor).foldl addName names)
  else
    .error (.badRequest
      "Each presentation_definition input_descriptor must declare a string 'id'.")

def extractRequestedAttributes (presentationDefinition : Value) : Except Failure (List Text) :=
  match elementsOf (presentationDefinition.member "input_descriptors".toList) with
  | [] =>
    .error (.badRequest ("presentation_definition must be a DIF Presentation Exchange object " ++
      "with a non-empty input_descriptors array."))
  | inputDescriptors => inputDescriptors.foldlM addDescriptor []

/-! ## The last segment -/

/-- The name in the last segment, and what is before it. -/
theorem attributeNameFromPath_append {c : Char} (hc : isSeparator c = true) (pre : Text)
    {segment : Text} (hne : segment ≠ []) (hplain : ∀ d ∈ segment, isSeparator d = false) :
    attributeNameFromPath (pre ++ c :: segment) = some (stripJsonPathQuotes segment) := by
  rw [attributeNameFromPath, List.splitOnP_append_cons pre segment hc,
    List.splitOnP_eq_singleton hplain, List.filter_append]
  simp [hne]

/-- A separator at the end of a path counts for nothing. -/
theorem attributeNameFromPath_concat {c : Char} (hc : isSeparator c = true) (path : Text) :
    attributeNameFromPath (path ++ [c]) = attributeNameFromPath path := by
  rw [attributeNameFromPath, List.splitOnP_append_cons path [] hc, List.filter_append]
  simp [attributeNameFromPath]

/-- A text has no separator, or a last one. -/
theorem plain_or_last_separator (t : Text) :
    (∀ c ∈ t, isSeparator c = false) ∨
      ∃ x c w, t = x ++ c :: w ∧ isSeparator c = true ∧ ∀ d ∈ w, isSeparator d = false := by
  induction t with
  | nil => exact Or.inl (by simp)
  | cons a t ih =>
    rcases ih with hplain | ⟨x, c, w, rfl, hc, hw⟩
    · cases ha : isSeparator a with
      | true => exact Or.inr ⟨[], a, t, rfl, ha, hplain⟩
      | false => exact Or.inl (by simpa [ha] using hplain)
    · exact Or.inr ⟨a :: x, c, w, rfl, hc, hw⟩

/-! ## Quoted bracket segments -/

/-- A path that ends in a quoted bracket segment, with a name that has no quote in it. -/
structure QuotedPath where
  before : Text
  quote : Char
  name : Text
  isQuote : quote = '\'' ∨ quote = '"'
  unquoted : ∀ c ∈ name, c ≠ '\'' ∧ c ≠ '"'

namespace QuotedPath

def path (p : QuotedPath) : Text := p.before ++ '[' :: (p.quote :: (p.name ++ [p.quote]) ++ [']'])

/-- The path with the name after a dot. -/
def dotted (p : QuotedPath) : Text := p.before ++ '.' :: p.name

/-- The name has no dot and no bracket in it. -/
def Plain (p : QuotedPath) : Prop := ∀ c ∈ p.name, isSeparator c = false

variable (p : QuotedPath)

theorem quote_plain : isSeparator p.quote = false := by
  rcases p.isQuote with h | h <;> rw [h] <;> decide

theorem attributeName_path :
    attributeNameFromPath p.path =
      attributeNameFromPath (p.before ++ '[' :: (p.quote :: (p.name ++ [p.quote]))) := by
  have hsplit : p.path = (p.before ++ '[' :: (p.quote :: (p.name ++ [p.quote]))) ++ [']'] := by
    simp [path]
  rw [hsplit, attributeNameFromPath_concat (by decide)]

/-- The quotes around the segment are taken off. -/
theorem strip_segment :
    stripJsonPathQuotes (p.quote :: (p.name ++ [p.quote])) = p.name := by
  have hquoted : quotedBy p.quote (p.quote :: (p.name ++ [p.quote])) = true := by
    simp [quotedBy, List.getLast?_cons]
  rw [stripJsonPathQuotes, if_pos, List.tail_cons, List.dropLast_concat]
  rcases p.isQuote with h | h
  · exact Or.inl (h ▸ hquoted)
  · exact Or.inr (h ▸ hquoted)

/-- What is left of a name after its last separator does not begin with a quote. -/
theorem strip_remainder {w : Text} (hw : ∀ c ∈ w, c ∈ p.name) :
    stripJsonPathQuotes (w ++ [p.quote]) = w ++ [p.quote] := by
  have hquoted : ∀ q, q = '\'' ∨ q = '"' → quotedBy q (w ++ [p.quote]) = false := by
    intro q hq
    cases w with
    | nil => simp [quotedBy]
    | cons c w =>
      have hc := p.unquoted c (hw c (by simp))
      rcases hq with rfl | rfl
      · simp [quotedBy, hc.1]
      · simp [quotedBy, hc.2]
  rw [stripJsonPathQuotes, if_neg]
  simp [hquoted]

/-- A plain path names its attribute. -/
theorem attributeName_of_plain (h : p.Plain) : attributeNameFromPath p.path = some p.name := by
  rw [attributeName_path, attributeNameFromPath_append (by decide) _ (by simp), strip_segment]
  intro d hd
  simp only [List.mem_cons, List.mem_append, List.not_mem_nil, or_false] at hd
  rcases hd with rfl | hd | rfl
  · exact p.quote_plain
  · exact h d hd
  · exact p.quote_plain

/-- Of a name with a dot or a bracket only a remainder is left, with the closing quote. -/
theorem attributeName_of_not_plain (h : ¬p.Plain) :
    ∃ w, attributeNameFromPath p.path = some (w ++ [p.quote]) := by
  rcases plain_or_last_separator p.name with hplain | ⟨x, c, w, hname, hc, hw⟩
  · exact absurd hplain h
  · refine ⟨w, ?_⟩
    have hsplit : p.before ++ '[' :: (p.quote :: (p.name ++ [p.quote])) =
        (p.before ++ '[' :: p.quote :: x) ++ c :: (w ++ [p.quote]) := by
      rw [hname]
      simp
    have hplain : ∀ d ∈ w ++ [p.quote], isSeparator d = false := by
      intro d hd
      rcases List.mem_append.mp hd with hd | hd
      · exact hw d hd
      · rw [List.mem_singleton.mp hd]
        exact p.quote_plain
    rw [attributeName_path, hsplit, attributeNameFromPath_append hc _ (by simp) hplain,
      strip_remainder]
    intro d hd
    rw [hname]
    simp [hd]

/-- A name without dots, brackets and quotes is found after a dot as well. -/
theorem attributeName_dotted (h : p.Plain) (hne : p.name ≠ []) :
    attributeNameFromPath p.dotted = some p.name := by
  rw [dotted, attributeNameFromPath_append (by decide) _ hne h, stripJsonPathQuotes, if_neg]
  cases hname : p.name with
  | nil => exact absurd hname hne
  | cons c name =>
    have hc := p.unquoted c (by simp [hname])
    simp [quotedBy, hc.1, hc.2]

end QuotedPath

/-! ## Whole definitions -/

/-- The paths of a definition, all of its descriptors together. -/
def pathsOf (presentationDefinition : Value) : List Text :=
  (elementsOf (presentationDefinition.member "input_descriptors".toList)).flatMap fun descriptor =>
    (fieldsOfDescriptor descriptor).flatMap pathsOfField

/-- A definition that is accepted: it has descriptors, and each has an id. -/
def Accepted (presentationDefinition : Value) : Prop :=
  elementsOf (presentationDefinition.member "input_descriptors".toList) ≠ [] ∧
    ∀ d ∈ elementsOf (presentationDefinition.member "input_descriptors".toList),
      hasValidDescriptorId d = true

/-- The attributes requested are these names, each once. -/
def Requests (presentationDefinition : Value) (names : List Text) : Prop :=
  ∃ out, extractRequestedAttributes presentationDefinition = .ok out ∧ out.Nodup ∧
    ∀ name, name ∈ out ↔ name ∈ names

/-- Every name is collected. -/
theorem mem_foldl_addName (names acc : List Text) (x : Text) :
    x ∈ names.foldl addName acc ↔ x ∈ acc ∨ x ∈ names := by
  induction names generalizing acc with
  | nil => simp
  | cons n names ih =>
    have hmem : x ∈ addName acc n ↔ x ∈ acc ∨ x = n := by
      unfold addName
      split
      · rename_i hn
        exact ⟨Or.inl, fun h => h.elim id fun e => e ▸ hn⟩
      · simp
    rw [List.foldl_cons, ih, hmem, List.mem_cons, or_assoc]

/-- No name is collected twice. -/
theorem nodup_foldl_addName (names : List Text) {acc : List Text} (h : acc.Nodup) :
    (names.foldl addName acc).Nodup := by
  induction names generalizing acc with
  | nil => exact h
  | cons n names ih =>
    refine ih ?_
    unfold addName
    split
    · exact h
    · rename_i hn
      exact List.concat_eq_append ▸ h.concat hn

/-- Valid descriptors are all collected. -/
theorem foldlM_addDescriptor {ds : List Value} (h : ∀ d ∈ ds, hasValidDescriptorId d = true)
    (acc : List Text) :
    ds.foldlM addDescriptor acc =
      .ok ((ds.flatMap attributeNamesFromDescriptor).foldl addName acc) := by
  induction ds generalizing acc with
  | nil => rfl
  | cons d ds ih =>
    have hd : addDescriptor acc d =
        .ok ((attributeNamesFromDescriptor d).foldl addName acc) := if_pos (h d (by simp))
    rw [List.foldlM_cons, hd, List.flatMap_cons, List.foldl_append]
    exact ih (fun d hd => h d (List.mem_cons_of_mem _ hd)) _

/-- The attributes of a definition are the names of its paths. -/
theorem extract_eq {pd : Value} (h : Accepted pd) :
    extractRequestedAttributes pd =
      .ok (((pathsOf pd).filterMap attributeNameFromPath).foldl addName []) := by
  obtain ⟨hne, hids⟩ := h
  have hfold : extractRequestedAttributes pd =
      (elementsOf (pd.member "input_descriptors".toList)).foldlM addDescriptor [] := by
    unfold extractRequestedAttributes
    split
    · rename_i hnil
      exact absurd hnil hne
    · rfl
  rw [hfold, foldlM_addDescriptor hids, pathsOf, List.filterMap_flatMap]
  simp only [List.filterMap_flatMap]
  rfl

/-- For every definition whose paths all end in quoted bracket segments, the attributes are the
quoted names if and only if no name has a dot or a bracket.  Then the path with a dot refers to the
same attribute. -/
theorem bracket_names_iff (pd : Value) (haccepted : Accepted pd) (ps : List QuotedPath)
    (hps : pathsOf pd = ps.map QuotedPath.path) :
    (Requests pd (ps.map QuotedPath.name) ↔ ∀ p ∈ ps, p.Plain) ∧
      ∀ p ∈ ps, p.Plain → p.name ≠ [] →
        attributeNameFromPath p.dotted = attributeNameFromPath p.path := by
  refine ⟨⟨fun hrequests p hp => ?_, fun hplain => ?_⟩, fun p _ hplain hne => ?_⟩
  · obtain ⟨out, hout, -, hnames⟩ := hrequests
    by_contra hbroken
    obtain ⟨w, hw⟩ := p.attributeName_of_not_plain hbroken
    -- the remainder is one of the attributes, and it has a quote in it
    have hmem : w ++ [p.quote] ∈ out := by
      rw [extract_eq haccepted, Except.ok.injEq] at hout
      rw [← hout, mem_foldl_addName, hps]
      exact Or.inr (List.mem_filterMap.mpr ⟨p.path, List.mem_map_of_mem hp, hw⟩)
    obtain ⟨p', -, hname⟩ := List.mem_map.mp ((hnames _).mp hmem)
    have hquote := p'.unquoted p.quote (by simp [hname])
    exact p.isQuote.elim hquote.1 hquote.2
  · have hfilter : (ps.map QuotedPath.path).filterMap attributeNameFromPath =
        ps.map QuotedPath.name := by
      rw [List.filterMap_map, ← List.filterMap_eq_map]
      exact List.filterMap_congr fun p hp => p.attributeName_of_plain (hplain p hp)
    refine ⟨_, extract_eq haccepted, nodup_foldl_addName _ List.nodup_nil, fun name => ?_⟩
    rw [mem_foldl_addName, hps, hfilter]
    simp
  · rw [p.attributeName_dotted hplain hne, p.attributeName_of_plain hplain]

/-- A definition with one descriptor and one field of these paths. -/
def sampleDefinition (paths : List Text) : Value :=
  .object [("input_descriptors".toList, .array [.object [("id".toList, .string "d".toList),
    ("constraints".toList, .object [("fields".toList,
      .array [.object [("path".toList, .array (paths.map .string))]])])]])]

def givenNames : QuotedPath where
  before := "$.credentialSubject".toList
  quote := '\''
  name := "given_names".toList
  isQuote := Or.inl rfl
  unquoted := by simp

/-- The definition with that path: the attribute is the quoted name. -/
theorem bracket_names_iff_givenNames :
    Accepted (sampleDefinition [givenNames.path]) ∧
      (Requests (sampleDefinition [givenNames.path]) ["given_names".toList] ↔
        givenNames.Plain) := by
  have haccepted : Accepted (sampleDefinition [givenNames.path]) :=
    ⟨by decide +kernel, by decide +kernel⟩
  have hpaths :
      pathsOf (sampleDefinition [givenNames.path]) = [givenNames].map QuotedPath.path := by
    decide +kernel
  have h := (bracket_names_iff _ haccepted [givenNames] hpaths).1
  exact ⟨haccepted, h.trans (List.forall_mem_singleton (a := givenNames))⟩

def dottedFirst : QuotedPath where
  before := "$".toList
  quote := '\''
  name := "a.b".toList
  isQuote := Or.inl rfl
  unquoted := by simp

def dottedSecond : QuotedPath where
  before := "$".toList
  quote := '\''
  name := "c.b".toList
  isQuote := Or.inl rfl
  unquoted := by simp

/-- Two names with a dot in them are requested as one attribute, `b'`, which is neither of them. -/
theorem bracket_names_collapse :
    dottedFirst.name ≠ dottedSecond.name ∧
      extractRequestedAttributes (sampleDefinition [dottedFirst.path, dottedSecond.path]) =
        .ok ["b'".toList] ∧
      ¬Requests (sampleDefinition [dottedFirst.path]) [dottedFirst.name] := by
  refine ⟨by decide +kernel, by decide +kernel, ?_⟩
  rintro ⟨out, hout, -, hnames⟩
  have heq : extractRequestedAttributes (sampleDefinition [dottedFirst.path]) =
      .ok ["b'".toList] := by decide +kernel
  obtain rfl := Except.ok.inj (hout.symm.trans heq)
  have hmem := (hnames dottedFirst.name).mpr (List.mem_singleton_self _)
  exact absurd hmem (by decide +kernel)

end DigitalTrust.PresentationDefinitions
