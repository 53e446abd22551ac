/-
# Texts of registration errors

`registrationErrorText` of `registration-backend-error.ts`.  Each regular expression is a pattern
here; none of them needs to go back to a shorter match, except for the end of a JWT.  A text is a
list of characters; `slice` counts the two halves of a character outside of the basic plane, and of
one that it cuts in two nothing is left here.
-/
import DigitalTrust.Json
import DigitalTrust.Replacement
import DigitalTrust.TokenScopes

namespace DigitalTrust.RegistrationErrors

open Json (Text Value quote escapeChar stringify ownEntries memberText commaJoined)
open Replacement
open TokenScopes (isSpace trim)

/-! ## Patterns -/

/-- `\w`. -/
def isWord (c : Char) : Bool := c.isAlphanum || c = '_'

/-- `\b` before a character of a word. -/
def startsWord (before : Option Char) : Bool := !before.any isWord

/-- The rest of a text that starts with a label, in capital letters or not. -/
def stripLabel : Text → Text → Option Text
  | [], text => some text
  | l :: label, c :: text => if c.toLower = l then stripLabel label text else none
  | _ :: _, [] => none

/-- `/\b(Bearer|Basic)\s+\S+/gi`, of which the scheme is kept. -/
def bearer : Pattern := fun before text =>
  if startsWord before then
    ["bearer".toList, "basic".toList].findSome? fun scheme =>
      (stripLabel scheme text).bind fun rest =>
        let blanks := rest.takeWhile isSpace
        let token := (rest.dropWhile isSpace).takeWhile fun c => !isSpace c
        if blanks ≠ [] ∧ token ≠ [] then some ⟨scheme.length, blanks.length + token.length⟩
        else none
  else none

/-- `[A-Za-z0-9_-]`. -/
def isTokenChar (c : Char) : Bool := isWord c || c = '-'

/-- The longest part of a run of characters, not empty, that ends at a `\b`. -/
def boundaryLength (run rest : Text) : Option ℕ :=
  let wordAt (i : ℕ) : Bool := (run ++ rest)[i]?.any isWord
  ((List.range run.length).reverse.find? fun i => wordAt i ≠ wordAt (i + 1)).map (· + 1)

/-- A run of token characters and what follows it. -/
def tokenRun (text : Text) : Text × Text := text.span isTokenChar

def afterPoint : Text → Option Text
  | '.' :: rest => some rest
  | _ => none

/-- `/\beyJ[A-Za-z0-9_-]*\.[A-Za-z0-9_-]+\.[A-Za-z0-9_-]+\b/g`. -/
def jwt : Pattern := fun before text =>
  if startsWord before ∧ "eyJ".toList <+: text then do
    let header := tokenRun (text.drop 3)
    let payload := tokenRun (← afterPoint header.2)
    let signature := tokenRun (← afterPoint payload.2)
    let n ← boundaryLength signature.1 signature.2
    if payload.1 = [] then none
    else some ⟨0, 3 + (header.1.length + 1 + (payload.1.length + 1 + n))⟩
  else none

/-- `a[_-]?b`. -/
def separated (a b : Text) : List Text := [a ++ '_' :: b, a ++ '-' :: b, a ++ b]

/-- The names in the third pattern. -/
def labels : List Text :=
  ["authorization".toList] ++ separated "api".toList "key".toList ++
    separated "access".toList "token".toList ++ separated "refresh".toList "token".toList ++
    separated "client".toList "secret".toList ++ separated "wallet".toList "secret".toList ++
    ["password".toList, "secret".toList, "token".toList]

/-- `["']?`. -/
def dropQuote : Text → Text
  | '"' :: rest => rest
  | '\'' :: rest => rest
  | rest => rest

def quotedLength (q : Char) : Text → Option ℕ
  | c :: rest => if c = q ∧ q ∈ rest then some ((rest.takeWhile (· ≠ q)).length + 2) else none
  | [] => none

/-- `[^\s,;}]`. -/
def isBare (c : Char) : Bool := !isSpace c && c ≠ ',' && c ≠ ';' && c ≠ '}'

/-- `("[^"]*"|'[^']*'|[^\s,;}]+)`. -/
def valueLength (text : Text) : Option ℕ :=
  (quotedLength '"' text).or <| (quotedLength '\'' text).or <|
    some (text.takeWhile isBare).length |>.filter (· ≠ 0)

/-- `((?:…)["']?\s*[:=]\s*)("[^"]*"|'[^']*'|[^\s,;}]+)`, of which the first group is kept. -/
def labelled : Pattern := fun _ text =>
  labels.findSome? fun label => do
    let rest ← stripLabel label text
    match (dropQuote rest).dropWhile isSpace with
    | [] => none
    | c :: rest =>
      if c = ':' ∨ c = '=' then
        let value := rest.dropWhile isSpace
        (valueLength value).map fun n => ⟨text.length - value.length, n⟩
      else none

/-- `/https?:\/\/[^\s"'<>]+/gi`. -/
def url : Pattern := fun _ text =>
  ["https://".toList, "http://".toList].findSome? fun scheme =>
    (stripLabel scheme text).bind fun rest =>
      let n := (rest.takeWhile fun c => !isSpace c && c ∉ ['"', '\'', '<', '>']).length
      if n = 0 then none else some ⟨0, scheme.length + n⟩

/-- The occurrences of a text. -/
def literal (secret : Text) : Pattern := fun _ text =>
  if secret <+: text then some ⟨0, secret.length⟩ else none

/-! ## Passes -/

/-- The length of a character in a string of the language. -/
def units (c : Char) : ℕ := if c.toNat < 0x10000 then 1 else 2

/-- A type of letters: their characters, the letters of markers, and the space for a letter. -/
structure Alphabet (α : Type) where
  char : α → Char
  mark : Char → α
  blank : α → α

namespace Alphabet

variable {α : Type} (A : Alphabet α)

def replace (pattern : Pattern) (marker : Text) (text : List α) : List α :=
  replaceAll A.char pattern (marker.map A.mark) text

/-- The first two replacements. -/
def clean (text : List α) : List α :=
  A.replace jwt "[REDACTED]".toList (A.replace bearer " [REDACTED]".toList text)

/-- A control character becomes a space. -/
def blankControl (a : α) : α :=
  if (A.char a).toNat < 32 ∨ (A.char a).toNat = 127 then A.blank a else a

/-- `text.slice(0, n)`, which counts the halves of characters. -/
def slice : ℕ → List α → List α
  | _, [] => []
  | n, a :: text =>
    if units (A.char a) ≤ n then a :: slice (n - units (A.char a)) text else []

/-- The replacements of `registrationErrorText`. -/
def passes (secrets : List Text) (text : List α) : List α :=
  let text := secrets.foldl (fun text secret =>
    if secret = [] then text else A.replace (literal secret) "[REDACTED]".toList text) text
  let text := A.clean text
  let text := A.replace labelled "[REDACTED]".toList text
  let text := A.replace url "[URL REDACTED]".toList text
  A.slice 1024 (text.map A.blankControl)

end Alphabet

/-- Characters. -/
def plain : Alphabet Char := ⟨id, id, fun _ => ' '⟩

/-- `registrationErrorText`; a value that is not a text is `none`. -/
def registrationErrorText (value : Option Text) (secrets : List Text) : Option Text :=
  value.bind fun text => if trim text = [] then none else some (plain.passes secrets text)

/-! ## Markers and what is between them -/

/-- Characters with a flag, for those of markers. -/
def flagged : Alphabet (Char × Bool) := ⟨Prod.fst, fun c => (c, true), fun a => (' ', a.2)⟩

/-- A text occurs in what `registrationErrorText` returns, outside of the markers; `marked` is what
it returns, with the flags. -/
def Leaks (u text : Text) : Prop :=
  ∃ marked, marked = flagged.passes [] (text.map (·, false)) ∧
    registrationErrorText (some text) [] = some (marked.map Prod.fst) ∧
    u.map (·, false) <:+: marked

/-! ## Letters of other alphabets -/

/-- A map of letters that the passes do not tell apart. -/
structure Alphabet.Hom {α β : Type} (A : Alphabet α) (B : Alphabet β) (f : α → β) : Prop where
  char : ∀ a, B.char (f a) = A.char a
  mark : ∀ c, f (A.mark c) = B.mark c
  blank : ∀ a, f (A.blank a) = B.blank (f a)

namespace Alphabet.Hom

variable {α β : Type} {A : Alphabet α} {B : Alphabet β} {f : α → β} (h : A.Hom B f)

include h

theorem map_replace (pattern : Pattern) (marker : Text) (text : List α) :
    (A.replace pattern marker text).map f = B.replace pattern marker (text.map f) := by
  rw [replace, replace, map_replaceAll h.char, List.map_map]
  congr 2
  exact funext h.mark

theorem map_clean (text : List α) : (A.clean text).map f = B.clean (text.map f) := by
  rw [clean, clean, h.map_replace, h.map_replace]

theorem map_blankControl (a : α) : f (A.blankControl a) = B.blankControl (f a) := by
  rw [blankControl, blankControl, h.char]
  split_ifs
  · exact h.blank a
  · rfl

/-- Slicing commutes with a map. -/
theorem map_slice (text : List α) : ∀ n, (A.slice n text).map f = B.slice n (text.map f) := by
  induction text with
  | nil => exact fun n => rfl
  | cons a text ih =>
    intro n
    rw [slice, List.map_cons, slice, h.char]
    split_ifs <;> simp [ih]

theorem map_passes (text : List α) : (A.passes [] text).map f = B.passes [] (text.map f) := by
  have hblank : f ∘ A.blankControl = B.blankControl ∘ f := funext h.map_blankControl
  simp only [passes, List.foldl_nil]
  rw [h.map_slice, List.map_map, hblank, ← List.map_map, h.map_replace, h.map_replace,
    h.map_clean]

end Alphabet.Hom

theorem flagged_hom : flagged.Hom plain Prod.fst := ⟨fun _ => rfl, fun _ => rfl, fun _ => rfl⟩

/-- The text of the error, with the flags taken off. -/
theorem registrationErrorText_eq_flagged {text : Text} (h : trim text ≠ []) :
    registrationErrorText (some text) [] =
      some ((flagged.passes [] (text.map (·, false))).map Prod.fst) := by
  rw [registrationErrorText, Option.bind_some, if_neg h, flagged_hom.map_passes, List.map_map]
  exact congrArg (fun t => some (plain.passes [] t)) (List.map_id' text).symm

/-- Where a letter comes from: a marker, the value of the secret, or the text around it. -/
inductive Origin where
  | marker
  | outside
  | secret
  deriving DecidableEq

/-- A character with its origin. -/
abbrev Cell := Char × Origin

/-- Characters with their origins. -/
def cells : Alphabet Cell := ⟨Prod.fst, fun c => (c, .marker), fun a => (' ', a.2)⟩

theorem cells_hom_plain : cells.Hom plain Prod.fst := ⟨fun _ => rfl, fun _ => rfl, fun _ => rfl⟩

def Cell.flag (a : Cell) : Char × Bool := (a.1, a.2 = .marker)

theorem cells_hom_flagged : cells.Hom flagged Cell.flag :=
  ⟨fun _ => rfl, fun _ => rfl, fun _ => rfl⟩

/-! ## What the passes leave next to each other -/

theorem prefix_slice (text : List Cell) : ∀ n, cells.slice n text <+: text := by
  induction text with
  | nil => exact fun n => List.nil_prefix
  | cons a text ih =>
    intro n
    rw [Alphabet.slice]
    split_ifs
    · exact List.cons_prefix_cons.mpr ⟨rfl, ih _⟩
    · exact List.nil_prefix

variable {pattern : Pattern} {r : List Cell} {v : Text}

/-- What survives a replacement was there before. -/
theorem infix_of_replace {marker : Text} (hmarker : marker ≠ []) {text : List Cell}
    (hr : ∀ a ∈ r, a.2 ≠ .marker) (h : r <:+: cells.replace pattern marker text) : r <:+: text := by
  refine infix_of_unmarked (fun a : Cell => a.2 = .marker) ?_ ?_ hr text 0 none h
  · simpa using hmarker
  · intro a ha
    obtain ⟨c, -, rfl⟩ := List.mem_map.mp ha
    rfl

theorem infix_of_infix_map {α β : Type} {f : α → β} {r : List β} {text : List α}
    (h : r <:+: text.map f) : ∃ r', r' <:+: text ∧ r'.map f = r := by
  obtain ⟨x, y, hxy⟩ := h
  obtain ⟨xr, y', rfl, hxr, -⟩ := List.map_eq_append_iff.mp hxy.symm
  obtain ⟨x', r', rfl, -, hr⟩ := List.map_eq_append_iff.mp hxr
  exact ⟨r', ⟨x', y', rfl⟩, hr⟩

theorem origin_blankControl (a : Cell) : (cells.blankControl a).2 = a.2 := by
  rw [Alphabet.blankControl]
  split_ifs <;> rfl

/-- What is left next to each other outside of the markers was so in the text. -/
theorem infix_of_passes {text : List Cell} (hr : ∀ a ∈ r, a.2 ≠ .marker)
    (h : r <:+: cells.passes [] text) : ∃ r', r' <:+: text ∧ r'.map cells.blankControl = r := by
  simp only [Alphabet.passes, List.foldl_nil] at h
  obtain ⟨r', hr', hmap⟩ := infix_of_infix_map (h.trans (prefix_slice _ _).isInfix)
  have hunmarked : ∀ a ∈ r', a.2 ≠ .marker := fun a ha => by
    rw [← origin_blankControl]
    exact hr _ (hmap ▸ List.mem_map_of_mem ha)
  refine ⟨r', ?_, hmap⟩
  have hlabelled := infix_of_replace (by decide) hunmarked hr'
  have hclean := infix_of_replace (by decide) hunmarked hlabelled
  exact infix_of_replace (by decide) hunmarked (infix_of_replace (by decide) hunmarked hclean)

/-- A text without letters of the secret. -/
def Clear (text : List Cell) : Prop := ∀ a ∈ text, a.2 ≠ .secret

theorem clear_marker (marker : Text) : Clear (marker.map cells.mark) := by
  intro a ha
  obtain ⟨c, -, rfl⟩ := List.mem_map.mp ha
  exact Origin.noConfusion

theorem Clear.replace {text : List Cell} (h : Clear text) (pattern : Pattern) (marker : Text) :
    Clear (cells.replace pattern marker text) := fun a ha =>
  (mem_replaceAll ha).elim (h a) (clear_marker marker a)

/-! ## Where the patterns match -/

/-- The names of members whose values are to be taken out. -/
def secretNames : List Text :=
  ["password".toList, "secret".toList, "token".toList, "api_key".toList, "access_token".toList,
    "refresh_token".toList, "client_secret".toList, "wallet_secret".toList]

theorem quote_secretName : ∀ key ∈ secretNames, quote key = '"' :: (key ++ ['"']) := by
  decide +kernel

theorem bearer_none {c : Char} (hc : c.toLower ≠ 'b') (before : Option Char) (text : Text) :
    bearer before (c :: text) = none := by
  have hscheme : ∀ label, stripLabel ('b' :: label) (c :: text) = none := fun label => by
    rw [stripLabel, if_neg hc]
  have hbearer : "bearer".toList = 'b' :: "earer".toList := rfl
  have hbasic : "basic".toList = 'b' :: "asic".toList := rfl
  rw [bearer, hbearer, hbasic]
  simp [hscheme]

theorem jwt_none {text : Text} (h : ¬ "eyJ".toList <+: text) (before : Option Char) :
    jwt before text = none := if_neg fun hboth => h hboth.2

def IsJwtChar (c : Char) : Prop := isTokenChar c = true ∨ c = '.'

theorem boundaryLength_le {run rest : Text} {n : ℕ} (h : boundaryLength run rest = some n) :
    n ≤ run.length := by
  obtain ⟨i, hi, rfl⟩ := Option.map_eq_some_iff.mp h
  have hmem := List.mem_of_find?_eq_some hi
  rw [List.mem_reverse, List.mem_range] at hmem
  exact hmem

theorem tokenRun_spec (text : Text) :
    text = (tokenRun text).1 ++ (tokenRun text).2 ∧
      ∀ c ∈ (tokenRun text).1, isTokenChar c = true := by
  rw [tokenRun, List.span_eq_takeWhile_dropWhile]
  exact ⟨List.takeWhile_append_dropWhile.symm, fun c hc => List.mem_takeWhile_imp hc⟩

theorem afterPoint_eq_some {text rest : Text} (h : afterPoint text = some rest) :
    text = '.' :: rest := by
  unfold afterPoint at h
  split at h
  · rw [Option.some.inj h]
  · cases h

/-- A JWT has no other characters. -/
theorem jwt_confined (before : Option Char) (text : Text) (m : Match)
    (h : jwt before text = some m) : ∀ c ∈ text.take m.length, IsJwtChar c := by
  rw [jwt] at h
  split_ifs at h with hstart
  simp only [Option.bind_eq_bind, Option.bind_eq_some_iff] at h
  obtain ⟨rest, hpoint, rest', hpoint', n, hn, hm⟩ := h
  split_ifs at hm
  obtain ⟨hheader, hheaderChars⟩ := tokenRun_spec (text.drop 3)
  obtain ⟨hpayload, hpayloadChars⟩ := tokenRun_spec rest
  obtain ⟨hsignature, hsignatureChars⟩ := tokenRun_spec rest'
  rw [afterPoint_eq_some hpoint] at hheader
  rw [afterPoint_eq_some hpoint'] at hpayload
  generalize (tokenRun (text.drop 3)).1 = header at *
  generalize (tokenRun rest).1 = payload at *
  generalize (tokenRun rest').1 = signature at *
  generalize (tokenRun rest').2 = final at *
  -- the match is a part of the three runs with their points
  let runs := "eyJ".toList ++ (header ++ '.' :: (payload ++ '.' :: signature))
  have htext : text = runs ++ final := by
    have hsplit : text = "eyJ".toList ++ text.drop 3 :=
      (List.prefix_iff_eq_append.mp hstart.2).symm
    rw [hsplit, hheader, hpayload, hsignature]
    simp [runs]
  have hlength : m.length ≤ runs.length := by
    have hle := boundaryLength_le hn
    have hstartLength : "eyJ".toList.length = 3 := rfl
    rw [← Option.some.inj hm]
    simp only [Match.length, runs, List.length_append, List.length_cons, hstartLength]
    omega
  intro c hc
  rw [htext, List.take_append_of_le_length hlength] at hc
  have hmem := List.mem_of_mem_take hc
  simp only [runs, List.mem_append, List.mem_cons] at hmem
  rcases hmem with hmem | hmem | rfl | hmem | rfl | hmem
  · have hstartChars : "eyJ".toList.all isTokenChar = true := by decide +kernel
    exact .inl (List.all_eq_true.mp hstartChars c hmem)
  · exact .inl (hheaderChars c hmem)
  · exact .inr rfl
  · exact .inl (hpayloadChars c hmem)
  · exact .inr rfl
  · exact .inl (hsignatureChars c hmem)

theorem isJwtChar_quote : ¬ IsJwtChar '"' := by
  unfold IsJwtChar
  decide

/-! ## The labelled value -/

/-- A character of the text is none of the label. -/
def differs : Text → Text → Bool
  | l :: label, c :: text => c.toLower ≠ l || differs label text
  | _, _ => false

/-- A label that differs is not stripped. -/
theorem stripLabel_of_differs {label text : Text} (h : differs label text = true) (rest : Text) :
    stripLabel label (text ++ rest) = none := by
  induction label generalizing text with
  | nil => cases h
  | cons l label ih =>
    cases text with
    | nil => cases h
    | cons c text =>
      rw [List.cons_append, stripLabel]
      split_ifs with hc
      · refine ih ?_
        simpa [differs, hc] using h
      · rfl

theorem stripLabel_self {label : Text} (h : ∀ c ∈ label, c.toLower = c) (rest : Text) :
    stripLabel label (label ++ rest) = some rest := by
  induction label with
  | nil => rfl
  | cons c label ih =>
    rw [List.cons_append, stripLabel, if_pos (h c List.mem_cons_self)]
    exact ih fun d hd => h d (List.mem_cons_of_mem c hd)

/-- Each secret name matches one label only. -/
theorem labels_of_secretName : ∀ key ∈ secretNames, key ∈ labels ∧
    (∀ label ∈ labels, label = key ∨ differs label key = true) ∧
    ∀ c ∈ key, c.toLower = c := by
  have hall : (secretNames.all fun key => decide (key ∈ labels) &&
      labels.all (fun label => decide (label = key) || differs label key) &&
        key.all fun c => c.toLower = c) = true := by
    decide +kernel
  simpa [and_assoc] using hall

theorem findSome_of_unique {α β : Type} {f : α → Option β} {a : α} {b : β} (ha : f a = some b)
    {xs : List α} (hmem : a ∈ xs) (hxs : ∀ x ∈ xs, x = a ∨ f x = none) :
    xs.findSome? f = some b := by
  induction xs with
  | nil => cases hmem
  | cons x xs ih =>
    rw [List.findSome?_cons]
    rcases hxs x List.mem_cons_self with rfl | hnone
    · rw [ha]
    · rw [hnone]
      have hne : a ≠ x := by
        rintro rfl
        rw [ha] at hnone
        cases hnone
      exact ih (List.mem_of_ne_of_mem hne hmem) fun y hy => hxs y (List.mem_cons_of_mem x hy)

/-- The length of a quoted value. -/
theorem quotedLength_of_unquoted {value : Text} (h : '"' ∉ value) (rest : Text) :
    quotedLength '"' ('"' :: (value ++ '"' :: rest)) = some (value.length + 2) := by
  have htake : (value ++ '"' :: rest).takeWhile (· ≠ '"') = value := by
    have hplain : ∀ c ∈ value, decide (c ≠ '"') = true := fun c hc =>
      decide_eq_true (ne_of_mem_of_not_mem hc h)
    rw [List.takeWhile_append_of_pos hplain]
    simp
  rw [quotedLength, if_pos ⟨rfl, by simp⟩, htake]

/-- At the name of a member, the third pattern takes its value without quotes. -/
theorem labelled_secretName {key : Text} (hkey : key ∈ secretNames) {value : Text}
    (hvalue : '"' ∉ value) (before : Option Char) (rest : Text) :
    labelled before (key ++ '"' :: ':' :: '"' :: (value ++ '"' :: rest)) =
      some ⟨key.length + 2, value.length + 2⟩ := by
  obtain ⟨hmem, hothers, hlower⟩ := labels_of_secretName key hkey
  refine findSome_of_unique ?_ hmem fun label hlabel => (hothers label hlabel).imp_right fun h => ?_
  · have hcolon : ∀ t, (':' :: t).dropWhile isSpace = ':' :: t := fun t =>
      List.dropWhile_cons_of_neg (by decide)
    have hquote : ∀ t, ('"' :: t).dropWhile isSpace = '"' :: t := fun t =>
      List.dropWhile_cons_of_neg (by decide)
    have hlength : valueLength ('"' :: (value ++ '"' :: rest)) = some (value.length + 2) := by
      rw [valueLength, quotedLength_of_unquoted hvalue]
      rfl
    rw [stripLabel_self hlower, Option.bind_eq_bind, Option.bind_some]
    simp only [dropQuote, hcolon, hquote, hlength]
    simp only [true_or, if_true, Option.map_some, List.length_append, List.length_cons]
    congr 2
    omega
  · rw [stripLabel_of_differs h]
    rfl

/-! ## The frame of the secret -/

/-- A text of outside letters. -/
def outside (text : Text) : List Cell := text.map (·, .outside)

def quoteCell : Cell := ('"', .secret)

theorem clear_outside (text : Text) : Clear (outside text) := by
  intro a ha
  obtain ⟨c, -, rfl⟩ := List.mem_map.mp ha
  exact Origin.noConfusion

theorem map_fst_outside (text : Text) : (outside text).map Prod.fst = text := by
  rw [outside, List.map_map]
  exact List.map_id' text

/-- The name of the member and the colon. -/
def nameText (key : Text) : Text := quote key ++ [':']

/-- A text in which the member is whole: its name, and a value with no quote inside; there are no
letters of the secret elsewhere. -/
structure Framed (key : Text) (before value after : List Cell) (text : List Cell) : Prop where
  eq : text = before ++ (outside (nameText key) ++ [quoteCell] ++ (value ++ quoteCell :: after))
  clear_before : Clear before
  clear_after : Clear after
  unquoted : ∀ a ∈ value, a.1 ≠ '"'

/-- A replacement that does not run over the ends of name and value leaves the member whole. -/
theorem Framed.replace {key : Text} {before value after text : List Cell}
    (h : Framed key before value after text) {marker : Text} (hmarker : '"' ∉ marker)
    (hbefore : Untouched pattern none (before.map Prod.fst)
      ((outside (nameText key) ++ [quoteCell] ++ (value ++ quoteCell :: after)).map Prod.fst))
    (hname : ∀ y, y ≠ [] → y <:+ nameText key ++ ['"'] → ∀ b rest, pattern b (y ++ rest) = none)
    (hvalue : Untouched pattern (some '"') (value.map Prod.fst)
      ((quoteCell :: after).map Prod.fst)) (hquote : ∀ b rest, pattern b ('"' :: rest) = none) :
    ∃ before' value' after',
      Framed key before' value' after' (cells.replace pattern marker text) := by
  let marker' := marker.map cells.mark
  obtain ⟨written, hwritten, hmem⟩ := replaceFrom_append Prod.fst marker' _ before 0 none hbefore
  obtain ⟨written', hwritten', hmem'⟩ :=
    replaceFrom_append Prod.fst marker' _ value 0 (some '"') hvalue
  let after' := replaceFrom Prod.fst pattern marker' 0 (some '"') after
  have hmiddle : ∀ b, replaceFrom Prod.fst pattern marker' 0 b
      (outside (nameText key) ++ [quoteCell] ++ (value ++ quoteCell :: after)) =
        outside (nameText key) ++ [quoteCell] ++ (written' ++ quoteCell :: after') := by
    intro b
    have hchars : (outside (nameText key) ++ [quoteCell]).map Prod.fst = nameText key ++ ['"'] := by
      rw [List.map_append, map_fst_outside]
      rfl
    have hlast : lastChar b (nameText key ++ ['"']) = some '"' := by
      rw [lastChar, List.getLast?_concat]
      rfl
    have hclose : ∀ b, replaceFrom Prod.fst pattern marker' 0 b (quoteCell :: after) =
        quoteCell :: after' := fun b => replaceFrom_none (hquote b _)
    rw [replaceFrom_unmatched _ _ fun y hy hsuffix before =>
      hname y hy (hchars ▸ hsuffix) before _, hchars, hlast, hwritten', hclose]
  refine ⟨written, written', after', ?_, ?_, ?_, ?_⟩
  · rw [h.eq, Alphabet.replace, replaceAll]
    exact hwritten.trans (congrArg (written ++ ·) (hmiddle _))
  · exact fun a ha => (hmem a ha).elim (h.clear_before a) (clear_marker marker a)
  · exact fun a ha => (mem_replaceFrom _ _ _ ha).elim (h.clear_after a) (clear_marker marker a)
  · intro a ha
    rcases hmem' a ha with hvalue | hmark
    · exact h.unquoted a hvalue
    · obtain ⟨c, hc, rfl⟩ := List.mem_map.mp hmark
      exact ne_of_mem_of_not_mem hc hmarker

/-- The first replacement leaves the member whole if no credential of the scheme runs over it. -/
theorem Framed.bearer {key : Text} (hkey : key ∈ secretNames) {before value after text : List Cell}
    (h : Framed key before value after text)
    (hbefore : Untouched bearer none (before.map Prod.fst)
      ((outside (nameText key) ++ [quoteCell] ++ (value ++ quoteCell :: after)).map Prod.fst))
    (hvalue : Untouched RegistrationErrors.bearer (some '"') (value.map Prod.fst)
      ((quoteCell :: after).map Prod.fst)) :
    ∃ before' value' after', Framed key before' value' after'
      (cells.replace RegistrationErrors.bearer " [REDACTED]".toList text) := by
  have hchars : ∀ key ∈ secretNames,
      (nameText key ++ ['"']).all (fun c => c.toLower ≠ 'b') = true := by
    decide +kernel
  refine h.replace (by decide) hbefore (fun y hy hsuffix b rest => ?_) hvalue
    (fun b rest => bearer_none (by decide) b rest)
  obtain ⟨c, y, rfl⟩ := List.exists_cons_of_ne_nil hy
  refine bearer_none (of_decide_eq_true ?_) b _
  exact List.all_eq_true.mp (hchars key hkey) c (hsuffix.subset List.mem_cons_self)

theorem take_prefix_of_prefix_append {p y rest : Text} (h : p <+: y ++ rest) :
    y.take p.length <+: p := by
  have htake : p = (y ++ rest).take p.length := List.prefix_iff_eq_take.mp h
  rw [List.take_append] at htake
  exact ⟨_, htake.symm⟩

/-- The second replacement leaves the member whole: a JWT has no quotes. -/
theorem Framed.jwt {key : Text} (hkey : key ∈ secretNames) {before value after text : List Cell}
    (h : Framed key before value after text) :
    ∃ before' value' after', Framed key before' value' after'
      (cells.replace RegistrationErrors.jwt "[REDACTED]".toList text) := by
  have hnone : ∀ key ∈ secretNames, ((nameText key ++ ['"']).tails.all fun y =>
      y = [] || !(y.take 3).isPrefixOf "eyJ".toList) = true := by
    decide +kernel
  have huntouched : ∀ b x y, Untouched RegistrationErrors.jwt b x ('"' :: y) := fun b x y =>
    untouched_of_confined jwt_confined isJwtChar_quote y x b
  refine h.replace (by decide) ?_ (fun y hy hsuffix b rest => jwt_none (fun hprefix => ?_) b) ?_
    (fun b rest => jwt_none (by simp) b)
  · exact huntouched _ _ _
  · have hy' := List.all_eq_true.mp (hnone key hkey) y ((List.mem_tails _ _).mpr hsuffix)
    have htake : (y.take 3).isPrefixOf "eyJ".toList = true :=
      List.isPrefixOf_iff_prefix.mpr (take_prefix_of_prefix_append hprefix)
    rw [htake, Bool.not_true, Bool.or_false] at hy'
    exact hy (of_decide_eq_true hy')
  · exact huntouched _ _ _

/-- A match that keeps the text before the value and takes the value with its quotes. -/
theorem clear_of_match {label value after : List Cell} (hlabel : Clear label) (hafter : Clear after)
    {b : Option Char} (marker : Text)
    (hmatch : pattern b ((label ++ quoteCell :: (value ++ quoteCell :: after)).map Prod.fst) =
      some ⟨label.length, value.length + 2⟩) :
    Clear (replaceFrom Prod.fst pattern (marker.map cells.mark) 0 b
      (label ++ quoteCell :: (value ++ quoteCell :: after))) := by
  obtain ⟨b', heq⟩ := replaceFrom_match (by simp) (by simp [Match.length]) hmatch
  have hdrop : (label ++ quoteCell :: (value ++ quoteCell :: after)).drop
      (label.length + (value.length + 2)) = after := by
    rw [List.drop_length_add_append, List.drop_succ_cons, List.drop_length_add_append]
    rfl
  intro a ha
  rw [heq, Match.length, hdrop, List.take_left, List.mem_append, List.mem_append] at ha
  rcases ha with ha | ha | ha
  · exact hlabel a ha
  · exact clear_marker marker a ha
  · exact (mem_replaceFrom _ _ _ ha).elim (hafter a) (clear_marker marker a)

/-- The third replacement takes the value out if no other labelled value runs over the name. -/
theorem Framed.clear_labelled {key : Text} (hkey : key ∈ secretNames)
    {before value after text : List Cell} (h : Framed key before value after text)
    (hname : ∀ i, nameText key ++ ['"'] <+: (text.map Prod.fst).drop i →
      Untouched labelled none ((text.map Prod.fst).take (i + 1))
        ((text.map Prod.fst).drop (i + 1))) :
    Clear (cells.replace labelled "[REDACTED]".toList text) := by
  let label := outside (key ++ ['"', ':'])
  let rest := label ++ quoteCell :: (value ++ quoteCell :: after)
  have htext : text = before ++ outside ['"'] ++ rest := by
    rw [h.eq, nameText, quote_secretName key hkey]
    simp [outside, rest, label]
  have hrest : rest.map Prod.fst =
      key ++ '"' :: ':' :: '"' :: (value.map Prod.fst ++ '"' :: after.map Prod.fst) := by
    simp [rest, label, map_fst_outside, quoteCell]
  -- the scan arrives at the name, which begins after its quote
  have huntouched : Untouched labelled none ((before ++ outside ['"']).map Prod.fst)
      (rest.map Prod.fst) := by
    have hlength : ((before ++ outside ['"']).map Prod.fst).length = before.length + 1 := by
      simp [outside]
    have hsplit : text.map Prod.fst =
        (before ++ outside ['"']).map Prod.fst ++ rest.map Prod.fst := by
      rw [htext, List.map_append]
    have hprefix : nameText key ++ ['"'] <+: (text.map Prod.fst).drop before.length := by
      rw [h.eq, List.map_append, List.drop_left' (List.length_map _), List.map_append,
        List.map_append, map_fst_outside]
      exact List.prefix_append _ _
    have hat := hname before.length hprefix
    rwa [hsplit, List.take_left' hlength, List.drop_left' hlength] at hat
  have hmatch : ∀ b, labelled b (rest.map Prod.fst) = some ⟨label.length, value.length + 2⟩ := by
    intro b
    have hvalue : '"' ∉ value.map Prod.fst := fun hmem => by
      obtain ⟨a, ha, heq⟩ := List.mem_map.mp hmem
      exact h.unquoted a ha heq
    have hlabel : label.length = key.length + 2 := by simp [label, outside]
    rw [hrest, labelled_secretName hkey hvalue, List.length_map, hlabel]
  obtain ⟨written, hwritten, hmem⟩ := replaceFrom_append Prod.fst
    ("[REDACTED]".toList.map cells.mark) rest (before ++ outside ['"']) 0 none huntouched
  have hbefore : Clear (before ++ outside ['"']) := fun a ha =>
    (List.mem_append.mp ha).elim (h.clear_before a) (clear_outside _ a)
  intro a ha
  rw [htext, Alphabet.replace, replaceAll] at ha
  rcases List.mem_append.mp (hwritten ▸ ha) with hfirst | hrest
  · exact (hmem a hfirst).elim (hbefore a) (clear_marker _ a)
  · exact clear_of_match (clear_outside _) h.clear_after _ (hmatch _) a hrest

/-! ## Members of serialised values -/

def entryText (e : Text × Value) : Text := memberText (e.1, stringify e.2)

def commaAfter (texts : List Text) : Text := texts.flatMap (· ++ [','])

def commaBefore (texts : List Text) : Text := texts.flatMap (',' :: ·)

/-- A value has, at some depth, a member with the name `key` and the string `v`, with the texts
before and after it. -/
inductive Placed (key v : Text) : Value → Text → Text → Prop
  | here {members before after : List (Text × Value)}
      (h : ownEntries members = before ++ (key, .string v) :: after) :
      Placed key v (.object members) ('{' :: commaAfter (before.map entryText))
        (commaBefore (after.map entryText) ++ ['}'])
  | member {members before after : List (Text × Value)} {name : Text} {inner : Value}
      {pre post : Text} (h : ownEntries members = before ++ (name, inner) :: after)
      (hinner : Placed key v inner pre post) :
      Placed key v (.object members)
        ('{' :: (commaAfter (before.map entryText) ++ (nameText name ++ pre)))
        (post ++ (commaBefore (after.map entryText) ++ ['}']))
  | element {before after : List Value} {inner : Value} {pre post : Text}
      (hinner : Placed key v inner pre post) :
      Placed key v (.array (before ++ inner :: after))
        ('[' :: (commaAfter (before.map stringify) ++ pre))
        (post ++ (commaBefore (after.map stringify) ++ [']']))

theorem commaJoined_cons (text : Text) (texts : List Text) :
    commaJoined (text :: texts) = text ++ commaBefore texts := by
  induction texts generalizing text with
  | nil => simp [commaJoined, commaBefore]
  | cons next texts ih =>
    have hcons : commaBefore (next :: texts) = ',' :: (next ++ commaBefore texts) := rfl
    rw [commaJoined, ih, hcons]
    exact List.cons_ne_nil _ _

/-- A list around one of its texts. -/
theorem commaJoined_split (before : List Text) (text : Text) (after : List Text) :
    commaJoined (before ++ text :: after) = commaAfter before ++ (text ++ commaBefore after) := by
  induction before with
  | nil => exact commaJoined_cons text after
  | cons first before ih =>
    have hcons : commaAfter (first :: before) = first ++ [','] ++ commaAfter before := rfl
    rw [List.cons_append, commaJoined, ih, hcons]
    · simp
    · simp

/-- The serialised value around the member. -/
theorem Placed.stringify_eq {key : Text} {obj : Value} {pre post : Text}
    (h : Placed key v obj pre post) :
    stringify obj = pre ++ (nameText key ++ (quote v ++ post)) := by
  have hobject : ∀ members, stringify (.object members) =
      '{' :: (commaJoined ((ownEntries members).map entryText) ++ ['}']) :=
    Json.stringify_object
  induction h with
  | here h =>
    rw [hobject, h, List.map_append, List.map_cons, commaJoined_split]
    simp [entryText, memberText, nameText, stringify]
  | member h _ ih =>
    rw [hobject, h, List.map_append, List.map_cons, commaJoined_split]
    simp [entryText, memberText, nameText, ih]
  | element _ ih =>
    rw [stringify, Json.stringifyElements_eq, List.map_append, List.map_cons, commaJoined_split]
    simp [ih]

/-! ## The secret -/

/-- The member can be read in the text: its value has no quote, and no match of the first or third
pattern runs over the ends of its name and value. -/
structure Legible (pre key v post : Text) : Prop where
  unquoted : '"' ∉ v
  name_whole : Untouched bearer none pre (nameText key ++ (quote v ++ post))
  value_whole : Untouched bearer (some '"') (v.flatMap escapeChar) ('"' :: post)
  label_whole : ∀ i < (plain.clean (pre ++ (nameText key ++ (quote v ++ post)))).length,
    nameText key ++ ['"'] <+: (plain.clean (pre ++ (nameText key ++ (quote v ++ post)))).drop i →
      Untouched labelled none
        ((plain.clean (pre ++ (nameText key ++ (quote v ++ post)))).take (i + 1))
        ((plain.clean (pre ++ (nameText key ++ (quote v ++ post)))).drop (i + 1))

/-- Escaping makes no quote of its own. -/
theorem eq_quote_of_mem_escapeChar {c : Char} (h : '"' ∈ escapeChar c) : c = '"' := by
  have hhex : ∀ n < 16, Json.hexDigit n ≠ '"' := by decide +kernel
  unfold escapeChar at h
  split_ifs at h with hquote hslash _ _ _ _ _ hcontrol
  · exact hquote
  all_goals try simp at h
  · rcases h with h | h
    · exact absurd h.symm (hhex _ (by omega))
    · exact absurd h.symm (hhex _ (by omega))
  · exact h.symm

def secretLetters (v : Text) : List Cell := (v.flatMap escapeChar).map (·, .secret)

/-- The letters of the text, those of the value with its quotes as the secret. -/
def letters (pre key v post : Text) : List Cell :=
  outside pre ++ (outside (nameText key) ++ [quoteCell] ++
    (secretLetters v ++ quoteCell :: outside post))

theorem map_fst_secretLetters (v : Text) :
    (secretLetters v).map Prod.fst = v.flatMap escapeChar := by
  rw [secretLetters, List.map_map]
  exact List.map_id' _

theorem map_fst_member (key v post : Text) :
    (outside (nameText key) ++ [quoteCell] ++
      (secretLetters v ++ quoteCell :: outside post)).map Prod.fst =
      nameText key ++ (quote v ++ post) := by
  simp [map_fst_outside, map_fst_secretLetters, quoteCell, quote]

theorem map_fst_letters (pre key v post : Text) :
    (letters pre key v post).map Prod.fst = pre ++ (nameText key ++ (quote v ++ post)) := by
  rw [letters, List.map_append, map_fst_outside, map_fst_member]

/-- A secret's letters, with its frame. -/
theorem framed_letters (pre key : Text) (post : Text) (h : '"' ∉ v) :
    Framed key (outside pre) (secretLetters v) (outside post) (letters pre key v post) where
  eq := rfl
  clear_before := clear_outside pre
  clear_after := clear_outside post
  unquoted := by
    intro a ha heq
    obtain ⟨d, hd, rfl⟩ := List.mem_map.mp ha
    obtain ⟨c, hc, hd⟩ := List.mem_flatMap.mp hd
    have hquote : d = '"' := heq
    rw [hquote] at hd
    exact h (eq_quote_of_mem_escapeChar hd ▸ hc)

/-- No letter of the secret is left. -/
theorem clear_passes {pre key post : Text} (hkey : key ∈ secretNames) (h : Legible pre key v post) :
    Clear (cells.passes [] (letters pre key v post)) := by
  have hclean : (cells.clean (letters pre key v post)).map Prod.fst =
      plain.clean (pre ++ (nameText key ++ (quote v ++ post))) := by
    rw [cells_hom_plain.map_clean, map_fst_letters]
  have hframed := framed_letters pre key post h.unquoted
  obtain ⟨_, _, _, hbearer⟩ := hframed.bearer hkey
    (by rw [map_fst_outside, map_fst_member]; exact h.name_whole)
    (by rw [map_fst_secretLetters, List.map_cons, map_fst_outside]; exact h.value_whole)
  obtain ⟨_, _, _, hjwt⟩ := hbearer.jwt hkey
  have hlabelled : Clear (cells.replace labelled "[REDACTED]".toList
      (cells.clean (letters pre key v post))) := by
    refine hjwt.clear_labelled hkey fun i hprefix => ?_
    have hat := h.label_whole i
    rw [← hclean] at hat
    refine hat ?_ hprefix
    by_contra hlength
    have hnil : nameText key ++ ['"'] <+:
        ((cells.clean (letters pre key v post)).map Prod.fst).drop i := hprefix
    rw [List.drop_eq_nil_of_le (Nat.le_of_not_lt hlength), List.prefix_nil] at hnil
    simp at hnil
  have hurl := hlabelled.replace url "[URL REDACTED]".toList
  intro a ha
  simp only [Alphabet.passes, List.foldl_nil] at ha
  obtain ⟨a', ha', rfl⟩ := List.mem_map.mp ((prefix_slice _ _).subset ha)
  rw [origin_blankControl]
  exact hurl a' ha'

theorem unmarked_letters (pre key v post : Text) :
    ∀ a ∈ letters pre key v post, a.2 ≠ .marker := by
  simp only [letters, outside, secretLetters, quoteCell, List.mem_append, List.mem_map,
    List.mem_cons, List.mem_nil_iff, or_false]
  rintro a (⟨c, -, rfl⟩ | (⟨c, -, rfl⟩ | rfl) | ⟨c, -, rfl⟩ | rfl | ⟨c, -, rfl⟩) <;>
    exact Origin.noConfusion

/-- What has no letter of the secret is on one side of it, or empty. -/
theorem infix_of_letters {pre key post : Text} (hr : Clear r) (h : r <:+: letters pre key v post) :
    r <:+: outside (pre ++ nameText key) ∨ r <:+: outside post := by
  have hsplit : letters pre key v post = outside (pre ++ nameText key) ++
      quoteCell :: (secretLetters v ++ quoteCell :: outside post) := by
    simp [letters, outside]
  rw [hsplit] at h
  refine (infix_of_infix_append (fun a : Cell => a.2 = .secret) rfl hr _ h).imp_right fun h => ?_
  rcases infix_of_infix_append (fun a : Cell => a.2 = .secret) rfl hr _ h with hvalue | hpost
  · cases r with
    | nil => exact List.nil_infix
    | cons a r =>
      obtain ⟨c, -, rfl⟩ := List.mem_map.mp (hvalue.subset List.mem_cons_self)
      exact absurd rfl (hr _ List.mem_cons_self)
  · exact hpost

theorem infix_outside {text : Text} (h : r <:+: outside text) :
    (r.map cells.blankControl).map Prod.fst <:+: text.map plain.blankControl := by
  have hblank : Prod.fst ∘ cells.blankControl = plain.blankControl ∘ Prod.fst :=
    funext cells_hom_plain.map_blankControl
  rw [List.map_map, hblank, ← List.map_map, ← map_fst_outside text]
  exact (h.map Prod.fst).map plain.blankControl

def passwordObject (v : Text) : Value := .object [("password".toList, .string v)]

def digits : Text := "0123456789abcdef".toList

theorem placed_password (v : Text) :
    Placed "password".toList v (passwordObject v) ['{'] ['}'] := by
  have hentries : ownEntries [("password".toList, Value.string v)] =
      [] ++ ("password".toList, .string v) :: [] := rfl
  exact .here hentries

end DigitalTrust.RegistrationErrors
