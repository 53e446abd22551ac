/-
# JSON texts

A library model of `JSON.parse` and of `JSON.stringify`.  A text is a list of characters.  Of
a number only its text is kept; an escape that names half of a surrogate pair reads as the
replacement character, as a text has no place for it.  `parse_stringifyStrings` is the round
trip for objects whose members are strings.
-/
import DigitalTrust.Digits

namespace Json

open Digits (hexValue)

abbrev Text := List Char

/-- Texts are compared character by character. -/
instance : LawfulBEq Text := inferInstance

/-- A parsed value; the members of an object are in the order of the text. -/
inductive Value where
  | null
  | bool (b : Bool)
  | number (text : Text)
  | string (s : Text)
  | array (elements : List Value)
  | object (members : List (Text × Value))

/-- The member of an object: the last one of that name. -/
def Value.member (name : Text) : Value → Option Value
  | .object members => (members.reverse.find? fun m => m.1 = name).map Prod.snd
  | _ => none

def Value.string? : Value → Option Text
  | .string s => some s
  | _ => none

def Value.array? : Value → Option (List Value)
  | .array elements => some elements
  | _ => none

def Value.object? : Value → Option (List (Text × Value))
  | .object members => some members
  | _ => none

def decimalNumber (ds : Text) : ℕ := ds.foldl (fun n c => 10 * n + (c.toNat - '0'.toNat)) 0

/-! ## Properties of an object -/

/-- A name that is an array index: such properties come first, in the order of their numbers. -/
def isArrayIndex (name : Text) : Bool :=
  name ≠ [] ∧ name.all Char.isDigit ∧ (name = ['0'] ∨ name.head? ≠ some '0') ∧
    decimalNumber name < 2 ^ 32 - 1

section Properties

variable {β γ : Type}

def lastUnder (name : Text) (members : List (Text × β)) : Option β :=
  (members.reverse.find? fun m => m.1 = name).map Prod.snd

/-- `Object.keys`, for members in the order in which they are set. -/
def ownKeys (members : List (Text × β)) : List Text :=
  let names := (members.map Prod.fst).eraseDups
  (names.filter isArrayIndex).insertionSort (fun a b => decimalNumber a ≤ decimalNumber b) ++
    names.filter fun n => !isArrayIndex n

/-- `Object.entries`. -/
def ownEntries (members : List (Text × β)) : List (Text × β) :=
  (ownKeys members).filterMap fun n => (lastUnder n members).map fun v => (n, v)

/-- Erasing duplicates leaves none. -/
theorem nodup_eraseDups (names : List Text) : names.eraseDups.Nodup := by
  induction hn : names.length using Nat.strong_induction_on generalizing names with
  | _ n ih =>
    cases names with
    | nil => simp
    | cons name names =>
      rw [List.eraseDups_cons, List.nodup_cons, List.mem_eraseDups]
      refine ⟨by simp, ih _ ?_ _ rfl⟩
      rw [← hn, List.length_cons]
      exact Nat.lt_succ_of_le (List.length_filter_le _ _)

theorem mem_ownKeys {members : List (Text × β)} {n : Text} :
    n ∈ ownKeys members ↔ n ∈ members.map Prod.fst := by
  cases h : isArrayIndex n <;>
    simp [ownKeys, List.mem_append, List.mem_insertionSort, List.mem_eraseDups, h]

/-- An object has each key once. -/
theorem nodup_ownKeys (members : List (Text × β)) : (ownKeys members).Nodup := by
  have hnodup := nodup_eraseDups (members.map Prod.fst)
  rw [ownKeys, List.nodup_append]
  refine ⟨(List.perm_insertionSort _ _).nodup_iff.mpr (hnodup.filter _), hnodup.filter _, ?_⟩
  intro a ha b hb hab
  rw [List.mem_insertionSort, List.mem_filter] at ha
  rw [List.mem_filter, ← hab] at hb
  simp [ha.2] at hb

theorem lastUnder_isSome {members : List (Text × β)} {n : Text} :
    (lastUnder n members).isSome = true ↔ n ∈ members.map Prod.fst := by
  simp [lastUnder]

/-- The names of the entries are the keys. -/
theorem map_ownEntries (members : List (Text × β)) :
    (ownEntries members).map Prod.fst = ownKeys members := by
  rw [ownEntries, List.map_filterMap]
  conv_rhs => rw [← List.filterMap_some (l := ownKeys members)]
  refine List.filterMap_congr fun n hn => ?_
  obtain ⟨v, hv⟩ := Option.isSome_iff_exists.mp (lastUnder_isSome.mpr (mem_ownKeys.mp hn))
  rw [hv]
  rfl

theorem lastUnder_map (f : β → γ) (n : Text) (members : List (Text × β)) :
    lastUnder n (members.map fun m => (m.1, f m.2)) = (lastUnder n members).map f := by
  rw [lastUnder, lastUnder, ← List.map_reverse, List.find?_map, Option.map_map, Option.map_map]
  rfl

/-- The order of the entries depends on their names only. -/
theorem ownEntries_map (f : β → γ) (members : List (Text × β)) :
    ownEntries (members.map fun m => (m.1, f m.2)) =
      (ownEntries members).map fun e => (e.1, f e.2) := by
  have hkeys : ownKeys (members.map fun m => (m.1, f m.2)) = ownKeys members := by
    rw [ownKeys, ownKeys, List.map_map]
    rfl
  rw [ownEntries, ownEntries, hkeys, List.map_filterMap]
  refine List.filterMap_congr fun n _ => ?_
  rw [lastUnder_map, Option.map_map, Option.map_map]
  rfl

end Properties

/-! ## Writing -/

def hexDigit (n : ℕ) : Char := "0123456789abcdef".toList.getD n '0'

/-- A character inside a string literal. -/
def escapeChar (c : Char) : Text :=
  if c = '"' then ['\\', '"']
  else if c = '\\' then ['\\', '\\']
  else if c = Char.ofNat 8 then ['\\', 'b']
  else if c = Char.ofNat 9 then ['\\', 't']
  else if c = Char.ofNat 10 then ['\\', 'n']
  else if c = Char.ofNat 12 then ['\\', 'f']
  else if c = Char.ofNat 13 then ['\\', 'r']
  else if c.toNat < 32 then ['\\', 'u', '0', '0', hexDigit (c.toNat / 16), hexDigit (c.toNat % 16)]
  else [c]

/-- A string literal. -/
def quote (s : Text) : Text := '"' :: (s.flatMap escapeChar ++ ['"'])

/-- The members of an object of strings. -/
def stringifyMembers : List (Text × Text) → Text
  | [] => []
  | [m] => quote m.1 ++ ':' :: quote m.2
  | m :: ms => quote m.1 ++ ':' :: (quote m.2 ++ ',' :: stringifyMembers ms)

/-- `JSON.stringify` of an object of strings. -/
def stringifyStrings (ms : List (Text × Text)) : Text := '{' :: (stringifyMembers ms ++ ['}'])

/-- Texts with commas between them. -/
def commaJoined : List Text → Text
  | [] => []
  | [text] => text
  | text :: texts => text ++ ',' :: commaJoined texts

/-- A member of an object, its value already written. -/
def memberText (m : Text × Text) : Text := quote m.1 ++ ':' :: m.2

mutual

def stringify : Value → Text
  | .null => "null".toList
  | .bool true => "true".toList
  | .bool false => "false".toList
  | .number text => text
  | .string s => quote s
  | .array elements => '[' :: (commaJoined (stringifyElements elements) ++ [']'])
  | .object members =>
    '{' :: (commaJoined ((ownEntries (stringifyValues members)).map memberText) ++ ['}'])

def stringifyElements : List Value → List Text
  | [] => []
  | v :: vs => stringify v :: stringifyElements vs

def stringifyValues : List (Text × Value) → List (Text × Text)
  | [] => []
  | (n, v) :: ms => (n, stringify v) :: stringifyValues ms

end

theorem stringifyElements_eq (elements : List Value) :
    stringifyElements elements = elements.map stringify := by
  induction elements with
  | nil => rfl
  | cons v vs ih => rw [stringifyElements, ih, List.map_cons]

theorem stringifyValues_eq (members : List (Text × Value)) :
    stringifyValues members = members.map fun m => (m.1, stringify m.2) := by
  induction members with
  | nil => rfl
  | cons m ms ih => rw [stringifyValues, ih, List.map_cons]

/-- An object is written with its entries in order. -/
theorem stringify_object (members : List (Text × Value)) :
    stringify (.object members) = '{' ::
      (commaJoined ((ownEntries members).map fun e => memberText (e.1, stringify e.2)) ++
        ['}']) := by
  rw [stringify, stringifyValues_eq, ownEntries_map, List.map_map]
  rfl

/-- A character of the text of a number. -/
def isNumberChar (c : Char) : Bool := c.isDigit || c ∈ ['+', '-', '.', 'e', 'E']

/-- The texts that are kept for numbers are numbers' texts. -/
inductive Value.WellFormed : Value → Prop
  | null : WellFormed .null
  | bool (b : Bool) : WellFormed (.bool b)
  | number {text : Text} (h : text.all isNumberChar) : WellFormed (.number text)
  | string (s : Text) : WellFormed (.string s)
  | array {elements : List Value} (h : ∀ v ∈ elements, WellFormed v) : WellFormed (.array elements)
  | object {members : List (Text × Value)} (h : ∀ m ∈ members, WellFormed m.2) :
      WellFormed (.object members)

/-! ## Reading -/

def isSpace (c : Char) : Bool := c = ' ' || c = '\t' || c = '\n' || c = '\r'

/-- Skip white space. -/
def skip (t : Text) : Text := t.dropWhile isSpace

/-- The character that a code point names. -/
def charOf (n : ℕ) : Char := if n.isValidChar then Char.ofNat n else Char.ofNat 0xfffd

/-- The character that a short escape names. -/
def unescape (c : Char) : Option Char :=
  if c = '"' ∨ c = '\\' ∨ c = '/' then some c
  else if c = 'b' then some (Char.ofNat 8)
  else if c = 't' then some (Char.ofNat 9)
  else if c = 'n' then some (Char.ofNat 10)
  else if c = 'f' then some (Char.ofNat 12)
  else if c = 'r' then some (Char.ofNat 13)
  else none

/-- Put a character in front of what was read. -/
def prepend (c : Char) (x : Text × Text) : Text × Text := (c :: x.1, x.2)

/-- What follows the opening quote: the string, and the text after the closing quote. -/
def stringBody : Text → Option (Text × Text)
  | [] => none
  | c :: rest =>
    if c = '"' then some ([], rest)
    else if c = '\\' then
      match rest with
      | [] => none
      | 'u' :: h₁ :: h₂ :: h₃ :: h₄ :: rest' => do
        let a ← hexValue h₁
        let b ← hexValue h₂
        let d ← hexValue h₃
        let e ← hexValue h₄
        (stringBody rest').map (prepend (charOf (((a * 16 + b) * 16 + d) * 16 + e)))
      | e :: rest' => (unescape e).bind fun c' => (stringBody rest').map (prepend c')
    else if c.toNat < 32 then none
    else (stringBody rest).map (prepend c)

def digits (t : Text) : Text × Text := t.span Char.isDigit

/-- The part of a number after the integer: an optional fraction and an optional exponent. -/
def numberTail (t : Text) : Option (Text × Text) := do
  let (frac, t) ← match t with
    | '.' :: r => if (digits r).1 = [] then none else some ('.' :: (digits r).1, (digits r).2)
    | _ => some ([], t)
  match t with
  | e :: r =>
    if e = 'e' ∨ e = 'E' then
      let (sign, r) : Text × Text := match r with
        | '+' :: q => (['+'], q)
        | '-' :: q => (['-'], q)
        | _ => ([], r)
      if (digits r).1 = [] then none
      else some (frac ++ e :: sign ++ (digits r).1, (digits r).2)
    else some (frac, t)
  | [] => some (frac, t)

def number (t : Text) : Option (Text × Text) := do
  let (sign, t) : Text × Text := match t with
    | '-' :: r => (['-'], r)
    | _ => ([], t)
  let int := digits t
  if int.1 = [] ∨ (1 < int.1.length ∧ int.1.head? = some '0') then none
  else
    let (tail, rest) ← numberTail int.2
    some (sign ++ int.1 ++ tail, rest)

mutual

/-- A value, and the text after it.  Each nested value takes one unit of fuel. -/
def value : ℕ → Text → Option (Value × Text)
  | 0, _ => none
  | fuel + 1, t =>
    match skip t with
    | '{' :: r =>
      match skip r with
      | '}' :: r' => some (.object [], r')
      | r' => (members fuel r').map fun x => (.object x.1, x.2)
    | '[' :: r =>
      match skip r with
      | ']' :: r' => some (.array [], r')
      | r' => (elements fuel r').map fun x => (.array x.1, x.2)
    | '"' :: r => (stringBody r).map fun x => (.string x.1, x.2)
    | 't' :: 'r' :: 'u' :: 'e' :: r => some (.bool true, r)
    | 'f' :: 'a' :: 'l' :: 's' :: 'e' :: r => some (.bool false, r)
    | 'n' :: 'u' :: 'l' :: 'l' :: r => some (.null, r)
    | r => (number r).map fun x => (.number x.1, x.2)

/-- The members of an object up to its closing brace. -/
def members : ℕ → Text → Option (List (Text × Value) × Text)
  | 0, _ => none
  | fuel + 1, t =>
    match t with
    | '"' :: r =>
      (stringBody r).bind fun k =>
        match skip k.2 with
        | ':' :: r' =>
          (value fuel r').bind fun v =>
            match skip v.2 with
            | ',' :: r'' => (members fuel (skip r'')).map fun x => ((k.1, v.1) :: x.1, x.2)
            | '}' :: r'' => some ([(k.1, v.1)], r'')
            | _ => none
        | _ => none
    | _ => none

/-- The elements of an array up to its closing bracket. -/
def elements : ℕ → Text → Option (List Value × Text)
  | 0, _ => none
  | fuel + 1, t =>
    (value fuel t).bind fun v =>
      match skip v.2 with
      | ',' :: r => (elements fuel r).map fun x => (v.1 :: x.1, x.2)
      | ']' :: r => some ([v.1], r)
      | _ => none

end

/-- `JSON.parse`; `none` is a syntax error. -/
def parse (t : Text) : Option Value :=
  (value (t.length + 1) t).bind fun x => if skip x.2 = [] then some x.1 else none

/-! ## The value of a number -/

/-- The number that decimal digits before and after a point stand for. -/
def decimalFraction (int frac : Text) : ℚ :=
  decimalNumber int + decimalNumber frac / 10 ^ frac.length

/-- The number after the `e` of a number, and its sign. -/
def exponentValue : Text → ℤ
  | '-' :: ds => -decimalNumber ds
  | '+' :: ds => decimalNumber ds
  | ds => decimalNumber ds

/-- The number that the text of a number stands for, before it is rounded. -/
def numberValue (t : Text) : ℚ :=
  let (negative, t) := match t with
    | '-' :: r => (true, r)
    | _ => (false, t)
  let (int, t) := digits t
  let (frac, t) := match t with
    | '.' :: r => digits r
    | _ => ([], t)
  let magnitude := decimalFraction int frac * 10 ^ exponentValue t.tail
  if negative then -magnitude else magnitude

/-! ## Round trip -/

@[simp] theorem skip_quote (t : Text) : skip ('"' :: t) = '"' :: t := by simp [skip, isSpace]

@[simp] theorem skip_colon (t : Text) : skip (':' :: t) = ':' :: t := by simp [skip, isSpace]

@[simp] theorem skip_comma (t : Text) : skip (',' :: t) = ',' :: t := by simp [skip, isSpace]

@[simp] theorem skip_close (t : Text) : skip ('}' :: t) = '}' :: t := by simp [skip, isSpace]

@[simp] theorem skip_open (t : Text) : skip ('{' :: t) = '{' :: t := by simp [skip, isSpace]

theorem hexValue_hexDigit : ∀ n < 16, hexValue (hexDigit n) = some n := by decide +kernel

/-- A character that needs no escape. -/
theorem stringBody_plain {c : Char} (hquote : c ≠ '"') (hslash : c ≠ '\\') (hc : ¬c.toNat < 32)
    (t : Text) : stringBody (c :: t) = (stringBody t).map (prepend c) := by
  rw [stringBody.eq_def]
  simp only [if_neg hquote, if_neg hslash, if_neg hc]

/-- A short escape. -/
theorem stringBody_short {e c : Char} (h : unescape e = some c) (t : Text) :
    stringBody ('\\' :: e :: t) = (stringBody t).map (prepend c) := by
  rw [stringBody.eq_def]
  simp only [show ¬('\\' = '"') by decide, if_false, if_true]
  split
  · simp at *
  · rename_i he
    simp only [List.cons.injEq] at he
    rw [he.1] at h
    simp [unescape] at h
  · rename_i he
    simp only [List.cons.injEq] at he
    rw [← he.1, ← he.2, h, Option.bind_some]

/-- An escape by code point. -/
theorem stringBody_unicode {n : ℕ} (hn : n < 256) (t : Text) :
    stringBody ('\\' :: 'u' :: '0' :: '0' :: hexDigit (n / 16) :: hexDigit (n % 16) :: t) =
      (stringBody t).map (prepend (Char.ofNat n)) := by
  have hzero : hexValue '0' = some 0 := by decide
  have hvalid : n.isValidChar := Or.inl (by omega)
  rw [stringBody.eq_def]
  simp only [show ¬('\\' = '"') by decide, if_false, if_true, hzero,
    hexValue_hexDigit _ (show n / 16 < 16 by omega),
    hexValue_hexDigit _ (Nat.mod_lt n (by decide : 0 < 16)), Option.bind_eq_bind,
    Option.bind_some]
  rw [show ((0 * 16 + 0) * 16 + n / 16) * 16 + n % 16 = n by omega, charOf, if_pos hvalid]

/-- An escaped character reads as the character. -/
theorem stringBody_escapeChar (c : Char) (t : Text) :
    stringBody (escapeChar c ++ t) = (stringBody t).map (prepend c) := by
  unfold escapeChar
  split_ifs with h₁ h₂ h₃ h₄ h₅ h₆ h₇ h₈
  · subst h₁
    exact stringBody_short (by decide) t
  · subst h₂
    exact stringBody_short (by decide) t
  · subst h₃
    exact stringBody_short (by decide) t
  · subst h₄
    exact stringBody_short (by decide) t
  · subst h₅
    exact stringBody_short (by decide) t
  · subst h₆
    exact stringBody_short (by decide) t
  · subst h₇
    exact stringBody_short (by decide) t
  · have hcode := stringBody_unicode (n := c.toNat) (by omega) t
    rwa [Char.ofNat_toNat] at hcode
  · exact stringBody_plain h₁ h₂ h₈ t

/-- A string literal reads as the string. -/
theorem stringBody_quote (s rest : Text) :
    stringBody (s.flatMap escapeChar ++ '"' :: rest) = some (s, rest) := by
  induction s with
  | nil =>
    rw [List.flatMap_nil, List.nil_append, stringBody.eq_def]
    rfl
  | cons c s ih =>
    rw [List.flatMap_cons, List.append_assoc, stringBody_escapeChar, ih]
    rfl

/-- A string literal as a value. -/
theorem value_quote (fuel : ℕ) (s rest : Text) :
    value (fuel + 1) (quote s ++ rest) = some (.string s, rest) := by
  rw [value, quote, List.cons_append, skip_quote]
  simp only [List.append_assoc, List.cons_append, List.nil_append, stringBody_quote,
    Option.map_some]

/-- One member of an object. -/
theorem members_step (fuel : ℕ) (k v rest : Text) :
    members (fuel + 2) (quote k ++ ':' :: (quote v ++ rest)) =
      match skip rest with
      | ',' :: r => (members (fuel + 1) (skip r)).map fun x => ((k, .string v) :: x.1, x.2)
      | '}' :: r => some ([(k, .string v)], r)
      | _ => none := by
  have hk : quote k ++ ':' :: (quote v ++ rest) =
      '"' :: (k.flatMap escapeChar ++ '"' :: ':' :: (quote v ++ rest)) := by simp [quote]
  rw [hk, members.eq_def]
  simp only [stringBody_quote, Option.bind_some, skip_colon, value_quote]

/-- The members of an object of strings. -/
theorem members_stringifyMembers (ms : List (Text × Text)) :
    ∀ fuel, ms ≠ [] → ms.length + 1 ≤ fuel → ∀ rest,
      members fuel (stringifyMembers ms ++ '}' :: rest) =
        some (ms.map fun m => (m.1, .string m.2), rest) := by
  induction ms with
  | nil => simp
  | cons m ms ih =>
    intro fuel _ hfuel rest
    rw [List.length_cons] at hfuel
    obtain ⟨fuel, rfl⟩ : ∃ n, fuel = n + 2 := ⟨fuel - 2, by omega⟩
    cases ms with
    | nil =>
      rw [stringifyMembers, List.append_assoc, List.cons_append, members_step, skip_close]
      rfl
    | cons m' ms =>
      have hskip : skip (stringifyMembers (m' :: ms) ++ '}' :: rest) =
          stringifyMembers (m' :: ms) ++ '}' :: rest := by
        cases ms <;> simp [stringifyMembers, quote]
      have htext : stringifyMembers (m :: m' :: ms) ++ '}' :: rest =
          quote m.1 ++ ':' :: (quote m.2 ++
            ',' :: (stringifyMembers (m' :: ms) ++ '}' :: rest)) := by
        simp [stringifyMembers]
      rw [htext, members_step, skip_comma]
      simp only [hskip, ih (fuel + 1) (by simp) (by omega) rest]
      rfl

/-- What an object of strings begins with. -/
theorem stringifyMembers_cons (ms : List (Text × Text)) (hms : ms ≠ []) :
    ∃ t, stringifyMembers ms = '"' :: t ∧ ms.length ≤ t.length := by
  induction ms with
  | nil => simp at hms
  | cons m ms ih =>
    cases ms with
    | nil =>
      refine ⟨m.1.flatMap escapeChar ++ ['"'] ++ ':' :: quote m.2, rfl, ?_⟩
      simp only [List.length_append, List.length_cons, List.length_nil]
      omega
    | cons m' ms =>
      obtain ⟨t, ht, hlen⟩ := ih (by simp)
      refine ⟨m.1.flatMap escapeChar ++ ['"'] ++ ':' :: (quote m.2 ++ ',' :: '"' :: t), ?_, ?_⟩
      · rw [stringifyMembers, ht, quote]
        · rfl
        · simp
      · simp only [List.length_append, List.length_cons, List.length_nil] at hlen ⊢
        omega

/-- **Round trip** for objects of strings. -/
theorem parse_stringifyStrings (ms : List (Text × Text)) (hms : ms ≠ []) :
    parse (stringifyStrings ms) = some (.object (ms.map fun m => (m.1, .string m.2))) := by
  obtain ⟨t, ht, hlen⟩ := stringifyMembers_cons ms hms
  have hmembers := members_stringifyMembers ms (stringifyStrings ms).length hms (by
    simp only [stringifyStrings, ht, List.length_cons, List.length_append]
    omega) []
  have hvalue : value ((stringifyStrings ms).length + 1) (stringifyStrings ms) =
      some (.object (ms.map fun m => (m.1, .string m.2)), []) := by
    rw [ht, List.cons_append] at hmembers
    rw [value, show skip (stringifyStrings ms) = '{' :: '"' :: (t ++ ['}']) by
      simp [stringifyStrings, ht]]
    simp only [skip_quote]
    change (members _ ('"' :: (t ++ ['}']))).map (fun x => (Value.object x.1, x.2)) = _
    rw [hmembers]
    rfl
  rw [parse, hvalue]
  rfl

end Json
