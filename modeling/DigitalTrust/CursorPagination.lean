/-
# Cursors

`common/cursor-pagination.ts`: a cursor is the creation time and the id of a row, written as JSON
in base64url; what a caller sends back is read and checked.  A cursor whose time is the text of a
`Date` stands for the time without its microseconds, one whose time is written by `to_char` keeps
them.
-/
import DigitalTrust.Schema
import DigitalTrust.Base64Url
import DigitalTrust.Json
import DigitalTrust.Timestamps

namespace DigitalTrust

open Digits Json Timestamps

/-! ## Row ids -/

def uuidText (v : ℕ) : Text :=
  padded hexadecimal 8 (v / 16 ^ 24) ++ '-' :: (padded hexadecimal 4 (v / 16 ^ 20) ++
    '-' :: (padded hexadecimal 4 (v / 16 ^ 16) ++ '-' :: (padded hexadecimal 4 (v / 16 ^ 12) ++
      '-' :: (padded hexadecimal 12 v ++ []))))

/-- The five groups of hexadecimal digits of a UUID, as a number. -/
def readUuid (t : Text) : Option ℕ :=
  (readNumber hexadecimal 8 '-' t).bind fun a =>
  (readNumber hexadecimal 4 '-' a.2).bind fun b =>
  (readNumber hexadecimal 4 '-' b.2).bind fun c =>
  (readNumber hexadecimal 4 '-' c.2).bind fun d =>
  (readPadded hexadecimal 12 0 d.2).bind fun e =>
  if e.2 = [] then
    some (a.1 * 16 ^ 24 + b.1 * 16 ^ 20 + c.1 * 16 ^ 16 + d.1 * 16 ^ 12 + e.1)
  else none

def uuidVersion (v : ℕ) : ℕ := v / 16 ^ 19 % 16

def uuidVariant (v : ℕ) : ℕ := v / 16 ^ 15 % 16

def isUUID (t : Text) : Bool :=
  (readUuid t).any fun v =>
    (1 ≤ uuidVersion v && uuidVersion v ≤ 8 && 8 ≤ uuidVariant v && uuidVariant v ≤ 11) ||
      v = 0 || v = 16 ^ 32 - 1

/-- The id of a row, which the database or the service generated at random (version 4). -/
structure RowId where
  value : ℕ
  lt : value < 16 ^ 32
  version : uuidVersion value = 4
  variant : 8 ≤ uuidVariant value ∧ uuidVariant value ≤ 11

def RowId.text (id : RowId) : Text := uuidText id.value

theorem readNumber_hexadecimal (k v : ℕ) (t : Text) :
    readNumber hexadecimal k '-' (padded hexadecimal k v ++ '-' :: t) = some (v % 16 ^ k, t) := by
  rw [readNumber, readPadded_append, Option.bind_some, expect_cons, Option.map_some, Nat.zero_mul,
    Nat.zero_add]
  rfl

/-- A uuid is read back from its text. -/
theorem readUuid_uuidText {v : ℕ} (hv : v < 16 ^ 32) : readUuid (uuidText v) = some v := by
  have hlast : readPadded hexadecimal 12 0 (padded hexadecimal 12 v ++ []) =
      some (v % 16 ^ 12, []) := by
    rw [readPadded_append, Nat.zero_mul, Nat.zero_add]
    rfl
  rw [readUuid, uuidText, readNumber_hexadecimal, Option.bind_some, readNumber_hexadecimal,
    Option.bind_some, readNumber_hexadecimal, Option.bind_some, readNumber_hexadecimal,
    Option.bind_some, hlast, Option.bind_some, if_pos rfl]
  norm_num
  omega

theorem isUUID_text (id : RowId) : isUUID id.text = true := by
  have hversion := id.version
  have hvariant := id.variant
  simp [isUUID, RowId.text, readUuid_uuidText id.lt, hversion, hvariant]

/-! ## `cursor-pagination.ts` -/

structure Cursor where
  createdAt : Text
  id : Text

/-- `Buffer.from(text, 'utf8')`. -/
def utf8 (t : Text) : List UInt8 := (String.ofList t).toUTF8.data.toList

/-- `Buffer.toString('utf8')` of bytes that are valid. -/
def ofUtf8 (b : List UInt8) : Option Text := (String.fromUTF8? ⟨b.toArray⟩).map String.toList

theorem ofUtf8_utf8 (t : Text) : ofUtf8 (utf8 t) = some t := by
  have h : String.fromUTF8? (String.ofList t).toUTF8 = some (String.ofList t) := by
    exact dif_pos (String.ofList t).isValidUTF8
  rw [ofUtf8, utf8, Array.toArray_toList, h, Option.map_some, String.toList_ofList]

def Cursor.members (c : Cursor) : List (Text × Text) :=
  [("createdAt".toList, c.createdAt), ("id".toList, c.id)]

def encodeCursor (c : Cursor) : Text := Base64Url.encode (utf8 (stringifyStrings c.members))

/-- The text of a member of a JSON value. -/
def stringMember (name : String) (v : Value) : Option Text :=
  match v.member name.toList with
  | some (.string s) => some s
  | _ => none

/-- The checks that `decodeCursor` makes of the members of a cursor. -/
def Cursor.valid (c : Cursor) : Bool :=
  (readRfc3339 c.createdAt).any Parsed.isISO8601 && !"0000-".toList.isPrefixOf c.createdAt &&
    isUUID c.id

def decodeCursor (raw : Text) : Except Failure Cursor :=
  let cursor := do
    let text ← ofUtf8 (Base64Url.decode raw)
    let parsed ← parse text
    let createdAt ← stringMember "createdAt" parsed
    let id ← stringMember "id" parsed
    if (Cursor.mk createdAt id).valid then some (Cursor.mk createdAt id) else none
  match cursor with
  | some c => .ok c
  | none => .error (.badRequest "Invalid pagination cursor.")

/-- **What comes back of a cursor.** -/
theorem decodeCursor_encodeCursor (c : Cursor) :
    decodeCursor (encodeCursor c) =
      if c.valid then .ok c else .error (.badRequest "Invalid pagination cursor.") := by
  have hparse := parse_stringifyStrings c.members (by simp [Cursor.members])
  have hcreatedAt : stringMember "createdAt"
      (.object (c.members.map fun m => (m.1, .string m.2))) = some c.createdAt := rfl
  have hid : stringMember "id" (.object (c.members.map fun m => (m.1, .string m.2))) =
      some c.id := rfl
  simp only [decodeCursor, encodeCursor, Base64Url.decode_encode, ofUtf8_utf8, hparse,
    Option.bind_eq_bind, Option.bind_some, hcreatedAt, hid]
  cases c.valid <;> rfl

/-! ## The row that a cursor stands for -/

/-- What listings are ordered by: creation time, then id. -/
abbrev SortKey := Lex (Instant × ℕ)

/-- The casts of a cursor to `timestamptz` and `uuid`. -/
def Cursor.key (c : Cursor) : Option SortKey :=
  (readRfc3339 c.createdAt).bind fun t => (readUuid c.id).map fun v => toLex (t.cast, v)

section Texts

variable {t : Instant} (id : RowId)

/-- The text of a `Date` is a timestamp if its year has four digits. -/
theorem readRfc3339_toISOString (hy : 0 ≤ year t ∧ year t ≤ 9999) :
    readRfc3339 (toISOString t) =
      some (written (fields t) (padded decimal 3 ((fields t).micro / 1000).toNat)) := by
  rw [toISOString, isoYear, if_pos hy]
  exact readRfc3339_text (fields_inRange t) hy 2 _

/-- A year with a sign is refused. -/
theorem readRfc3339_toISOString_eq_none (hy : ¬(0 ≤ year t ∧ year t ≤ 9999)) :
    readRfc3339 (toISOString t) = none := by
  rw [toISOString, isoYear, if_neg hy, List.cons_append]
  apply readRfc3339_eq_none
  apply readNumber_eq_none
  split <;> rfl

/-- The year 0 is the one whose text starts with four zeros. -/
theorem zeroYear_isPrefixOf_iff (hy : 0 ≤ year t ∧ year t ≤ 9999) (rest : Text) :
    "0000-".toList.isPrefixOf (padded decimal 4 (year t).toNat ++ '-' :: rest) = true ↔
      year t = 0 := by
  rw [List.isPrefixOf_iff_prefix]
  constructor
  · rintro ⟨rest', h⟩
    have hzero : readNumber decimal 4 '-' ("0000-".toList ++ rest') = some (0, rest') := rfl
    rw [h, readNumber_decimal (by omega)] at hzero
    have := congrArg Prod.fst (Option.some.inj hzero)
    dsimp only at this
    omega
  · intro h
    exact ⟨rest, by rw [h]; rfl⟩

/-- **A cursor with the text of a `Date` is accepted exactly in the years 100 to 9999.** -/
theorem valid_toISOString_iff :
    (Cursor.mk (toISOString t) id.text).valid = true ↔ 100 ≤ year t ∧ year t ≤ 9999 := by
  by_cases hy : 0 ≤ year t ∧ year t ≤ 9999
  · have hzero := zeroYear_isPrefixOf_iff hy
      (afterYear (fields t) (padded decimal 3 ((fields t).micro / 1000).toNat)).tail
    have htext : toISOString t = padded decimal 4 (year t).toNat ++ '-' ::
        (afterYear (fields t) (padded decimal 3 ((fields t).micro / 1000).toNat)).tail := by
      rw [toISOString, isoYear, if_pos hy]
      rfl
    rw [← htext] at hzero
    rw [Cursor.valid, readRfc3339_toISOString hy, Option.any_some, isISO8601_written, isUUID_text,
      Bool.and_true, Bool.and_eq_true, decide_eq_true_iff, Bool.not_eq_true', ← Bool.not_eq_true,
      hzero]
    omega
  · rw [Cursor.valid, readRfc3339_toISOString_eq_none hy, Option.any_none, Bool.false_and,
      Bool.false_and]
    constructor
    · intro h
      exact absurd h Bool.false_ne_true
    · intro h
      exact absurd ⟨by omega, h.2⟩ hy

/-- A `Date` loses the microseconds. -/
theorem key_toISOString (hy : 100 ≤ year t ∧ year t ≤ 9999) :
    (Cursor.mk (toISOString t) id.text).key = some (toLex (toDate t, id.value)) := by
  obtain ⟨-, -, -, -, hmicro⟩ := fields_inRange t
  have hcast : (written (fields t) (padded decimal 3 ((fields t).micro / 1000).toNat)).cast =
      toDate t := by
    have hm : (fields t).micro = t % 1000000 := rfl
    rw [cast_written (by omega) (by omega), toDate, Int.toNat_of_nonneg (by omega), hm]
    change (_ : ℤ) = _
    omega
  rw [Cursor.key, readRfc3339_toISOString ⟨by omega, hy.2⟩, Option.bind_some, RowId.text,
    readUuid_uuidText id.lt, Option.map_some, hcast]

/-- `to_char` writes a year of at most four digits with four. -/
theorem charYear_eq {y : ℤ} (hy : 100 ≤ y ∧ y ≤ 9999) : charYear y = padded decimal 4 y.toNat := by
  have hlog : Nat.log 10 y.toNat < 4 := Nat.log_lt_of_lt_pow (by omega) (by omega)
  rw [charYear, if_pos (by omega), max_eq_left (by omega)]

theorem readRfc3339_toChar (hy : 100 ≤ year t ∧ year t ≤ 9999) :
    readRfc3339 (toChar t) =
      some (written (fields t) (padded decimal 6 (fields t).micro.toNat)) := by
  rw [toChar, charYear_eq hy]
  exact readRfc3339_text (fields_inRange t) ⟨by change 0 ≤ year t; omega, hy.2⟩ 5 _

/-- A cursor with a text of `to_char` is accepted in the years 100 to 9999. -/
theorem valid_toChar (hy : 100 ≤ year t ∧ year t ≤ 9999) :
    (Cursor.mk (toChar t) id.text).valid = true := by
  have hzero := zeroYear_isPrefixOf_iff ⟨by omega, hy.2⟩
    (afterYear (fields t) (padded decimal 6 (fields t).micro.toNat)).tail
  have htext : toChar t = padded decimal 4 (year t).toNat ++ '-' ::
      (afterYear (fields t) (padded decimal 6 (fields t).micro.toNat)).tail := by
    rw [toChar, charYear_eq hy]
    rfl
  rw [← htext] at hzero
  rw [Cursor.valid, readRfc3339_toChar hy, Option.any_some, isISO8601_written, isUUID_text,
    Bool.and_true, Bool.and_eq_true, decide_eq_true_iff, Bool.not_eq_true', ← Bool.not_eq_true,
    hzero]
  omega

/-- `to_char` keeps the microseconds. -/
theorem key_toChar (hy : 100 ≤ year t ∧ year t ≤ 9999) :
    (Cursor.mk (toChar t) id.text).key = some (toLex (t, id.value)) := by
  obtain ⟨-, -, -, -, hmicro⟩ := fields_inRange t
  have hcast : (written (fields t) (padded decimal 6 (fields t).micro.toNat)).cast = t := by
    have hm : (fields t).micro = t % 1000000 := rfl
    rw [cast_written (by omega) (by omega), Int.toNat_of_nonneg (by omega), hm]
    change (_ : ℤ) = _
    omega
  rw [Cursor.key, readRfc3339_toChar hy, Option.bind_some, RowId.text, readUuid_uuidText id.lt,
    Option.map_some, hcast]

end Texts

end DigitalTrust
