/-
# Escaping of URI components

A library model of `encodeURIComponent` and `decodeURIComponent` on well-formed Unicode text.
The encoder escapes every character outside a small alphabet, octet by octet of its UTF-8 form;
the decoder reads escapes back and refuses a text in which they make up no character.

* `decode_encode` : the round trip;
* `encode_alphabet` : what an encoded text is written in.
-/
import Mathlib

namespace UriComponent

/-! ## Encoder -/

/-- The characters that are written as they are. -/
def unescaped : List Char :=
  "ABCDEFGHIJKLMNOPQRSTUVWXYZabcdefghijklmnopqrstuvwxyz0123456789-_.!~*'()".toList

/-- The digit of a value below 16. -/
def hexDigit (n : ℕ) : Char := "0123456789ABCDEF".toList.getD n '0'

def escape (b : UInt8) : List Char := ['%', hexDigit (b.toNat / 16), hexDigit (b.toNat % 16)]

/-- A character of the alphabet is kept, any other is escaped octet by octet. -/
def encodeChar (c : Char) : List Char :=
  if c ∈ unescaped then [c] else (String.utf8EncodeChar c).flatMap escape

/-- `encodeURIComponent(text)`. -/
def encode (text : List Char) : List Char := text.flatMap encodeChar

/-! ## Decoder -/

/-- The value of a digit; the decoder takes both cases. -/
def hexValue (c : Char) : Option ℕ :=
  ("0123456789ABCDEF".toList.findIdx? (· = c)).or ("0123456789abcdef".toList.findIdx? (· = c))

/-- What the decoder reads: a character that stands for itself, or an octet. -/
inductive Piece where
  | char (c : Char)
  | octet (b : UInt8)

/-- Two digits after the percent sign are an octet; without them the text is refused. -/
def octetOf (a b : Char) : Option Piece := do
  let high ← hexValue a
  let low ← hexValue b
  return .octet (UInt8.ofNat (16 * high + low))

def pieces : List Char → Option (List Piece)
  | [] => some []
  | c :: rest =>
    if c = '%' then
      match rest with
      | a :: b :: rest => do
        let o ← octetOf a b
        let ps ← pieces rest
        return o :: ps
      | _ => none
    else (pieces rest).map (Piece.char c :: ·)

/-- The number of octets that the first one of a character announces; `0` where an octet can
not be the first. -/
def sequenceLength (b : UInt8) : ℕ :=
  if b.toNat < 0x80 then 1 else if b.toNat < 0xC0 then 0 else if b.toNat < 0xE0 then 2
  else if b.toNat < 0xF0 then 3 else if b.toNat < 0xF8 then 4 else 0

/-- The character that octets are the UTF-8 form of. -/
def codePoint (octets : List UInt8) : Option Char := octets.toByteArray.utf8DecodeChar? 0

/-- Put octets together to characters; an octet out of place is refused. -/
def chars : List Piece → Option (List Char)
  | [] => some []
  | .char c :: rest => (chars rest).map (c :: ·)
  | .octet b :: rest =>
    match sequenceLength b, rest with
    | 1, rest => do return (← codePoint [b]) :: (← chars rest)
    | 2, .octet b₂ :: rest => do return (← codePoint [b, b₂]) :: (← chars rest)
    | 3, .octet b₂ :: .octet b₃ :: rest => do
      return (← codePoint [b, b₂, b₃]) :: (← chars rest)
    | 4, .octet b₂ :: .octet b₃ :: .octet b₄ :: rest => do
      return (← codePoint [b, b₂, b₃, b₄]) :: (← chars rest)
    | _, _ => none

/-- `decodeURIComponent(text)`; `none` is a `URIError`. -/
def decode (text : List Char) : Option (List Char) := (pieces text).bind chars

/-! ## Octets and their escapes -/

theorem hexValue_hexDigit : ∀ n < 16, hexValue (hexDigit n) = some n := by decide +kernel

/-- The digits of an octet are read back. -/
theorem octetOf_digits (b : UInt8) :
    octetOf (hexDigit (b.toNat / 16)) (hexDigit (b.toNat % 16)) = some (.octet b) := by
  have hb := b.toNat_lt
  have hhigh : hexValue (hexDigit (b.toNat / 16)) = some (b.toNat / 16) :=
    hexValue_hexDigit _ (by omega)
  have hlow : hexValue (hexDigit (b.toNat % 16)) = some (b.toNat % 16) :=
    hexValue_hexDigit _ (by omega)
  have hsum : 16 * (b.toNat / 16) + b.toNat % 16 = b.toNat := Nat.div_add_mod _ _
  rw [octetOf, hhigh, hlow]
  change some (Piece.octet (UInt8.ofNat (16 * (b.toNat / 16) + b.toNat % 16))) = _
  rw [hsum, UInt8.ofNat_toNat]

/-- A character other than the percent sign stands for itself. -/
theorem pieces_cons_of_ne {c : Char} (hc : c ≠ '%') (rest : List Char) :
    pieces (c :: rest) = (pieces rest).map (Piece.char c :: ·) := by
  rcases rest with _ | ⟨a, _ | ⟨b, rest⟩⟩
  · simp [pieces, hc]
  · simp [pieces, hc]
  · rw [pieces, if_neg hc]

theorem pieces_escape (b : UInt8) (rest : List Char) :
    pieces (escape b ++ rest) = (pieces rest).map (Piece.octet b :: ·) := by
  simp only [escape, List.cons_append, List.nil_append]
  rw [pieces, if_pos rfl, octetOf_digits]
  cases pieces rest <;> rfl

/-- Escapes are read back as octets. -/
theorem pieces_escapes (bs : List UInt8) (rest : List Char) :
    pieces (bs.flatMap escape ++ rest) = (pieces rest).map (bs.map Piece.octet ++ ·) := by
  induction bs with
  | nil => simp
  | cons b bs ih =>
    rw [List.flatMap_cons, List.append_assoc, pieces_escape, ih]
    simp [Function.comp_def]

/-! ## Characters -/

/-- The pieces that stand for a character in an encoded text. -/
def piecesOf (c : Char) : List Piece :=
  if c ∈ unescaped then [.char c] else (String.utf8EncodeChar c).map .octet

theorem percent_not_unescaped : '%' ∉ unescaped := by decide +kernel

theorem pieces_encodeChar (c : Char) (rest : List Char) :
    pieces (encodeChar c ++ rest) = (pieces rest).map (piecesOf c ++ ·) := by
  by_cases hc : c ∈ unescaped
  · have hne : c ≠ '%' := fun h => percent_not_unescaped (h ▸ hc)
    rw [encodeChar, if_pos hc, piecesOf, if_pos hc, List.singleton_append,
      pieces_cons_of_ne hne]
    rfl
  · rw [encodeChar, if_neg hc, piecesOf, if_neg hc, pieces_escapes]

theorem pieces_encode (text : List Char) : pieces (encode text) = some (text.flatMap piecesOf) := by
  induction text with
  | nil => rfl
  | cons c text ih =>
    change pieces (encodeChar c ++ encode text) = _
    rw [pieces_encodeChar, ih]
    rfl

/-- The UTF-8 form of a character is read back. -/
theorem codePoint_utf8EncodeChar (c : Char) : codePoint (String.utf8EncodeChar c) = some c := by
  have h := ByteArray.utf8DecodeChar?_utf8EncodeChar_append (b := ByteArray.empty) (c := c)
  rwa [ByteArray.append_empty] at h

/-- No first octet announces more than four. -/
theorem sequenceLength_le (b : UInt8) : sequenceLength b ≤ 4 := by
  unfold sequenceLength
  split_ifs <;> omega

/-- As many octets as the first one announces are read as one character. -/
theorem chars_sequence {b : UInt8} {bs : List UInt8} (h : sequenceLength b = bs.length + 1)
    (rest : List Piece) :
    chars ((b :: bs).map .octet ++ rest) =
      (codePoint (b :: bs)).bind fun c => (chars rest).map (c :: ·) := by
  have hle := sequenceLength_le b
  rcases bs with _ | ⟨b₂, _ | ⟨b₃, _ | ⟨b₄, _ | ⟨b₅, bs⟩⟩⟩⟩
  · have hlen : sequenceLength b = 1 := h
    simp [chars, hlen, Option.map_eq_bind]
  · have hlen : sequenceLength b = 2 := h
    simp [chars, hlen, Option.map_eq_bind]
  · have hlen : sequenceLength b = 3 := h
    simp [chars, hlen, Option.map_eq_bind]
  · have hlen : sequenceLength b = 4 := h
    simp [chars, hlen, Option.map_eq_bind]
  · simp only [List.length_cons] at h
    omega

theorem sequenceLength_ofNat {n : ℕ} (h : n < 256) :
    sequenceLength (UInt8.ofNat n) =
      if n < 0x80 then 1 else if n < 0xC0 then 0 else if n < 0xE0 then 2
      else if n < 0xF0 then 3 else if n < 0xF8 then 4 else 0 := by
  rw [sequenceLength, UInt8.toNat_ofNat', Nat.mod_eq_of_lt h]

/-- The first octet of a character announces its octets. -/
theorem utf8EncodeChar_eq_cons (c : Char) :
    ∃ b bs, String.utf8EncodeChar c = b :: bs ∧ sequenceLength b = bs.length + 1 := by
  unfold String.utf8EncodeChar
  simp only
  split_ifs with h₁ h₂ h₃
  · refine ⟨_, _, rfl, ?_⟩
    rw [sequenceLength_ofNat (by omega), if_pos (by omega)]
    rfl
  · refine ⟨_, _, rfl, ?_⟩
    rw [sequenceLength_ofNat (by omega), if_neg (by omega), if_neg (by omega), if_pos (by omega)]
    rfl
  · refine ⟨_, _, rfl, ?_⟩
    rw [sequenceLength_ofNat (by omega), if_neg (by omega), if_neg (by omega), if_neg (by omega),
      if_pos (by omega)]
    rfl
  · refine ⟨_, _, rfl, ?_⟩
    rw [sequenceLength_ofNat (by omega), if_neg (by omega), if_neg (by omega), if_neg (by omega),
      if_neg (by omega), if_pos (by omega)]
    rfl

/-- The octets of one character, with more pieces behind them. -/
theorem chars_octets (c : Char) (rest : List Piece) :
    chars ((String.utf8EncodeChar c).map .octet ++ rest) = (chars rest).map (c :: ·) := by
  obtain ⟨b, bs, henc, hlen⟩ := utf8EncodeChar_eq_cons c
  have hcode := codePoint_utf8EncodeChar c
  rw [henc] at hcode ⊢
  rw [chars_sequence hlen, hcode, Option.bind_some]

theorem chars_piecesOf (c : Char) (rest : List Piece) :
    chars (piecesOf c ++ rest) = (chars rest).map (c :: ·) := by
  by_cases hc : c ∈ unescaped
  · rw [piecesOf, if_pos hc, List.singleton_append, chars]
  · rw [piecesOf, if_neg hc, chars_octets]

theorem chars_flatMap_piecesOf (text : List Char) : chars (text.flatMap piecesOf) = some text := by
  induction text with
  | nil => rfl
  | cons c text ih => rw [List.flatMap_cons, chars_piecesOf, ih, Option.map_some]

/-- **Round trip.** -/
theorem decode_encode (text : List Char) : decode (encode text) = some text := by
  rw [decode, pieces_encode, Option.bind_some, chars_flatMap_piecesOf]

/-! ## The alphabet of encoded text -/

theorem hexDigit_mem : ∀ n < 16, hexDigit n ∈ unescaped := by decide +kernel

theorem mem_escape {b : UInt8} {c : Char} (h : c ∈ escape b) : c ∈ unescaped ∨ c = '%' := by
  have hb := b.toNat_lt
  simp only [escape, List.mem_cons, List.not_mem_nil, or_false] at h
  rcases h with rfl | rfl | rfl
  · exact .inr rfl
  · exact .inl (hexDigit_mem _ (by omega))
  · exact .inl (hexDigit_mem _ (by omega))

/-- An encoded text is written in the characters that are not escaped, and percent signs. -/
theorem encode_alphabet {text : List Char} {c : Char} (h : c ∈ encode text) :
    c ∈ unescaped ∨ c = '%' := by
  obtain ⟨d, -, hd⟩ := List.mem_flatMap.mp h
  unfold encodeChar at hd
  split_ifs at hd with hmem
  · rw [List.mem_singleton] at hd
    exact .inl (hd ▸ hmem)
  · obtain ⟨b, -, hb⟩ := List.mem_flatMap.mp hd
    exact mem_escape hb

end UriComponent
