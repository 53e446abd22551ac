/-
# base64url

A library model of the base64url encoding of bytes as the runtime has it: no padding is
written; a reader stops at a padding character, skips characters outside the alphabet and
also takes the two characters of the plain base64 alphabet.  `decode_encode` is the round
trip.
-/
import Mathlib

namespace Base64Url

def alphabet : List Char :=
  "ABCDEFGHIJKLMNOPQRSTUVWXYZabcdefghijklmnopqrstuvwxyz0123456789-_".toList

/-- The digit of a value below 64. -/
def digit (n : ℕ) : Char := alphabet.getD n 'A'

def value (c : Char) : Option ℕ :=
  if c = '+' then some 62 else if c = '/' then some 63 else alphabet.findIdx? (· = c)

/-- Three bytes are four groups of six bits; the last group of one or two bytes is filled up
with zeros. -/
def sextets : List UInt8 → List ℕ
  | a :: b :: c :: rest =>
    a.toNat / 4 :: (a.toNat % 4 * 16 + b.toNat / 16) :: (b.toNat % 16 * 4 + c.toNat / 64) ::
      c.toNat % 64 :: sextets rest
  | [a, b] => [a.toNat / 4, a.toNat % 4 * 16 + b.toNat / 16, b.toNat % 16 * 4]
  | [a] => [a.toNat / 4, a.toNat % 4 * 16]
  | [] => []

/-- The bytes that groups of six bits make up; a single group left over is dropped. -/
def bytes : List ℕ → List UInt8
  | s :: t :: u :: v :: rest =>
    UInt8.ofNat (s * 4 + t / 16) :: UInt8.ofNat (t % 16 * 16 + u / 4) ::
      UInt8.ofNat (u % 4 * 64 + v) :: bytes rest
  | [s, t, u] => [UInt8.ofNat (s * 4 + t / 16), UInt8.ofNat (t % 16 * 16 + u / 4)]
  | [s, t] => [UInt8.ofNat (s * 4 + t / 16)]
  | _ => []

/-- `toString('base64url')`. -/
def encode (b : List UInt8) : List Char := (sextets b).map digit

/-- `Buffer.from(text, 'base64url')`. -/
def decode (text : List Char) : List UInt8 :=
  bytes ((text.takeWhile (· ≠ '=')).filterMap value)

theorem value_digit : ∀ n < 64, value (digit n) = some n := by decide +kernel

theorem digit_ne_padding : ∀ n < 64, digit n ≠ '=' := by decide +kernel

/-- Every group is below 64. -/
theorem sextets_lt (b : List UInt8) : ∀ n ∈ sextets b, n < 64 := by
  fun_induction sextets b with
  | case1 x y z rest ih =>
    have hx := x.toNat_lt
    have hy := y.toNat_lt
    have hz := z.toNat_lt
    intro n hn
    simp only [List.mem_cons] at hn
    rcases hn with rfl | rfl | rfl | rfl | hn
    · omega
    · omega
    · omega
    · omega
    · exact ih n hn
  | case2 x y =>
    have hx := x.toNat_lt
    have hy := y.toNat_lt
    intro n hn
    simp only [List.mem_cons, List.not_mem_nil, or_false] at hn
    omega
  | case3 x =>
    have hx := x.toNat_lt
    intro n hn
    simp only [List.mem_cons, List.not_mem_nil, or_false] at hn
    omega
  | case4 => simp

/-- A byte is put together again from its parts. -/
theorem ofNat_eq {x : UInt8} {n : ℕ} (h : n = x.toNat) : UInt8.ofNat n = x := by
  rw [h, UInt8.ofNat_toNat]

/-- Regrouping in sixes loses no byte. -/
theorem bytes_sextets (b : List UInt8) : bytes (sextets b) = b := by
  fun_induction sextets b with
  | case1 x y z rest ih =>
    have hx := x.toNat_lt
    have hy := y.toNat_lt
    have hz := z.toNat_lt
    rw [bytes, ih, ofNat_eq (x := x) (by omega), ofNat_eq (x := y) (by omega),
      ofNat_eq (x := z) (by omega)]
  | case2 x y =>
    have hx := x.toNat_lt
    have hy := y.toNat_lt
    rw [bytes, ofNat_eq (x := x) (by omega), ofNat_eq (x := y) (by omega)]
  | case3 x =>
    have hx := x.toNat_lt
    rw [bytes, ofNat_eq (x := x) (by omega)]
  | case4 => rfl

/-- **Round trip.** -/
theorem decode_encode (b : List UInt8) : decode (encode b) = b := by
  have hlt := sextets_lt b
  have htake : (encode b).takeWhile (· ≠ '=') = encode b := by
    refine List.takeWhile_eq_self_iff.mpr fun c hc => ?_
    obtain ⟨n, hn, rfl⟩ := List.mem_map.mp hc
    simpa using digit_ne_padding n (hlt n hn)
  have hvalues : (encode b).filterMap value = sextets b := by
    rw [encode, List.filterMap_map]
    refine (List.filterMap_congr fun n hn => value_digit n (hlt n hn)).trans ?_
    exact List.filterMap_some
  rw [decode, htake, hvalues, bytes_sextets]

end Base64Url
