import Mathlib

/-!
# Base64

`profile/codec.c` encodes three bytes as four characters. Its decoder takes any text whose
characters are of the alphabet, then encodes the result again and compares.
-/

namespace SrvrOS.Codec

open List

def alphabet : List Char :=
  "ABCDEFGHIJKLMNOPQRSTUVWXYZabcdefghijklmnopqrstuvwxyz0123456789+/".toList

def letter (index : Nat) : Char := alphabet.getD index '='

/-- `profile_base64_encode`; each turn of its loop takes three bytes, the last one what is left. -/
def profileBase64Encode : List UInt8 → List Char
  | [] => []
  | [a] => [letter (a.toNat / 4), letter (a.toNat % 4 * 16), '=', '=']
  | [a, b] =>
    [letter (a.toNat / 4), letter (a.toNat % 4 * 16 + b.toNat / 16), letter (b.toNat % 16 * 4), '=']
  | a :: b :: c :: rest =>
    [letter (a.toNat / 4), letter (a.toNat % 4 * 16 + b.toNat / 16),
      letter (b.toNat % 16 * 4 + c.toNat / 64), letter (c.toNat % 64)] ++ profileBase64Encode rest

/-- The value of character `k` of a group; `last` says that no group follows. -/
def sextet (last : Bool) (k : Nat) (c : Char) : Option Nat :=
  if c = '=' then if !last || k < 2 then none else some 0 else alphabet.idxOf? c

/-- The loop of `profile_base64_decode` over the groups, with the bytes still expected. -/
def decodeGroups : Nat → List Char → Option (List UInt8)
  | expected, p :: q :: r :: s :: rest => do
    let last := rest.isEmpty
    let v := (((← sextet last 0 p) * 64 + (← sextet last 1 q)) * 64 + (← sextet last 2 r)) * 64 +
      (← sextet last 3 s)
    let bytes := [.ofNat (v / 65536), .ofNat (v / 256), .ofNat v]
    return bytes.take expected ++ (← decodeGroups (expected - 3) rest)
  | _, _ => some []

/-- `profile_base64_decode`, for sizes that memory can hold. -/
def profileBase64Decode (text : List Char) (expected : Nat) : Option (List UInt8) := do
  if text.length ≠ 4 * ((expected + 2) / 3) then failure
  let out ← decodeGroups expected text
  if profileBase64Encode out ≠ text then failure
  return out

theorem sextet_letter {last : Bool} {k index : Nat} (small : index < 64) :
    sextet last k (letter index) = some index := by
  have letters : ∀ i < 64, letter i ≠ '=' ∧ alphabet.idxOf? (letter i) = some i := by
    decide +kernel
  rw [sextet, if_neg (letters index small).1, (letters index small).2]

theorem length_encode (data : List UInt8) :
    (profileBase64Encode data).length = 4 * ((data.length + 2) / 3) := by
  fun_induction profileBase64Encode data with
  | case1 | case2 | case3 => simp
  | case4 a b c rest ih =>
    simp [ih]
    omega

variable {expected v₀ v₁ v₂ v₃ : Nat} {p q r s : Char} {rest : List Char} {a b c : UInt8}

theorem decodeGroups_group (first : sextet rest.isEmpty 0 p = some v₀)
    (second : sextet rest.isEmpty 1 q = some v₁) (third : sextet rest.isEmpty 2 r = some v₂)
    (fourth : sextet rest.isEmpty 3 s = some v₃)
    (value : ((v₀ * 64 + v₁) * 64 + v₂) * 64 + v₃ = a.toNat * 65536 + b.toNat * 256 + c.toNat) :
    decodeGroups expected (p :: q :: r :: s :: rest) =
      (decodeGroups (expected - 3) rest).map ([a, b, c].take expected ++ ·) := by
  have := a.toNat_lt
  have := b.toNat_lt
  have := c.toNat_lt
  have bytes : [UInt8.ofNat ((a.toNat * 65536 + b.toNat * 256 + c.toNat) / 65536),
      .ofNat ((a.toNat * 65536 + b.toNat * 256 + c.toNat) / 256),
      .ofNat (a.toNat * 65536 + b.toNat * 256 + c.toNat)] = [a, b, c] := by
    simp [← UInt8.toNat_inj]
    omega
  simp only [decodeGroups, first, second, third, fourth, Option.bind_eq_bind, Option.bind_some,
    value, bytes]
  cases decodeGroups (expected - 3) rest <;> rfl

theorem decodeGroups_encode (data : List UInt8) :
    decodeGroups data.length (profileBase64Encode data) = some data := by
  fun_induction profileBase64Encode data with
  | case1 => rfl
  | case2 a =>
    have := a.toNat_lt
    rw [decodeGroups_group (sextet_letter (by omega)) (sextet_letter (by omega)) rfl rfl
      (a := a) (b := 0) (c := 0) (by simp; omega)]
    simp [decodeGroups]
  | case3 a b =>
    have := a.toNat_lt
    have := b.toNat_lt
    rw [decodeGroups_group (sextet_letter (by omega)) (sextet_letter (by omega))
      (sextet_letter (by omega)) rfl (a := a) (b := b) (c := 0) (by simp; omega)]
    simp [decodeGroups]
  | case4 a b c rest ih =>
    have := a.toNat_lt
    have := b.toNat_lt
    have := c.toNat_lt
    simp only [cons_append, nil_append]
    rw [decodeGroups_group (sextet_letter (by omega)) (sextet_letter (by omega))
      (sextet_letter (by omega)) (sextet_letter (by omega)) (a := a) (b := b) (c := c) (by omega)]
    simp [ih]

theorem length_decodeGroups {text : List Char} {out : List UInt8}
    (found : decodeGroups expected text = some out) :
    out.length = min expected (3 * (text.length / 4)) := by
  fun_induction decodeGroups expected text generalizing out with
  | case1 =>
    rename_i ih
    simp only [Option.bind_eq_bind, Option.bind_eq_some_iff] at found
    obtain ⟨_, -, _, -, _, -, _, -, tail, decoded, found⟩ := found
    cases found
    simp [ih decoded]
    omega
  | case2 text _ short =>
    cases found
    match text with
    | [] | [_] | [_, _] | [_, _, _] => simp
    | p :: q :: r :: s :: rest => exact (short p q r s rest rfl).elim

theorem decode_eq_some_iff {text : List Char} {expected : Nat} {data : List UInt8} :
    profileBase64Decode text expected = some data ↔
      data.length = expected ∧ text = profileBase64Encode data := by
  constructor
  · intro found
    simp only [profileBase64Decode] at found
    split at found
    · contradiction
    obtain ⟨out, decoded, found⟩ := Option.bind_eq_some_iff.mp found
    split at found
    · contradiction
    next size same =>
      cases found
      have := length_decodeGroups decoded
      exact ⟨by omega, (not_not.mp same).symm⟩
  · rintro ⟨rfl, rfl⟩
    simp [profileBase64Decode, length_encode, decodeGroups_encode]

/-- A text is decoded to the bytes that it is the encoding of, and to nothing else. -/
theorem decode_canonical :
    (∀ text expected data, profileBase64Decode text expected = some data ↔
      data.length = expected ∧ text = profileBase64Encode data) ∧
    (∀ data, profileBase64Decode (profileBase64Encode data) data.length = some data) ∧
    ∀ text text' expected expected' data, profileBase64Decode text expected = some data →
      profileBase64Decode text' expected' = some data → text = text' := by
  refine ⟨fun _ _ _ => decode_eq_some_iff, fun _ => decode_eq_some_iff.mpr ⟨rfl, rfl⟩, ?_⟩
  intro text text' expected expected' data found found'
  rw [(decode_eq_some_iff.mp found).2, (decode_eq_some_iff.mp found').2]

end SrvrOS.Codec
