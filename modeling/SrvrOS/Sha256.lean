import Mathlib

/-!
# SHA-256

`profile/codec.c` hashes a message in whatever pieces it comes. It keeps the bytes that do not yet
fill a block; at any time they and the state are those of one pass over the bytes so far.
-/

namespace SrvrOS.Sha256

open List

def ror (x n : UInt32) : UInt32 := x >>> n ||| x <<< (32 - n)

def k : List UInt32 := [
  0x428a2f98, 0x71374491, 0xb5c0fbcf, 0xe9b5dba5, 0x3956c25b, 0x59f111f1, 0x923f82a4, 0xab1c5ed5,
  0xd807aa98, 0x12835b01, 0x243185be, 0x550c7dc3, 0x72be5d74, 0x80deb1fe, 0x9bdc06a7, 0xc19bf174,
  0xe49b69c1, 0xefbe4786, 0x0fc19dc6, 0x240ca1cc, 0x2de92c6f, 0x4a7484aa, 0x5cb0a9dc, 0x76f988da,
  0x983e5152, 0xa831c66d, 0xb00327c8, 0xbf597fc7, 0xc6e00bf3, 0xd5a79147, 0x06ca6351, 0x14292967,
  0x27b70a85, 0x2e1b2138, 0x4d2c6dfc, 0x53380d13, 0x650a7354, 0x766a0abb, 0x81c2c92e, 0x92722c85,
  0xa2bfe8a1, 0xa81a664b, 0xc24b8b70, 0xc76c51a3, 0xd192e819, 0xd6990624, 0xf40e3585, 0x106aa070,
  0x19a4c116, 0x1e376c08, 0x2748774c, 0x34b0bcb5, 0x391c0cb3, 0x4ed8aa4a, 0x5b9cca4f, 0x682e6ff3,
  0x748f82ee, 0x78a5636f, 0x84c87814, 0x8cc70208, 0x90befffa, 0xa4506ceb, 0xbef9a3f7, 0xc67178f2]

structure State where
  (a b c d e f g z : UInt32)

def initial : State :=
  ⟨0x6a09e667, 0xbb67ae85, 0x3c6ef372, 0xa54ff53a, 0x510e527f, 0x9b05688c,
    0x1f83d9ab, 0x5be0cd19⟩

/-- Word `i` of a block. -/
def word (p : List UInt8) (i : Nat) : UInt32 :=
  let byte j := (p.getD (4 * i + j) 0).toUInt32
  byte 0 <<< 24 ||| byte 1 <<< 16 ||| byte 2 <<< 8 ||| byte 3

def sigma0 (x : UInt32) : UInt32 := ror x 7 ^^^ ror x 18 ^^^ x >>> 3

def sigma1 (x : UInt32) : UInt32 := ror x 17 ^^^ ror x 19 ^^^ x >>> 10

/-- A turn of the loop that computes `w`. -/
def extend (w : List UInt32) : List UInt32 :=
  let back n := w.getD (w.length - n) 0
  w ++ [back 16 + sigma0 (back 15) + back 7 + sigma1 (back 2)]

/-- A turn of the loop over `k` and `w`. -/
def round (s : State) (kw : UInt32 × UInt32) : State :=
  let t := s.z + (ror s.e 6 ^^^ ror s.e 11 ^^^ ror s.e 25) + ((s.e &&& s.f) ^^^ (~~~s.e &&& s.g)) +
    kw.1 + kw.2
  let u := (ror s.a 2 ^^^ ror s.a 13 ^^^ ror s.a 22) +
    ((s.a &&& s.b) ^^^ (s.a &&& s.c) ^^^ (s.b &&& s.c))
  ⟨t + u, s.a, s.b, s.c, s.d + t, s.e, s.f, s.g⟩

def State.add (s t : State) : State :=
  ⟨s.a + t.a, s.b + t.b, s.c + t.c, s.d + t.d, s.e + t.e, s.f + t.f, s.g + t.g, s.z + t.z⟩

def block (h : State) (p : List UInt8) : State :=
  h.add ((k.zip (Nat.repeat extend 48 ((range 16).map (word p)))).foldl round h)

/-- The loop over whole blocks, with what it leaves. -/
def blocks (h : State) (p : List UInt8) : State × List UInt8 :=
  if 64 ≤ p.length then blocks (block h (p.take 64)) (p.drop 64) else (h, p)
termination_by p.length

/-- `struct profile_sha256_ctx`; `tail` holds its first `used` bytes. -/
structure Ctx where
  h : State := initial
  total : Nat := 0
  tail : List UInt8 := []

def profileSha256Update (c : Ctx) (data : List UInt8) : Ctx :=
  let total := (c.total + data.length) % 2 ^ 64
  let n := if c.tail = [] then 0 else min (64 - c.tail.length) data.length
  let tail := c.tail ++ data.take n
  let (h, tail) := if tail.length = 64 then (block c.h tail, []) else (c.h, tail)
  let (h, rest) := blocks h (data.drop n)
  { h, total, tail := if rest = [] then tail else rest }

def bigEndian (bits : Nat) : List UInt8 := (range 8).map fun i => .ofNat (bits / 256 ^ (7 - i))

def hex (h : State) : List Char :=
  [h.a, h.b, h.c, h.d, h.e, h.f, h.g, h.z].flatMap fun w => [24, 16, 8, 0].flatMap fun shift =>
    let v := (w >>> shift &&& 255).toNat
    [v / 16, v % 16].map fun digit => "0123456789abcdef".toList.getD digit '0'

def profileSha256Final (c : Ctx) : List Char :=
  let used := c.tail.length
  let padded := if used < 56 then 64 else 128
  let tail := c.tail ++
    (0x80 :: replicate (padded - 9 - used) 0 ++ bigEndian (c.total * 8 % 2 ^ 64))
  let h := block c.h (tail.take 64)
  hex (if padded = 128 then block h (tail.drop 64) else h)

/-! ## The standard -/

namespace Standard

/-- The first 32 bits of the fractional part of a root. -/
def fraction (degree n : Nat) : BitVec 32 :=
  .ofNat 32 (Nat.nthRoot degree (n * 2 ^ (32 * degree)))

/-- The first 64 primes. -/
def primes : List Nat :=
  (range 312).filter fun n => 2 ≤ n && (range n).all fun d => d < 2 || n % d != 0

def constants : List (BitVec 32) := primes.map (fraction 3)

def start (i : Fin 8) : BitVec 32 := fraction 2 (primes.getD i 0)

section

variable (x y z : BitVec 32)

def ch : BitVec 32 := (x &&& y) ^^^ (~~~x &&& z)

def maj : BitVec 32 := (x &&& y) ^^^ (x &&& z) ^^^ (y &&& z)

def bigSigma0 : BitVec 32 := x.rotateRight 2 ^^^ x.rotateRight 13 ^^^ x.rotateRight 22

def bigSigma1 : BitVec 32 := x.rotateRight 6 ^^^ x.rotateRight 11 ^^^ x.rotateRight 25

def sigma0 : BitVec 32 := x.rotateRight 7 ^^^ x.rotateRight 18 ^^^ x >>> 3

def sigma1 : BitVec 32 := x.rotateRight 17 ^^^ x.rotateRight 19 ^^^ x >>> 10

end

def schedule (p : List UInt8) (t : Nat) : BitVec 32 :=
  if t < 16 then
    let byte j := (p.getD (4 * t + j) 0).toBitVec
    byte 0 ++ byte 1 ++ byte 2 ++ byte 3
  else sigma1 (schedule p (t - 2)) + schedule p (t - 7) + sigma0 (schedule p (t - 15)) +
    schedule p (t - 16)

/-- A round on the eight working variables, with a constant and a word of the schedule. -/
def round (v : Fin 8 → BitVec 32) (kw : BitVec 32 × BitVec 32) : Fin 8 → BitVec 32 :=
  let t₁ := v 7 + bigSigma1 (v 4) + ch (v 4) (v 5) (v 6) + kw.1 + kw.2
  let t₂ := bigSigma0 (v 0) + maj (v 0) (v 1) (v 2)
  ![t₁ + t₂, v 0, v 1, v 2, v 3 + t₁, v 4, v 5, v 6]

@[irreducible] def compress (h : Fin 8 → BitVec 32) (p : List UInt8) : Fin 8 → BitVec 32 :=
  h + (constants.zip ((range 64).map (schedule p))).foldl round h

/-- The message with a bit, zeros up to eight bytes before the end of a block, and its length. -/
def pad (m : List UInt8) : List UInt8 :=
  m ++ (0x80 :: replicate ((119 - m.length % 64) % 64) 0 ++ bigEndian (m.length * 8))

def hashBlocks (h : Fin 8 → BitVec 32) (p : List UInt8) : Nat → Fin 8 → BitVec 32
  | 0 => h
  | n + 1 => hashBlocks (compress h (p.take 64)) (p.drop 64) n

def hex (h : Fin 8 → BitVec 32) : List Char :=
  (finRange 8).flatMap fun i => (range 8).map fun j =>
    Nat.digitChar ((h i).toNat / 16 ^ (7 - j) % 16)

end Standard

open Standard (pad hashBlocks start constants schedule compress)

/-- The digest of the standard. -/
def sha256 (m : List UInt8) : List Char :=
  Standard.hex (hashBlocks start (pad m) ((pad m).length / 64))

/-! ## Rounds and blocks -/

def State.words (s : State) : Fin 8 → BitVec 32 :=
  ![s.a.toBitVec, s.b.toBitVec, s.c.toBitVec, s.d.toBitVec, s.e.toBitVec, s.f.toBitVec,
    s.g.toBitVec, s.z.toBitVec]

theorem k_words : k.map UInt32.toBitVec = constants := by decide +kernel

theorem initial_words : initial.words = start := by
  funext i
  fin_cases i <;> decide +kernel

theorem word_schedule {p : List UInt8} {t : Nat} (early : t < 16) :
    (word p t).toBitVec = schedule p t := by
  rw [schedule, if_pos early, word]
  generalize p.getD (4 * t + 0) 0 = a, p.getD (4 * t + 1) 0 = b, p.getD (4 * t + 2) 0 = c,
    p.getD (4 * t + 3) 0 = d
  have high (x : UInt8) (i : Nat) (above : 8 ≤ i) : x.toBitVec.getLsbD i = false :=
    BitVec.getLsbD_of_ge _ _ above
  ext i inside
  simp
  grind

theorem add_words (s t : State) : (s.add t).words = s.words + t.words := by
  funext i
  fin_cases i <;> rfl

theorem extend_schedule {p : List UInt8} {w : List UInt32} {n : Nat} (enough : 16 ≤ n)
    (now : w.map UInt32.toBitVec = (range n).map (schedule p)) :
    (extend w).map UInt32.toBitVec = (range (n + 1)).map (schedule p) := by
  have len : w.length = n := by simpa using congrArg length now
  have back {j : Nat} (pos : 0 < j) : (w.getD (w.length - j) 0).toBitVec = schedule p (n - j) := by
    have here := congrArg (·[n - j]?) now
    simp only [getElem?_map, getElem?_range (by omega : n - j < n)] at here
    obtain ⟨x, hit, eq⟩ := Option.map_eq_some_iff.mp here
    rw [len, getD_eq_getElem?_getD, hit]
    exact eq
  have sum (x y z u : UInt32) : (x + sigma0 y + z + sigma1 u).toBitVec = x.toBitVec +
      Standard.sigma0 y.toBitVec + z.toBitVec + Standard.sigma1 u.toBitVec := rfl
  rw [range_succ, map_append, ← now, extend, map_append, map_singleton, map_singleton, sum,
    back (by omega), back (by omega), back (by omega), back (by omega), schedule.eq_def p n,
    if_neg (by omega)]
  ac_rfl

theorem block_words (h : State) (p : List UInt8) : (block h p).words = compress h.words p := by
  have words (n : Nat) : (Nat.repeat extend n ((range 16).map (word p))).map UInt32.toBitVec =
      (range (16 + n)).map (schedule p) := by
    induction n with
    | zero =>
      rw [Nat.repeat, map_map]
      exact map_congr_left fun t mem => word_schedule (mem_range.mp mem)
    | succ n ih => exact extend_schedule (Nat.le_add_right 16 n) ih
  have rounds (kw : List (UInt32 × UInt32)) (s : State) : (kw.foldl round s).words =
      (kw.map (Prod.map UInt32.toBitVec UInt32.toBitVec)).foldl Standard.round s.words := by
    induction kw generalizing s with
    | nil => rfl
    | cons first rest ih => exact ih (round s first)
  have all : (Nat.repeat extend 48 ((range 16).map (word p))).map UInt32.toBitVec =
      (range 64).map (schedule p) := words 48
  unfold block Standard.compress
  rw [add_words, rounds, ← zip_map, k_words, all]

theorem hex_words (h : State) : hex h = Standard.hex h.words := by
  have digit (n : Nat) :
      "0123456789abcdef".toList.getD (n % 16) '0' = Nat.digitChar (n % 16) := by
    have small : n % 16 < 16 := Nat.mod_lt n (by decide)
    generalize n % 16 = d at small
    decide +revert
  have byte (w shift : UInt32) :
      (w >>> shift &&& 255).toNat = w.toNat / 2 ^ (shift.toNat % 32) % 256 := by
    rw [UInt32.toNat_and, UInt32.toNat_shiftRight, Nat.shiftRight_eq_div_pow]
    exact Nat.and_two_pow_sub_one_eq_mod _ 8
  have high (n : Nat) : n % 256 / 16 = n / 16 % 16 := by omega
  have low (n : Nat) : n % 256 % 16 = n % 16 := by omega
  have digits (w : UInt32) : ([24, 16, 8, 0].flatMap fun (shift : UInt32) =>
      let v := (w >>> shift &&& 255).toNat
      [v / 16, v % 16].map fun digit => "0123456789abcdef".toList.getD digit '0') =
      (range 8).map fun j => Nat.digitChar (w.toBitVec.toNat / 16 ^ (7 - j) % 16) := by
    simp only [flatMap_cons, flatMap_nil, map_cons, map_nil, byte, high, low, digit]
    simp [range_succ, Nat.div_div_eq_div_mul]
  simp only [hex, digits]
  rfl

/-! ## Pieces -/

theorem blocks_full {h : State} {p : List UInt8} (full : 64 ≤ p.length) :
    blocks h p = blocks (block h (p.take 64)) (p.drop 64) := by
  rw [blocks, if_pos full]

theorem blocks_short {h : State} {p : List UInt8} (short : p.length < 64) :
    blocks h p = (h, p) := by
  rw [blocks, if_neg (by omega)]

theorem blocks_spec (h : State) (m : List UInt8) : (blocks h m).2.length = m.length % 64 ∧
    (blocks h m).1.words = hashBlocks h.words m (m.length / 64) ∧
    ∀ data, blocks h (m ++ data) = blocks (blocks h m).1 ((blocks h m).2 ++ data) := by
  fun_induction blocks h m with
  | case1 h m full ih =>
    obtain ⟨len, eq, app⟩ := ih
    rw [length_drop] at len eq
    have more : m.length / 64 = (m.length - 64) / 64 + 1 := by omega
    refine ⟨by omega, ?_, fun data => ?_⟩
    · rw [eq, more, hashBlocks, block_words]
    rw [← app data, blocks_full (by simp; omega), take_append_of_le_length full,
      drop_append_of_le_length full]
  | case2 h m short =>
    rw [Nat.mod_eq_of_lt (by omega), Nat.div_eq_of_lt (by omega)]
    exact ⟨rfl, rfl, fun _ => rfl⟩

theorem update_spec {c : Ctx} (part : c.tail.length < 64) (data : List UInt8) :
    ((profileSha256Update c data).h, (profileSha256Update c data).tail) =
      blocks c.h (c.tail ++ data) := by
  have left (h : State) (p : List UInt8) :
      ((blocks h p).1, if (blocks h p).2 = [] then [] else (blocks h p).2) = blocks h p := by
    grind
  simp only [profileSha256Update]
  by_cases none : c.tail = []
  · simp [none, left]
  by_cases enough : 64 ≤ c.tail.length + data.length
  · have n : min (64 - c.tail.length) data.length = 64 - c.tail.length := by omega
    have filled : (c.tail ++ data.take (64 - c.tail.length)).length = 64 := by
      simp
      omega
    have first : (c.tail ++ data).take 64 = c.tail ++ data.take (64 - c.tail.length) := by
      rw [take_append, take_of_length_le (Nat.le_of_lt part)]
    have second : (c.tail ++ data).drop 64 = data.drop (64 - c.tail.length) := by
      rw [drop_append, drop_eq_nil_of_le (Nat.le_of_lt part), nil_append]
    rw [if_neg none, n, if_pos filled, blocks_full (p := c.tail ++ data) (by simpa using enough),
      first, second]
    exact left ..
  have n : min (64 - c.tail.length) data.length = data.length := by omega
  have short : (c.tail ++ data).length < 64 := by simpa using enough
  rw [if_neg none, n, take_length, drop_length, if_neg (Nat.ne_of_lt short), blocks_short short,
    blocks_short (by simp)]
  rfl

/-- A context that has taken in a message. -/
def Ctx.Took (c : Ctx) (m : List UInt8) : Prop :=
  blocks initial m = (c.h, c.tail) ∧ c.total = m.length % 2 ^ 64

theorem Ctx.Took.update {c : Ctx} {m : List UInt8} (took : c.Took m) (data : List UInt8) :
    (profileSha256Update c data).Took (m ++ data) := by
  obtain ⟨len, -, app⟩ := blocks_spec initial m
  rw [took.1] at len app
  have part : c.tail.length < 64 := by
    simp only at len
    omega
  refine ⟨(app data).trans (update_spec part data).symm, ?_⟩
  simp [profileSha256Update, took.2]

theorem Ctx.Took.final {c : Ctx} {m : List UInt8} (took : c.Took m) (short : m.length < 2 ^ 61) :
    profileSha256Final c = sha256 m := by
  obtain ⟨used, -, app⟩ := blocks_spec initial m
  rw [took.1] at used app
  simp only at used app
  have bits : c.total * 8 % 2 ^ 64 = m.length * 8 := by
    rw [took.2]
    omega
  have zeros : (119 - m.length % 64) % 64 =
      (if c.tail.length < 56 then 64 else 128) - 9 - c.tail.length := by split <;> omega
  rw [sha256, ← initial_words, ← (blocks_spec initial (pad m)).2.1, ← hex_words, pad, app, zeros,
    profileSha256Final, bits]
  generalize full : c.tail ++ _ = p
  have len : p.length = if c.tail.length < 56 then 64 else 128 := by
    simp only [← full, bigEndian, length_append, length_cons, length_replicate, length_map,
      length_range]
    split <;> omega
  by_cases small : c.tail.length < 56
  · rw [if_pos small] at len ⊢
    rw [if_neg (by decide), blocks_full (by omega), blocks_short (by simp [len])]
  rw [if_neg small] at len ⊢
  rw [if_pos rfl, blocks_full (by omega), blocks_full (by simp [len]),
    blocks_short (by simp [len]), take_of_length_le (by simp [len] : (p.drop 64).length ≤ 64)]

/-- The first example of the standard. -/
example : profileSha256Final (profileSha256Update {} [97, 98, 99]) =
    "ba7816bf8f01cfea414140de5dae2223b00361a396177a9cb410ff61f20015ad".toList := by
  decide +kernel

end SrvrOS.Sha256
