import Mathlib

/-!
# Unsigned machine words

Counters and addresses of the source are unsigned words; they are natural numbers here
and each operation that the source may wrap is reduced modulo the width. Where the exact
result is in range the operation is the one on naturals.
-/

namespace SrvrOS.Lib.Word

/-- The value of a `bits`-wide word. -/
def wrap (bits value : Nat) : Nat := value % 2 ^ bits

/-- Subtraction of `bits`-wide words. -/
def sub (bits left right : Nat) : Nat := wrap bits (left + 2 ^ bits - right)

theorem wrap_of_lt {bits value : Nat} (inRange : value < 2 ^ bits) : wrap bits value = value :=
  Nat.mod_eq_of_lt inRange

theorem sub_of_le {bits left right : Nat} (ordered : right ≤ left) (inRange : left < 2 ^ bits) :
    sub bits left right = left - right := by
  have shifted : left + 2 ^ bits - right = left - right + 2 ^ bits := by omega
  rw [sub, wrap, shifted, Nat.add_mod_right, Nat.mod_eq_of_lt (by omega)]

theorem mul_lt {left right m n b : Nat} (narrow : left < 2 ^ m) (short : right ≤ 2 ^ n)
    (fits : m + n ≤ b) : left * right < 2 ^ b :=
  calc left * right ≤ left * 2 ^ n := Nat.mul_le_mul_left _ short
    _ < 2 ^ m * 2 ^ n := Nat.mul_lt_mul_of_pos_right narrow (Nat.two_pow_pos n)
    _ = 2 ^ (m + n) := (Nat.pow_add ..).symm
    _ ≤ 2 ^ b := Nat.pow_le_pow_right Nat.two_pos fits

/-- A reading of the source's unsigned operators. -/
structure Arith where
  add : Nat → Nat → Nat
  sub : Nat → Nat → Nat
  mul : Nat → Nat → Nat

/-- Arithmetic on `bits`-wide words. -/
def machine (bits : Nat) : Arith where
  add left right := wrap bits (left + right)
  sub := sub bits
  mul left right := wrap bits (left * right)

/-- Arithmetic on natural numbers; where both readings agree nothing overflows. -/
def exact : Arith where
  add left right := left + right
  sub left right := left - right
  mul left right := left * right

section Machine

variable {bits left right : Nat}

theorem machine_add (inRange : left + right < 2 ^ bits) :
    (machine bits).add left right = exact.add left right :=
  wrap_of_lt inRange

theorem machine_sub (ordered : right ≤ left) (inRange : left < 2 ^ bits) :
    (machine bits).sub left right = exact.sub left right :=
  sub_of_le ordered inRange

theorem machine_mul (inRange : left * right < 2 ^ bits) :
    (machine bits).mul left right = exact.mul left right :=
  wrap_of_lt inRange

theorem machine_add_sub_one (positive : 0 < right) (inRange : left + right ≤ 2 ^ bits) :
    (machine bits).sub ((machine bits).add left right) 1 = exact.sub (exact.add left right) 1 := by
  rcases Nat.lt_or_eq_of_le inRange with small | full
  · rw [machine_add small]
    exact machine_sub (Nat.add_pos_right _ positive) small
  · simp only [machine, exact, sub, wrap, full, Nat.mod_self]
    rw [Nat.zero_add, Nat.mod_eq_of_lt (by omega)]

end Machine

end SrvrOS.Lib.Word
