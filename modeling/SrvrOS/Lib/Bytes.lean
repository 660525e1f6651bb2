import SrvrOS.Lib.Store

/-!
# Little-endian fields

Bytes are lists of `UInt8`. A field of a record is a run of bytes read as a
little-endian number; writing a number keeps its low bytes.
-/

namespace SrvrOS.Lib

abbrev Bytes := List UInt8

/-- The number a byte string stands for, low byte first. -/
def leValue : Bytes → Nat
  | [] => 0
  | byte :: rest => byte.toNat + 256 * leValue rest

/-- The `width` low bytes of a number, low byte first. -/
def leBytes : Nat → Nat → Bytes
  | 0, _ => []
  | width + 1, value => UInt8.ofNat (value % 256) :: leBytes width (value / 256)

/-- The field of `width` bytes at `offset`. -/
def leField (data : Bytes) (offset width : Nat) : Nat :=
  leValue ((data.drop offset).take width)

theorem leValue_lt {data : Bytes} : leValue data < 256 ^ data.length := by
  induction data with
  | nil => exact Nat.one_pos
  | cons byte rest ih =>
    have low := byte.toNat_lt
    rw [leValue, List.length_cons]
    omega

theorem leField_lt (data : Bytes) (offset width : Nat) :
    leField data offset width < 2 ^ (8 * width) := by
  rw [Nat.pow_mul]
  exact Nat.lt_of_lt_of_le leValue_lt
    (Nat.pow_le_pow_right (by decide) (List.length_take_le _ _))

variable {width v : Nat}

@[simp] theorem leBytes_length : (leBytes width v).length = width := by
  induction width generalizing v with
  | zero => rfl
  | succ width ih => simp [leBytes, ih]

theorem leValue_leBytes (width v : Nat) : leValue (leBytes width v) = v % 256 ^ width := by
  induction width generalizing v with
  | zero => simp [leBytes, leValue, Nat.mod_one]
  | succ width ih =>
    have small : (UInt8.ofNat (v % 256)).toNat = v % 256 := by simp
    rw [leBytes, leValue, ih, small, Nat.pow_succ, Nat.mul_comm (256 ^ width), Nat.mod_mul]

theorem leValue_leBytes_of_lt (fits : v < 256 ^ width) : leValue (leBytes width v) = v := by
  rw [leValue_leBytes, Nat.mod_eq_of_lt fits]

/-! ## Words in byte memory -/

namespace Store

def getWord (memory : Store UInt8) (address : Nat) : Nat := leValue (memory.read address 8)

def setWord (memory : Store UInt8) (address value : Nat) : Store UInt8 :=
  memory.write address (leBytes 8 value)

section

variable (memory : Store UInt8) {a j v : Nat}

include memory

theorem getWord_setWord {a v : Nat} (fits : v < 2 ^ 64) : (memory.setWord a v).getWord a = v := by
  have same := memory.read_write_same a (leBytes 8 v)
  rw [leBytes_length] at same
  rw [getWord, setWord, same]
  exact leValue_leBytes_of_lt fits

theorem getWord_write_apart {a start : Nat} {values : Bytes}
    (apart : a + 8 ≤ start ∨ start + values.length ≤ a) :
    (memory.write start values).getWord a = memory.getWord a := by
  rw [getWord, getWord, read_write_disjoint memory apart]

theorem getWord_setWord_apart (apart : a + 8 ≤ j ∨ j + 8 ≤ a) :
    (memory.setWord j v).getWord a = memory.getWord a :=
  memory.getWord_write_apart (by simpa using apart)

theorem setWord_outside (outside : a < j ∨ j + 8 ≤ a) : memory.setWord j v a = memory a :=
  memory.write_outside (by simpa using outside)

end

end Store

end SrvrOS.Lib
