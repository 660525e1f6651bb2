import SrvrOS.Lib.Store

/-!
# Bitmaps stored in bytes

Bit `index` of a bitmap is bit `index % 8` of byte `index / 8`. The operations are the
masked byte operations of the usual C code; the lemmas let a client read a bitmap as a
function from indices to bits.
-/

namespace SrvrOS.Lib

open Function BitVec

variable {i j : Nat} {bitmap : Bitmap}

abbrev Bitmap := Store (BitVec 8)

namespace Bitmap

/-- The bit of its byte that stands for `index`. -/
def mask (index : Nat) : BitVec 8 := 1#8 <<< (index % 8)

/-- Whether bit `index` is set. -/
def get (bitmap : Bitmap) (index : Nat) : Bool := bitmap (index / 8) &&& mask index != 0#8

/-- Set bit `index`. -/
def setBit (bitmap : Bitmap) (index : Nat) : Bitmap :=
  update bitmap (index / 8) (bitmap (index / 8) ||| mask index)

/-- Clear bit `index`. -/
def clearBit (bitmap : Bitmap) (index : Nat) : Bitmap :=
  update bitmap (index / 8) (bitmap (index / 8) &&& ~~~ mask index)

theorem getLsbD_mask (p : Nat) : (mask i).getLsbD p = decide (p = i % 8) := by
  have twoPow : mask i = twoPow 8 (i % 8) := (twoPow_eq 8 _).symm
  rw [twoPow]
  have fits : i % 8 < 8 := Nat.mod_lt _ (by decide)
  by_cases eq : p = i % 8
  · simp [eq, fits]
  have j := Ne.symm eq
  simp [eq, j]

theorem get_eq : bitmap.get i = (bitmap (i / 8)).getLsbD (i % 8) := by
  cases bit : (bitmap (i / 8)).getLsbD (i % 8) with
  | true =>
    have nonzero : bitmap (i / 8) &&& mask i ≠ 0#8 := by
      intro zero
      have read := congrArg (fun byte => byte.getLsbD (i % 8)) zero
      simp [getLsbD_mask, bit] at read
    simpa [get] using nonzero
  | false =>
    have zero : bitmap (i / 8) &&& mask i = 0#8 := by
      apply eq_of_getLsbD_eq
      intro p _
      rw [getLsbD_and, getLsbD_mask]
      by_cases eq : p = i % 8
      · simp [eq, bit]
      · simp [eq]
    simp [get, zero]

theorem place_ne {i j : Nat} (different : j ≠ i) (sameByte : j / 8 = i / 8) : j % 8 ≠ i % 8 := by
  omega

theorem get_setBit : (bitmap.setBit i).get j = (decide (j = i) || bitmap.get j) := by
  rw [get_eq, get_eq, setBit]
  by_cases sameByte : j / 8 = i / 8
  · rw [sameByte, update_self, getLsbD_or, getLsbD_mask]
    by_cases eq : j = i
    · simp [eq]
    · simp [eq, place_ne eq sameByte]
  rw [update_of_ne sameByte]
  have different : j ≠ i := fun eq => sameByte (by rw [eq])
  simp [different]

theorem get_clearBit : (bitmap.clearBit i).get j = (!decide (j = i) && bitmap.get j) := by
  have fits : j % 8 < 8 := Nat.mod_lt _ (by decide)
  rw [get_eq, get_eq, clearBit]
  by_cases sameByte : j / 8 = i / 8
  · rw [sameByte, update_self, getLsbD_and, getLsbD_not, getLsbD_mask]
    by_cases eq : j = i
    · simp [eq]
    · simp [eq, fits, place_ne eq sameByte]
  rw [update_of_ne sameByte]
  have different : j ≠ i := fun eq => sameByte (by rw [eq])
  simp [different]

theorem get_of_full {bitmap : Bitmap} {i : Nat} (full : bitmap (i / 8) = 0xff#8) :
    bitmap.get i = true := by
  have fits : i % 8 < 8 := Nat.mod_lt _ (by decide)
  have allOnes : (0xff#8 : BitVec 8) = allOnes 8 := by decide
  rw [get_eq, full, allOnes, getLsbD_allOnes]
  simpa using fits

end Bitmap

end SrvrOS.Lib
