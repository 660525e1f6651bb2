import Mathlib

/-!
# Fixed tables and the weight they carry

A table of fixed length is a function on its indices, and a count kept beside it is a sum of
weights over them. Replacing one entry moves the sum by the difference of two weights.
-/

namespace SrvrOS.Lib.Table

open Function Finset

variable {n : Nat} {α : Type*} {weight : α → Nat} {t : Fin n → α}

def total (weight : α → Nat) (table : Fin n → α) : Nat := ∑ index, weight (table index)

theorem total_update (weight : α → Nat) (t : Fin n → α) (i : Fin n) (e : α) :
    total weight (update t i e) + weight (t i) =
      total weight t + weight e := by
  have split (other : Fin n → α) : total weight other =
      weight (other i) + ∑ p ∈ univ.erase i, weight (other p) :=
    (add_sum_erase _ _ (mem_univ i)).symm
  have rest : ∑ p ∈ univ.erase i, weight (update t i e p) =
      ∑ p ∈ univ.erase i, weight (t p) := by
    refine sum_congr rfl fun p apart => ?_
    rw [update_of_ne (ne_of_mem_erase apart)]
  rw [split, split t, update_self]
  omega

theorem total_update_same {i : Fin n} {e : α} (same : weight e = weight (t i)) :
    total weight (update t i e) = total weight t := by
  have moved := total_update weight t i e
  omega

theorem total_congr {t' : Fin n → α} (same : ∀ i, weight (t i) = weight (t' i)) :
    total weight t = total weight t' :=
  sum_congr rfl fun i _ => same i

theorem total_eq_zero : total weight t = 0 ↔ ∀ i, weight (t i) = 0 := by
  simp [total]

theorem le_total (weight : α → Nat) (t : Fin n → α) (i : Fin n) : weight (t i) ≤ total weight t :=
  single_le_sum (f := fun p => weight (t p)) (fun _ _ => Nat.zero_le _)
    (mem_univ i)

theorem total_le {bound : Nat} (light : ∀ e, weight e ≤ bound) (t : Fin n → α) :
    total weight t ≤ n * bound := by
  have bounded := sum_le_card_nsmul univ (fun i => weight (t i)) bound
    fun i _ => light (t i)
  simpa [total] using bounded

end SrvrOS.Lib.Table
