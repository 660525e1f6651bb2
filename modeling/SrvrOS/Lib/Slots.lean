import Mathlib

/-!
# Arrays of optional records

An array in which each record carries a flag that says whether it is in use. Outside the
array nothing is in use. The records in use form a list, in the order of their indices.
-/

namespace SrvrOS.Lib

universe u

/-- The records of an array, present where they are in use. -/
abbrev Slots (α : Type u) := Nat → Option α

namespace Slots

variable {α : Type u} {slots : Slots α}

/-- The records in use among the first `count`. -/
def used (slots : Slots α) (count : Nat) : List α := (List.range count).filterMap slots

variable {n : Nat}

theorem used_ofList {list : List α} : used (fun i => list[i]?) n = list.take n := by
  induction n with
  | zero => rfl
  | succ n ih =>
    have more : used (fun i => list[i]?) (n + 1) =
        used (fun i => list[i]?) n ++ list[n]?.toList := by
      rw [used, List.range_succ, List.filterMap_append]
      rfl
    rw [more, ih, List.take_add_one]

theorem used_filter {keep : α → Bool} :
    used (fun i => (slots i).filter keep) n = (slots.used n).filter keep := by
  rw [used, used, List.filter_filterMap]

theorem used_congr {other : Slots α}
    (same : ∀ i < n, slots i = other i) : slots.used n = other.used n :=
  List.filterMap_congr fun i member => same i (List.mem_range.mp member)

end Slots

end SrvrOS.Lib
