import Mathlib

/-!
# Checked arithmetic

A computation on machine integers as one that stops where a value does not fit its type.
-/

namespace SrvrOS.Lib

/-- A value that a type with the given bounds can hold. -/
def fit (low high value : Int) : Option Int :=
  if low ≤ value ∧ value ≤ high then some value else none

def int16 := fit (-2 ^ 15) (2 ^ 15 - 1)

def int32 := fit (-2 ^ 31) (2 ^ 31 - 1)

def int64 := fit (-2 ^ 63) (2 ^ 63 - 1)

/-- The computation does not stop early, and its result has the property. -/
def Gives {α : Type} (post : α → Prop) (act : Option α) : Prop :=
  ∃ result, act = some result ∧ post result

variable {α β : Type} {post : β → Prop} {value low high : Int} {next : Int → Option β}

theorem Gives.fit (fits : low ≤ value ∧ value ≤ high) (rest : Gives post (next value)) :
    Gives post (Lib.fit low high value >>= next) := by
  rwa [Lib.fit, if_pos fits]

theorem Gives.bind {mid : α → Prop} {act : Option α} {next : α → Option β} (first : Gives mid act)
    (rest : ∀ result, mid result → Gives post (next result)) : Gives post (act >>= next) := by
  obtain ⟨result, rfl, holds⟩ := first
  exact rest result holds

end SrvrOS.Lib
