import Mathlib

/-!
# Linear stores

A store maps every address to a cell. Reads take a run of cells and writes replace
one. The lemmas say how adjacent and disjoint runs compose; nothing here depends on
what a cell holds.
-/

namespace SrvrOS.Lib

open List

variable {start n : Nat}

universe u

abbrev Store (β : Type u) := Nat → β

namespace Store

variable {β : Type u}

/-- The run of `count` cells from `start`. -/
def read (store : Store β) : Nat → Nat → List β
  | _, 0 => []
  | start, count + 1 => store start :: read store (start + 1) count

/-- Replace the run of cells from `start` by the given values. -/
def write (store : Store β) (start : Nat) (values : List β) : Store β := fun address =>
  if start ≤ address ∧ address < start + values.length then
    (values[address - start]?).getD (store address)
  else store address

@[simp] theorem read_length {store : Store β} : (store.read start n).length = n := by
  induction n generalizing start with
  | zero => rfl
  | succ n ih => simp [read, ih]

theorem read_getElem? {store : Store β} {start n p : Nat} (inside : p < n) :
    (store.read start n)[p]? = some (store (start + p)) := by
  induction n generalizing start p with
  | zero => omega
  | succ n ih =>
    cases p with
    | zero => simp [read]
    | succ p =>
      simp only [read, List.getElem?_cons_succ]
      rw [ih (Nat.lt_of_succ_lt_succ inside)]
      congr 2
      omega

theorem read_congr {left right : Store β} {start n : Nat}
    (agree : ∀ a, start ≤ a → a < start + n → left a = right a) :
    left.read start n = right.read start n := by
  induction n generalizing start with
  | zero => rfl
  | succ n ih =>
    simp only [read]
    rw [agree start (Nat.le_refl _) (by omega),
      ih fun a lower upper => agree a (by omega) (by omega)]

section

variable (store : Store β)

include store

theorem read_add (left right : Nat) :
    store.read start (left + right) = store.read start left ++ store.read (start + left) right := by
  induction left generalizing start with
  | zero => simp [read]
  | succ left ih =>
    rw [Nat.add_right_comm, read, read, ih]
    congr 3
    omega

@[simp] theorem write_nil : store.write start [] = store := by
  funext a
  simp [write]

variable {values : List β}

theorem write_outside {start a : Nat} (outside : a < start ∨ start + values.length ≤ a) :
    store.write start values a = store a := by
  rw [write, if_neg (by omega)]

theorem write_inside {start p : Nat} {value : β} (found : values[p]? = some value) :
    store.write start values (start + p) = value := by
  have inside := (List.getElem?_eq_some_iff.mp found).1
  rw [write, if_pos (by omega), Nat.add_sub_cancel_left, found, Option.getD_some]

theorem write_read_self : store.write start (store.read start n) = store := by
  funext a
  by_cases inside : start ≤ a ∧ a < start + n
  · obtain ⟨p, rfl⟩ := Nat.exists_eq_add_of_le inside.1
    exact write_inside store (read_getElem? (by omega))
  · exact write_outside store (by simp; omega)

theorem read_write_same (start : Nat) (values : List β) :
    (store.write start values).read start values.length = values := by
  apply ext_getElem?
  intro p
  by_cases inside : p < values.length
  · rw [read_getElem? inside,
      write_inside store (List.getElem?_eq_getElem inside), List.getElem?_eq_getElem inside]
  · rw [List.getElem?_eq_none (by simpa using inside),
      List.getElem?_eq_none (by simpa using inside)]

theorem read_write_disjoint {start n at_ : Nat}
    (apart : start + n ≤ at_ ∨ at_ + values.length ≤ start) :
    (store.write at_ values).read start n = store.read start n := by
  apply read_congr
  intro a lower upper
  exact write_outside store (by omega)

theorem write_append (left right : List β) :
    (store.write start left).write (start + left.length) right =
      store.write start (left ++ right) := by
  funext a
  by_cases inLeft : start ≤ a ∧ a < start + left.length
  · obtain ⟨p, rfl⟩ := Nat.exists_eq_add_of_le inLeft.1
    have found : left[p]? = some left[p] := List.getElem?_eq_getElem (by omega)
    have appended : (left ++ right)[p]? = some left[p] := by
      rw [List.getElem?_append_left (by omega), found]
    rw [write_outside _ (by omega), write_inside _ found, write_inside store appended]
  by_cases inRight : start + left.length ≤ a ∧ a < start + left.length + right.length
  · obtain ⟨p, rfl⟩ := Nat.exists_eq_add_of_le inRight.1
    have found : right[p]? = some right[p] := List.getElem?_eq_getElem (by omega)
    have appended : (left ++ right)[left.length + p]? = some right[p] := by
      rw [List.getElem?_append_right (by omega), Nat.add_sub_cancel_left, found]
    rw [write_inside _ found, Nat.add_assoc, write_inside store appended]
  · rw [write_outside _ (by omega), write_outside _ (by omega),
      write_outside _ (by simp only [length_append]; omega)]

theorem read_take {start n taken : Nat} (inside : taken ≤ n) :
    (store.read start n).take taken = store.read start taken := by
  obtain ⟨rest, rfl⟩ := Nat.exists_eq_add_of_le inside
  rw [read_add, take_left' (read_length ..)]

theorem read_drop {start n dropped : Nat} (inside : dropped ≤ n) :
    (store.read start n).drop dropped = store.read (start + dropped) (n - dropped) := by
  obtain ⟨rest, rfl⟩ := Nat.exists_eq_add_of_le inside
  rw [read_add, drop_left' (read_length ..), Nat.add_sub_cancel_left]

end

theorem write_patch {store : Store β} {start n skipped : Nat}
    (inside : skipped + values.length ≤ n) :
    store.write start ((store.read start n).take skipped ++ values ++
        (store.read start n).drop (skipped + values.length)) =
      store.write (start + skipped) values := by
  rw [read_take _ (by omega), read_drop _ inside, append_assoc,
    ← write_append, write_read_self, read_length, ← write_append, ← Nat.add_assoc]
  have unchanged : store.read (start + skipped + values.length)
      (n - (skipped + values.length)) =
      (store.write (start + skipped) values).read (start + skipped + values.length)
        (n - (skipped + values.length)) :=
    (read_write_disjoint store (.inr (Nat.le_refl _))).symm
  rw [unchanged, write_read_self]

end Store

end SrvrOS.Lib
