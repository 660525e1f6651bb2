import SrvrOS.Lib.Store

/-!
# Ring buffers

`size` cells of an array are occupied from `head` on, and an index wraps at the capacity. A ring
stands for the list of its occupied cells; the lemmas give that list after each operation.
-/

namespace SrvrOS.Lib

open Function List Store Nat

universe u

/-- A cyclic array with its first occupied cell and the number of occupied cells. -/
structure RingBuffer (α : Type u) where
  data : Store α
  head : Nat
  size : Nat

namespace RingBuffer

variable {α : Type u} (capacity : Nat)

def contents (ring : RingBuffer α) : List α :=
  (range ring.size).map fun offset => ring.data ((ring.head + offset) % capacity)

def put (ring : RingBuffer α) (value : α) : RingBuffer α :=
  { ring with
    data := update ring.data ((ring.head + ring.size) % capacity) value
    size := ring.size + 1 }

/-- Release the first `count` cells. -/
def skip (count : Nat) (ring : RingBuffer α) : RingBuffer α :=
  { ring with head := (ring.head + count) % capacity, size := ring.size - count }

/-- The indices of a ring are inside its array. -/
structure Bounded (ring : RingBuffer α) : Prop where
  head_lt : ring.head < capacity
  size_le : ring.size ≤ capacity

variable {capacity}

@[simp] theorem contents_length {ring : RingBuffer α} :
    (ring.contents capacity).length = ring.size := by
  simp [contents]

variable {ring : RingBuffer α}

theorem contents_of_size_zero (empty : ring.size = 0) : ring.contents capacity = [] := by
  simp [contents, empty]

theorem slot_ne {head near far : Nat} (below : near < far) (inside : far < capacity) :
    (head + near) % capacity ≠ (head + far) % capacity := by
  intro same
  have positions : near % capacity = far % capacity := ModEq.add_left_cancel' head same
  rw [mod_eq_of_lt (by omega), mod_eq_of_lt inside] at positions
  omega

theorem Bounded.put (bounded : ring.Bounded capacity)
    (room : ring.size < capacity) (v : α) : (ring.put capacity v).Bounded capacity :=
  ⟨bounded.head_lt, room⟩

theorem Bounded.skip (bounded : ring.Bounded capacity) (n : Nat) :
    (ring.skip capacity n).Bounded capacity :=
  ⟨mod_lt _ (zero_lt_of_lt bounded.head_lt), (sub_le _ _).trans bounded.size_le⟩

@[simp] theorem put_size (ring : RingBuffer α) (v : α) :
    (ring.put capacity v).size = ring.size + 1 := rfl

theorem contents_put (room : ring.size < capacity) (v : α) :
    (ring.put capacity v).contents capacity = ring.contents capacity ++ [v] := by
  simp only [contents, put, range_succ, map_append, map_cons, update_self]
  congr 1
  apply map_congr_left
  intro off member
  rw [update_of_ne]
  exact slot_ne (mem_range.mp member) room

theorem contents_skip (ring : RingBuffer α) (n : Nat) :
    (ring.skip capacity n).contents capacity = (ring.contents capacity).drop n := by
  apply ext_getElem
  · simp [skip]
  intro off inside _
  simp only [contents, skip, getElem_map, getElem_range, getElem_drop]
  rw [mod_add_mod, add_assoc]

section Fill

variable {cells : Store α} {tail : Nat} {values : List α}

/-- The array after the values have been written from `tail` on in at most two runs. -/
def fill (capacity : Nat) (cells : Store α) (tail : Nat) (values : List α) : Store α :=
  let first := min (capacity - tail) values.length
  (cells.write tail (values.take first)).write 0 (values.drop first)

theorem fill_cell (inside : tail < capacity) (room : values.length ≤ capacity) {p : Nat}
    {v : α} (found : values[p]? = some v) :
    fill capacity cells tail values ((tail + p) % capacity) = v := by
  have less := (List.getElem?_eq_some_iff.mp found).1
  unfold fill
  by_cases near : tail + p < capacity
  · have written : (values.take (min (capacity - tail) values.length))[p]? = some v := by
      rw [getElem?_take_of_lt (by omega), found]
    rw [mod_eq_of_lt near, write_outside _ (.inr ?_), write_inside _ written]
    simp only [length_drop]
    omega
  have written : (values.drop (min (capacity - tail) values.length))[tail + p - capacity]? =
      some v := by
    rw [getElem?_drop, ← found]
    congr 1
    omega
  have wrapped : (tail + p) % capacity = 0 + (tail + p - capacity) := by
    rw [mod_eq_sub_mod (by omega), mod_eq_of_lt (by omega), zero_add]
  rw [wrapped, write_inside _ written]

theorem fill_other (inside : tail < capacity) {cell : Nat} (bounded : cell < capacity)
    (apart : ∀ p < values.length, (tail + p) % capacity ≠ cell) :
    fill capacity cells tail values cell = cells cell := by
  unfold fill
  rw [write_outside _ (.inr ?_), write_outside]
  · simp only [length_take]
    by_contra within
    refine apart (cell - tail) (by omega) ?_
    rw [mod_eq_of_lt (by omega)]
    omega
  simp only [length_drop]
  by_contra within
  refine apart (capacity - tail + cell) (by omega) ?_
  have round : tail + (capacity - tail + cell) = cell + capacity := by omega
  rw [round, add_mod_right, mod_eq_of_lt bounded]

theorem contents_fill (bounded : ring.Bounded capacity)
    (behind : tail = (ring.head + ring.size) % capacity)
    (room : ring.size + values.length ≤ capacity) :
    ({ ring with
        data := fill capacity ring.data tail values
        size := ring.size + values.length } : RingBuffer α).contents capacity =
      ring.contents capacity ++ values := by
  have headInside := bounded.head_lt
  have inside := behind ▸ mod_lt _ (zero_lt_of_lt headInside)
  have cell (p : Nat) : (ring.head + (ring.size + p)) % capacity =
      (tail + p) % capacity := by
    rw [behind, mod_add_mod, add_assoc]
  apply ext_getElem
  · simp
  intro off less _
  have less : off < ring.size + values.length := by simpa using less
  conv_lhs => simp only [contents, getElem_map, getElem_range]
  by_cases old : off < ring.size
  · rw [getElem_append_left (by simpa using old), fill_other inside
      (mod_lt _ (zero_lt_of_lt headInside)) fun p less' same => ?_]
    · simp [contents, getElem_range]
    rw [← cell] at same
    exact slot_ne (by omega) (by omega) same.symm
  obtain ⟨p, rfl⟩ := Nat.exists_eq_add_of_le (not_lt.mp old)
  have found : values[p]? = some values[p] := getElem?_eq_getElem (by omega)
  rw [cell, fill_cell inside (by omega) found]
  simp

end Fill

section

variable {ring : RingBuffer α} (bounded : ring.Bounded capacity)

include bounded

theorem contents_eq_cons (occupied : 0 < ring.size) :
    ring.contents capacity = ring.data ring.head :: (ring.contents capacity).drop 1 := by
  have first : (ring.contents capacity)[0]? = some (ring.data ring.head) := by
    simp [contents, occupied, mod_eq_of_lt bounded.head_lt]
  cases view : ring.contents capacity with
  | nil => simp [view] at first
  | cons v rest =>
    rw [view] at first
    simp only [getElem?_cons_zero, Option.some.injEq] at first
    rw [first]
    rfl

theorem contents_update_head (occupied : 0 < ring.size) (v : α) :
    ({ ring with data := update ring.data ring.head v } : RingBuffer α).contents capacity =
      v :: (ring.contents capacity).drop 1 := by
  let changed : RingBuffer α := { ring with data := update ring.data ring.head v }
  have split : changed.contents capacity =
      changed.data changed.head :: (changed.contents capacity).drop 1 :=
    contents_eq_cons ⟨bounded.head_lt, bounded.size_le⟩ occupied
  have first : changed.data changed.head = v := update_self _ _ _
  have later : (changed.contents capacity).drop 1 = (ring.contents capacity).drop 1 := by
    rw [← contents_skip, ← contents_skip]
    simp only [contents, skip, changed]
    apply map_congr_left
    intro off member
    rw [update_of_ne]
    have inside : 1 + off < capacity := by
      have := mem_range.mp member
      have := bounded.size_le
      omega
    have away : (ring.head + 0) % capacity ≠ (ring.head + (off + 1)) % capacity :=
      slot_ne (succ_pos off) (by omega)
    rw [add_zero, mod_eq_of_lt bounded.head_lt] at away
    rw [mod_add_mod, add_assoc, add_comm 1 off]
    exact away.symm
  calc changed.contents capacity
      = changed.data changed.head :: (changed.contents capacity).drop 1 := split
    _ = v :: (ring.contents capacity).drop 1 := by rw [first, later]

/-- Two runs, one up to the end of the array and one from its start, are the first `count` cells. -/
theorem read_wrapped {n : Nat} (inside : n ≤ ring.size) :
    ring.data.read ring.head (min (capacity - ring.head) n) ++
        ring.data.read 0 (n - min (capacity - ring.head) n) =
      (ring.contents capacity).take n := by
  have headInside := bounded.head_lt
  have sizeInside := bounded.size_le
  apply ext_getElem?
  intro off
  by_cases near : off < min (capacity - ring.head) n
  · rw [getElem?_append_left (by simpa using near), read_getElem? near,
      getElem?_take_of_lt (by omega)]
    simp only [contents, getElem?_map, getElem?_range (show off < ring.size by omega),
      Option.map_some]
    rw [mod_eq_of_lt (by omega)]
  rw [getElem?_append_right (by simp only [read_length]; omega), read_length]
  by_cases far : off < n
  · rw [read_getElem? (by omega), getElem?_take_of_lt far]
    simp only [contents, getElem?_map,
      getElem?_range (show off < ring.size by omega), Option.map_some]
    rw [mod_eq_sub_mod (by omega), mod_eq_of_lt (by omega)]
    congr 2
    omega
  · rw [getElem?_eq_none (by simp; omega), getElem?_eq_none (by simp; omega)]

end

end RingBuffer

end SrvrOS.Lib
