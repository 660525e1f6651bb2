import SrvrOS.Lib.Store

/-!
# Editing a text held in a store

A text is kept at the start of a store, next to its length. Cells past the length may hold
anything, so an operation that makes the text longer first fills the cells that it reveals.
-/

namespace SrvrOS.Lib

open List

variable {len size : Nat}

universe u

variable {β : Type u}

/-- Cut a text to a length, or extend it with a filler. -/
def resize (fill : β) (text : List β) (length : Nat) : List β :=
  text.take length ++ replicate (length - text.length) fill

/-- Replace the part of a text from a position on; the text grows when it has to. -/
def overwrite (fill : β) (text : List β) (position : Nat) (values : List β) : List β :=
  resize fill text position ++ values ++ text.drop (position + values.length)

/-- At most `length` cells of a text from an offset on. -/
def slice (text : List β) (offset length : Nat) : List β := (text.drop offset).take length

@[simp] theorem length_resize (fill : β) (text : List β) : (resize fill text len).length = len := by
  simp only [resize, length_append, length_take, length_replicate]
  omega

theorem resize_getElem? {fill : β} {text : List β} {len p : Nat} (inside : p < len) :
    (resize fill text len)[p]? = some (text[p]?.getD fill) := by
  by_cases within : p < text.length
  · rw [resize, List.getElem?_append_left (by simp; omega), List.getElem?_take_of_lt inside]
    simp [within]
  rw [resize, List.getElem?_append_right (by simp; omega),
    List.getElem?_eq_none (Nat.le_of_not_lt within), List.getElem?_replicate, if_pos]
  · rfl
  simp only [length_take]
  omega

namespace Store

/-- Fill the cells from `start` up to `stop`. -/
def clear (store : Store β) (fill : β) (start stop : Nat) : Store β := fun address =>
  if start ≤ address ∧ address < stop then fill else store address

theorem read_slice (store : Store β) (offset : Nat) :
    store.read offset (min len (size - offset)) = slice (store.read 0 size) offset len := by
  by_cases inside : offset ≤ size
  · rw [slice, read_drop store inside, Nat.zero_add]
    by_cases short : len ≤ size - offset
    · rw [Nat.min_eq_left short, read_take store short]
    · rw [Nat.min_eq_right (by omega), take_of_length_le (by simp; omega)]
  · rw [slice, drop_eq_nil_of_le (by simp; omega), Nat.sub_eq_zero_of_le (by omega)]
    simp [read]

theorem read_clear (store : Store β) (fill : β) :
    (store.clear fill size len).read 0 len = resize fill (store.read 0 size) len := by
  apply ext_getElem?
  intro p
  by_cases inside : p < len
  · rw [read_getElem? inside, resize_getElem? inside, Nat.zero_add]
    by_cases within : p < size
    · rw [read_getElem? within, clear, if_neg (by omega), Nat.zero_add]
      rfl
    · rw [List.getElem?_eq_none (by simpa using within), clear, if_pos ⟨by omega, inside⟩]
      rfl
  · rw [List.getElem?_eq_none (by simpa using inside),
      List.getElem?_eq_none (by simpa using inside)]

theorem read_overwrite (store : Store β) (fill : β) (position : Nat) (values : List β) :
    ((store.clear fill size position).write position values).read 0
        (max size (position + values.length)) =
      overwrite fill (store.read 0 size) position values := by
  obtain ⟨rest, total⟩ := Nat.exists_eq_add_of_le (Nat.le_max_right size (position + values.length))
  rw [total, read_add, read_add, read_write_disjoint _ (by omega), read_clear,
    Nat.zero_add, read_write_same]
  congr 1
  by_cases longer : position + values.length ≤ size
  · rw [read_write_disjoint _ (by omega), read_drop store longer,
      show rest = size - (position + values.length) by omega]
    refine read_congr fun address lower upper => ?_
    rw [clear, if_neg (by omega)]
  · rw [show rest = 0 by omega, drop_eq_nil_of_le (by simp; omega)]
    rfl

end Store

end SrvrOS.Lib
