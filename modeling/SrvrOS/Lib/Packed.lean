import SrvrOS.Lib.Store

/-!
# Packed array prefixes

A table keeps its live entries in the first `count` cells of an array: an insertion shifts larger
entries up, a removal shifts later entries down, and a sweep compacts what it keeps.
-/

namespace SrvrOS.Lib.Packed

open Function List Store

variable {n : Nat}

universe u

variable {α : Type u}

theorem read_succ (live : Store α) : live.read 0 (n + 1) = live.read 0 n ++ [live n] := by
  rw [read_add]
  simp [Store.read]

variable {live : Store α}

theorem read_update_of_le {n p : Nat} (behind : n ≤ p)
    (v : α) : read (update live p v) 0 n = live.read 0 n := by
  apply read_congr
  intro address _ below
  exact update_of_ne (by omega) _ _

section Insert

variable [LT α] [DecidableRel (· < · : α → α → Prop)]

/-- Insert into the first `count` cells, shifting larger entries up from the end. -/
def insert (value : α) : Nat → Store α → Store α
  | 0, live => update live 0 value
  | count + 1, live =>
    if value < live count then
      insert value count (update live (count + 1) (live count))
    else update live (count + 1) value

variable {v : α}

theorem insert_of_lt {n p : Nat} (behind : n < p) : insert v n live p = live p := by
  induction n generalizing live with
  | zero => exact update_of_ne (by omega) _ _
  | succ n ih =>
    unfold insert
    split
    · rw [ih (by omega), update_of_ne (by omega)]
    · exact update_of_ne (by omega) _ _

/-- The prefix splits where the value went: larger entries behind it, and the entry before
it not larger. -/
theorem read_insert (v : α) (n : Nat) (live : Store α) :
    ∃ left right, live.read 0 n = left ++ right ∧
      (insert v n live).read 0 (n + 1) = left ++ v :: right ∧
      (∀ e ∈ right, v < e) ∧ ∀ e, left.getLast? = some e → ¬v < e := by
  induction n generalizing live with
  | zero => exact ⟨[], [], rfl, by simp [insert, Store.read], by simp, by simp⟩
  | succ n ih =>
    unfold insert
    split
    · rename_i larger
      let shifted := update live (n + 1) (live n)
      obtain ⟨left, right, before, after, above, below⟩ := ih shifted
      rw [read_update_of_le (Nat.le_succ n)] at before
      refine ⟨left, right ++ [live n], ?_, ?_, ?_, below⟩
      · rw [read_succ, before, append_assoc]
      · have last : insert v n shifted (n + 1) = live n := by
          rw [insert_of_lt (Nat.lt_succ_self n)]
          exact update_self _ _ _
        rw [read_succ, after, last]
        simp
      intro e member
      rcases mem_append.mp member with old | new
      · exact above e old
      rw [mem_singleton.mp new]
      exact larger
    refine ⟨live.read 0 (n + 1), [], (append_nil _).symm, ?_, by simp, ?_⟩
    · rw [read_succ, read_update_of_le (Nat.le_refl _), update_self]
    intro e last
    rw [read_succ, getLast?_append] at last
    simp only [getLast?_singleton, Option.some_or, Option.some.injEq] at last
    rwa [← last]

end Insert

variable {n : Nat}

theorem mem_read_insert [LT α] [DecidableRel (· < · : α → α → Prop)] {e : α} :
    e ∈ (insert v n live).read 0 (n + 1) ↔
      e = v ∨ e ∈ live.read 0 n := by
  obtain ⟨left, right, before, after, -, -⟩ := read_insert v n live
  rw [before, after]
  simp only [mem_append, mem_cons]
  tauto

theorem pairwise_read_insert [LinearOrder α]
    (increasing : (live.read 0 n).Pairwise (· < ·)) (new : v ∉ live.read 0 n) :
    ((insert v n live).read 0 (n + 1)).Pairwise (· < ·) := by
  obtain ⟨left, right, before, after, above, below⟩ := read_insert v n live
  rw [before] at increasing new
  rw [after]
  obtain ⟨leftIncreasing, rightIncreasing, across⟩ := pairwise_append.mp increasing
  refine pairwise_append.mpr ⟨leftIncreasing,
    pairwise_cons.mpr ⟨above, rightIncreasing⟩, fun e inLeft later member => ?_⟩
  have bounded : e < v := by
    obtain ⟨start, last, rfl⟩ : ∃ start last, left = start ++ [last] :=
      eq_nil_or_concat left |>.elim (fun none => by simp [none] at inLeft)
        fun ⟨start, last, split⟩ => ⟨start, last, by simpa using split⟩
    have lastBelow : last < v := by
      refine lt_of_le_of_ne (not_lt.mp (below last (by simp))) fun same => new ?_
      simp [same]
    rcases mem_append.mp inLeft with inStart | isLast
    · exact lt_trans ((pairwise_append.mp leftIncreasing).2.2 e inStart last (by simp))
        lastBelow
    · rwa [mem_singleton.mp isLast]
  rcases mem_cons.mp member with same | inRight
  · rwa [same]
  · exact across e inLeft later inRight

/-- Shift the entries behind `place` down by one. -/
def removeAt (place count : Nat) (live : Store α) : Store α :=
  (range' (place + 1) (count - (place + 1))).foldl
    (fun shifted i => update shifted (i - 1) (shifted i)) live

theorem removeAt_apply (live : Store α) (p moved index : Nat) :
    (range' (p + 1) moved).foldl
        (fun shifted i => update shifted (i - 1) (shifted i)) live index =
      if p ≤ index ∧ index < p + moved then live (index + 1) else live index := by
  induction moved generalizing index with
  | zero =>
    rw [if_neg (by omega)]
    rfl
  | succ moved ih =>
    rw [range'_1_concat, foldl_append]
    simp only [foldl_cons, foldl_nil]
    by_cases last : index = p + 1 + moved - 1
    · subst last
      rw [update_self, ih]
      rw [if_neg (by omega), if_pos (by omega)]
      congr 1
      omega
    rw [update_of_ne last, ih]
    by_cases inside : p ≤ index ∧ index < p + moved
    · rw [if_pos inside, if_pos (by omega)]
    · rw [if_neg inside, if_neg (by omega)]

theorem read_removeAt {p n : Nat} (inside : p < n) :
    (removeAt p n live).read 0 (n - 1) = (live.read 0 n).eraseIdx p := by
  apply ext_getElem?
  intro index
  by_cases within : index < n - 1
  · rw [read_getElem? within, getElem?_eraseIdx, removeAt, removeAt_apply]
    simp only [Nat.zero_add]
    by_cases before : index < p
    · rw [if_neg (by omega), if_pos before, read_getElem? (by omega), Nat.zero_add]
    · rw [if_pos (by omega), if_neg before, read_getElem? (by omega), Nat.zero_add]
  rw [getElem?_eq_none (by simp; omega), getElem?_eq_none]
  rw [length_eraseIdx_of_lt (by simpa using inside)]
  simp
  omega

/-- One round of a compacting sweep: a kept entry moves behind those already kept. -/
def compactStep (keep : α → Bool) (state : Store α × Nat) (i : Nat) : Store α × Nat :=
  if keep (state.1 i) then (update state.1 state.2 (state.1 i), state.2 + 1) else state

/-- A compacting sweep over the first `count` cells, with the number of kept entries. -/
def compact (keep : α → Bool) (count : Nat) (live : Store α) : Store α × Nat :=
  (range count).foldl (compactStep keep) (live, 0)

theorem compact_succ (keep : α → Bool) (live : Store α) :
    compact keep (n + 1) live = compactStep keep (compact keep n live) n := by
  simp [compact, range_succ]

/-- A sweep keeps exactly the wanted entries in their order. -/
theorem compact_spec (keep : α → Bool) (n : Nat) (live : Store α) :
    (compact keep n live).1.read 0 (compact keep n live).2 =
        (live.read 0 n).filter keep ∧
      (compact keep n live).2 ≤ n ∧
      ∀ index, n ≤ index → (compact keep n live).1 index = live index := by
  induction n with
  | zero => exact ⟨rfl, Nat.le_refl _, fun _ _ => rfl⟩
  | succ n ih =>
    obtain ⟨kept, fewer, untouched⟩ := ih
    rw [compact_succ, compactStep, untouched n (Nat.le_refl _), read_succ]
    cases wanted : keep (live n) with
    | true =>
      simp only [if_true]
      refine ⟨?_, by omega, fun index behind => ?_⟩
      · rw [read_succ, read_update_of_le (Nat.le_refl _), kept]
        simp [wanted]
      · rw [update_of_ne (by omega), untouched index (by omega)]
    | false =>
      simp only [Bool.false_eq_true, if_false]
      refine ⟨?_, by omega, fun index behind => untouched index (by omega)⟩
      simpa [wanted] using kept

end SrvrOS.Lib.Packed
