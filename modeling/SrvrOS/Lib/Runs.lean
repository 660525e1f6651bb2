import Mathlib

/-!
# Runs of free places

A run is an interval of free places; an allocator that is first fit hands out the lowest run at or
above a limit. `Progress` is what any left-to-right scan for a run knows between two places, and
`linearScan` looks at every place.
-/

namespace SrvrOS.Lib.Runs

/-- A run of `count` free places from `start`, all below `bound`. No run is empty. -/
structure RunAt (free : Nat → Bool) (bound count start : Nat) : Prop where
  nonempty : 0 < count
  inside : start + count ≤ bound
  allFree : ∀ place, start ≤ place → place < start + count → free place = true

/-- No run starts in `[lower, upper)`. -/
def NoRun (free : Nat → Bool) (bound count lower upper : Nat) : Prop :=
  ∀ start, lower ≤ start → start < upper → ¬ RunAt free bound count start

/-- `start` begins the lowest run at or above `lower`. -/
structure LowestRun (free : Nat → Bool) (bound count lower start : Nat) : Prop where
  atLeast : lower ≤ start
  run : RunAt free bound count start
  noneBelow : NoRun free bound count lower start

/-- What a scan from `lower` knows before it looks at `place`: the last `length` places
are free and no run starts before them. -/
structure Progress (free : Nat → Bool) (bound count lower place length : Nat) : Prop where
  short : length < count
  within : lower + length ≤ place
  tail : ∀ other, place - length ≤ other → other < place → free other = true
  noneBefore : NoRun free bound count lower (place - length)

variable {free free' : Nat → Bool} {bound n lower p len start upper : Nat}

theorem LowestRun.unique {j : Nat} (left : LowestRun free bound n lower start)
    (right : LowestRun free bound n lower j) : start = j := by
  rcases Nat.lt_trichotomy start j with old | same | after
  · exact (right.noneBelow start left.atLeast old left.run).elim
  · exact same
  · exact (left.noneBelow j right.atLeast after right.run).elim

theorem LowestRun.of_floor {floor : Nat} (found : LowestRun free bound n floor start)
    (below : lower ≤ floor) (none : NoRun free bound n lower floor) :
    LowestRun free bound n lower start where
  atLeast := below.trans found.atLeast
  run := found.run
  noneBelow := by
    intro j atLeast old
    by_cases early : j < floor
    · exact none j atLeast early
    · exact found.noneBelow j (by omega) old

theorem NoRun.mono (none : NoRun free bound n lower upper)
    (fewer : ∀ p, free' p = true → free p = true) :
    NoRun free' bound n lower upper := by
  intro start atLeast old run
  exact none start atLeast old
    ⟨run.nonempty, run.inside, fun p lo hi => fewer p (run.allFree p lo hi)⟩

theorem NoRun.of_used (used : ∀ p, lower ≤ p → p < upper → p < bound → free p = false) :
    NoRun free bound n lower upper := by
  intro start atLeast old run
  have ne := run.nonempty
  have inside := run.inside
  have isFree := run.allFree start le_rfl (by omega)
  rw [used start atLeast old (by omega)] at isFree
  exact Bool.false_ne_true isFree

namespace Progress

theorem start_scan (ne : 0 < n) : Progress free bound n lower lower 0 where
  short := ne
  within := le_rfl
  tail := by intro j lo hi; omega
  noneBefore := by intro start lo hi; omega

section

variable (progress : Progress free bound n lower p len)

include progress

theorem free_place (isFree : free p = true) (short : len + 1 < n) :
    Progress free bound n lower (p + 1) (len + 1) where
  short := short
  within := by have := progress.within; omega
  tail := by
    intro j lo hi
    by_cases last : j = p
    · rw [last]; exact isFree
    · exact progress.tail j (by omega) (by omega)
  noneBefore := by
    rw [Nat.add_sub_add_right]
    exact progress.noneBefore

theorem used_places {skipped : Nat} (ne : 0 < skipped)
    (used : ∀ j, p ≤ j → j < p + skipped → free j = false) :
    Progress free bound n lower (p + skipped) 0 where
  short := (Nat.zero_le _).trans_lt progress.short
  within := by have := progress.within; omega
  tail := by intro j lo hi; omega
  noneBefore := by
    intro start atLeast old run
    have short := progress.short
    by_cases early : start < p - len
    · exact progress.noneBefore start atLeast early run
    have crossed : ∃ j, start ≤ j ∧ j < start + n ∧
        p ≤ j ∧ j < p + skipped := by
      by_cases inTail : start < p
      · exact ⟨p, by omega, by omega, by omega, by omega⟩
      · exact ⟨start, by omega, by omega, by omega, by omega⟩
    obtain ⟨j, fromStart, inRun, fromPlace, inSkipped⟩ := crossed
    have isFree := run.allFree j fromStart inRun
    rw [used j fromPlace inSkipped] at isFree
    exact Bool.false_ne_true isFree

/-- The place that completes the tail to `count` places ends the lowest run. -/
theorem found (isFree : free p = true) (full : len + 1 = n) (inside : p < bound) :
    LowestRun free bound n lower (p - len) := by
  have within := progress.within
  refine ⟨by omega, ⟨by omega, by omega, ?_⟩, progress.noneBefore⟩
  intro j lo hi
  by_cases last : j = p
  · rw [last]; exact isFree
  · exact progress.tail j lo (by omega)

theorem exhausted (ended : bound ≤ p) (upper : Nat) : NoRun free bound n lower upper := by
  intro start atLeast _ run
  by_cases early : start < p - len
  · exact progress.noneBefore start atLeast early run
  have short := progress.short
  have inside := run.inside
  omega

end

end Progress

/-- The scan that looks at the next `left` places one by one. -/
def linearScan (free : Nat → Bool) (count : Nat) : Nat → Nat → Nat → Option Nat
  | 0, _, _ => none
  | left + 1, place, length =>
    if free place then
      if length + 1 = count then some (place - length)
      else linearScan free count left (place + 1) (length + 1)
    else linearScan free count left (place + 1) 0

/-- The lowest run at or above `lower`, by looking at every place. -/
def linearFit (free : Nat → Bool) (bound count lower : Nat) : Option Nat :=
  if count = 0 then none else linearScan free count (bound - lower) lower 0

theorem linearScan_spec {left : Nat} (progress : Progress free bound n lower p len)
    (enough : bound - p = left) :
    match linearScan free n left p len with
    | some start => LowestRun free bound n lower start
    | none => ∀ upper, NoRun free bound n lower upper := by
  induction left generalizing p len with
  | zero => exact progress.exhausted (by omega)
  | succ left ih =>
    rw [linearScan]
    by_cases isFree : free p = true
    · rw [if_pos isFree]
      by_cases full : len + 1 = n
      · rw [if_pos full]
        exact progress.found isFree full (by omega)
      rw [if_neg full]
      have short := progress.short
      exact ih (progress.free_place isFree (by omega)) (by omega)
    rw [if_neg isFree]
    refine ih (progress.used_places (by decide) ?_) (by omega)
    intro j lo hi
    have same : j = p := by omega
    rw [same]
    exact Bool.eq_false_of_not_eq_true isFree

theorem linearFit_spec (free : Nat → Bool) (bound n lower : Nat) :
    match linearFit free bound n lower with
    | some start => LowestRun free bound n lower start
    | none => ∀ upper, NoRun free bound n lower upper := by
  rw [linearFit]
  by_cases empty : n = 0
  · rw [if_pos empty]
    intro upper start _ _ run
    exact run.nonempty.ne' empty
  · rw [if_neg empty]
    exact linearScan_spec (Progress.start_scan (Nat.pos_of_ne_zero empty)) rfl

theorem linearFit_eq_some (found : LowestRun free bound n lower start) :
    linearFit free bound n lower = some start := by
  have spec := linearFit_spec free bound n lower
  cases a : linearFit free bound n lower with
  | none =>
    rw [a] at spec
    exact (spec (start + 1) start found.atLeast (Nat.lt_succ_self _) found.run).elim
  | some j =>
    rw [a] at spec
    rw [spec.unique found]

theorem linearFit_eq_none (none : ∀ upper, NoRun free bound n lower upper) :
    linearFit free bound n lower = .none := by
  have spec := linearFit_spec free bound n lower
  cases a : linearFit free bound n lower with
  | none => rfl
  | some j =>
    rw [a] at spec
    exact (none (j + 1) j spec.atLeast (Nat.lt_succ_self _) spec.run).elim

/-! ## Counting free places -/

/-- The free places below `bound`. -/
def freeBelow (free : Nat → Bool) (bound : Nat) : Nat := Nat.count (fun place => free place) bound

theorem RunAt.count_le (run : RunAt free bound n start) : n ≤ freeBelow free bound := by
  have inside := run.inside
  have inRun : Nat.count (fun p => free (start + p)) n = n := by
    apply Nat.count_iff_forall.mpr
    intro p small
    exact run.allFree _ (by omega) (by omega)
  calc n = Nat.count (fun p => free (start + p)) n := inRun.symm
    _ ≤ Nat.count (fun p => free p) start +
          Nat.count (fun p => free (start + p)) n := Nat.le_add_left _ _
    _ = Nat.count (fun p => free p) (start + n) := (Nat.count_add _ _ _).symm
    _ ≤ freeBelow free bound := Nat.count_monotone _ inside

theorem freeBelow_next :
    freeBelow free (bound + 1) = freeBelow free bound + (free bound).toNat := by
  rw [freeBelow, Nat.count_succ]
  cases free bound <;> rfl

theorem freeBelow_congr (same : ∀ p, p < bound → free' p = free p) :
    freeBelow free' bound = freeBelow free bound := by
  induction bound with
  | zero => rfl
  | succ bound ih =>
    rw [freeBelow_next, freeBelow_next, same bound (by omega),
      ih fun p small => same p (by omega)]

theorem freeBelow_eq_zero (used : ∀ p, p < bound → free p = false) : freeBelow free bound = 0 := by
  have none : ∀ p, p < bound → ¬ (fun p => free p = true) p :=
    fun p small => by simp [used p small]
  exact Nat.count_iff_forall_not.mpr none

theorem freeBelow_change (inside : p < bound) (same : ∀ j, j ≠ p → free' j = free j) :
    freeBelow free' bound + (free p).toNat = freeBelow free bound + (free' p).toNat := by
  induction bound with
  | zero => omega
  | succ bound ih =>
    rw [freeBelow_next, freeBelow_next]
    rcases eq_or_ne bound p with rfl | apart
    · rw [freeBelow_congr fun j small => same j (by omega)]
      omega
    · rw [same bound apart]
      omega

end SrvrOS.Lib.Runs
