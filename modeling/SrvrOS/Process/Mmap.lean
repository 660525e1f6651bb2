import Mathlib

/-!
# Placing a mapping

`mmap_find_free_range` starts at a cursor in the window that `mmap` serves, jumps over the regions
in the way and starts once more at the bottom. Regions lie in the window, so that no sum leaves 64
bits.
-/

namespace SrvrOS.Process

open List

def pageSize : Nat := 4096

def userMmapBase : Nat := 0x10000000

def userMmapLimit : Nat := 0x70000000

def pageUp (value : Nat) : Nat := (value + pageSize - 1) / pageSize * pageSize

/-- `struct process_mmap_region`, without the flag for anonymous memory. -/
structure MmapRegion where
  used : Bool
  base : Nat
  length : Nat

def MmapRegion.stop (region : MmapRegion) : Nat := region.base + region.length

/-- The region is in the way of `length` bytes at the cursor. -/
abbrev MmapRegion.Blocks (region : MmapRegion) (length cursor : Nat) : Prop :=
  region.used = true ∧ cursor < region.stop ∧ cursor + length > region.base

variable (regions : List MmapRegion) (length : Nat)

/-- The furthest end of a region in the way at the cursor. -/
def mmapSkip (cursor : Nat) : Nat :=
  regions.foldl (fun next region =>
    if region.Blocks length cursor ∧ next < region.stop then region.stop else next) cursor

/-- One pass, which gives up without an answer after `rounds` rounds. -/
def mmapPass (stop : Nat) : Nat → Nat → Option (Option Nat)
  | 0, _ => none
  | rounds + 1, cursor =>
    if cursor < stop ∧ length ≤ userMmapLimit - cursor then
      if mmapSkip regions length cursor = cursor then some (some cursor)
      else mmapPass stop rounds (mmapSkip regions length cursor)
    else some none

def mmapStart (mmapNext hint : Nat) : Nat :=
  if userMmapBase ≤ hint ∧ hint < userMmapLimit then pageUp hint
  else if userMmapBase ≤ mmapNext ∧ mmapNext < userMmapLimit then pageUp mmapNext
  else userMmapBase

/-- The inner `none` is the source's -1. -/
def mmapFindFreeRange (rounds mmapNext hint : Nat) : Option (Option Nat) :=
  if length = 0 ∨ userMmapLimit - userMmapBase < length then some none
  else do
    match ← mmapPass regions length userMmapLimit rounds (mmapStart mmapNext hint) with
    | some base => return some base
    | none => mmapPass regions length (mmapStart mmapNext hint) rounds userMmapBase

/-- The bytes at `base` are in the window and overlap no region. -/
structure Placeable (base : Nat) : Prop where
  aligned : pageSize ∣ base
  low : userMmapBase ≤ base
  high : base + length ≤ userMmapLimit
  clear : ∀ region ∈ regions, region.used = true →
    base + length ≤ region.base ∨ region.stop ≤ base

/-- The lowest base from the cursor up to `stop`, if there is one. -/
structure Lowest (cursor stop : Nat) (answer : Option Nat) : Prop where
  sound : ∀ base ∈ answer, Placeable regions length base ∧ cursor ≤ base ∧ base < stop
  least : ∀ other, Placeable regions length other → cursor ≤ other → other < stop →
    ∃ base ∈ answer, base ≤ other

def ahead (cursor : Nat) : Nat :=
  regions.countP fun region => region.used && decide (cursor < region.stop)

variable {regions length} {cursor stop rounds : Nat}

theorem mmapSkip_le_iff {bound : Nat} : mmapSkip regions length cursor ≤ bound ↔
    cursor ≤ bound ∧ ∀ region ∈ regions, region.Blocks length cursor → region.stop ≤ bound := by
  unfold mmapSkip
  induction regions using reverseRecOn with
  | nil => simp
  | append_singleton before last ih =>
    rw [foldl_concat, forall_mem_append, forall_mem_singleton, ← and_assoc, ← ih]
    by_cases bs : last.Blocks length cursor
    · rw [forall_prop_of_true bs, if_congr (and_iff_right bs) rfl rfl]
      split <;> omega
    · rw [forall_prop_of_false bs, and_true, if_neg fun both => bs both.1]

theorem mmapSkip_moves (moves : mmapSkip regions length cursor ≠ cursor) :
    cursor < mmapSkip regions length cursor ∧
      ahead regions (mmapSkip regions length cursor) < ahead regions cursor := by
  obtain ⟨atLeast, behind⟩ := mmapSkip_le_iff.mp (le_refl (mmapSkip regions length cursor))
  have blocked : ∃ region ∈ regions, region.Blocks length cursor := by
    by_contra clear
    refine moves (le_antisymm (mmapSkip_le_iff.mpr ⟨le_rfl, ?_⟩) atLeast)
    exact fun region mem bs => absurd ⟨region, mem, bs⟩ clear
  obtain ⟨region, mem, bs⟩ := blocked
  have passed := behind region mem bs
  have fewer (table : List MmapRegion) :
      ahead table (mmapSkip regions length cursor) ≤ ahead table cursor := by
    refine countP_mono_left fun other _ further => ?_
    rw [Bool.and_eq_true, decide_eq_true_eq] at further ⊢
    exact ⟨further.1, atLeast.trans_lt further.2⟩
  refine ⟨lt_of_le_of_ne atLeast moves.symm, ?_⟩
  obtain ⟨before, after, rfl⟩ := append_of_mem mem
  rw [ahead, ahead, countP_append, countP_append, countP_cons_of_neg (by simp [passed]),
    countP_cons_of_pos (by simp [bs])]
  exact Nat.add_lt_add_of_le_of_lt (fewer before) (Nat.lt_succ_of_le (fewer after))

/-- A pass ends within a round for each region ahead and one more, with the lowest base. -/
theorem mmapPass_spec (paged : ∀ region ∈ regions, region.used = true → pageSize ∣ region.stop)
    (inside : stop ≤ userMmapLimit) (aligned : pageSize ∣ cursor) (low : userMmapBase ≤ cursor)
    (enough : ahead regions cursor < rounds) :
    ∃ a, mmapPass regions length stop rounds cursor = some a ∧
      Lowest regions length cursor stop a := by
  induction rounds generalizing cursor with
  | zero => exact absurd enough (Nat.not_lt_zero _)
  | succ rounds ih =>
    rw [mmapPass]
    split
    next within =>
      split
      next stays =>
        refine ⟨some cursor, rfl, ?_, fun other _ atLeast _ => ⟨cursor, rfl, atLeast⟩⟩
        rintro _ ⟨⟩
        refine ⟨⟨aligned, low, by omega, fun region mem used => ?_⟩, le_rfl, within.1⟩
        by_contra overlaps
        have ends := (mmapSkip_le_iff.mp stays.le).2 region mem ⟨used, by omega, by omega⟩
        omega
      next moves =>
        obtain ⟨further, fewer⟩ := mmapSkip_moves moves
        have paged' : pageSize ∣ mmapSkip regions length cursor := by
          refine foldlRecOn regions _ aligned fun next ih region mem => ?_
          split
          next bs => exact paged region mem bs.1.1
          next => exact ih
        obtain ⟨a, found, lowest⟩ := ih paged' (by omega) (by omega)
        refine ⟨a, found, fun base mem => ?_, fun other placeable atLeast below => ?_⟩
        · obtain ⟨placeable, above, below⟩ := lowest.sound base mem
          exact ⟨placeable, by omega, below⟩
        refine lowest.least other placeable (mmapSkip_le_iff.mpr ⟨atLeast, ?_⟩) below
        intro region mem bs
        have apart := placeable.clear region mem bs.1
        omega
    next outside =>
      refine ⟨none, rfl, by simp, fun other placeable atLeast below => ?_⟩
      have high := placeable.high
      omega

theorem mmapStart_spec {mmapNext hint : Nat} : pageSize ∣ mmapStart mmapNext hint ∧
    userMmapBase ≤ mmapStart mmapNext hint ∧ mmapStart mmapNext hint ≤ userMmapLimit := by
  unfold mmapStart pageUp userMmapBase userMmapLimit pageSize
  repeat' split
  all_goals omega

/-- The search ends with the lowest base from its start on, else with the lowest one below, and with
none exactly if there is none. No bytes are refused. -/
theorem mmapFindFreeRange_lowest
    (paged : ∀ region ∈ regions, region.used = true → pageSize ∣ region.stop)
    (enough : regions.countP (·.used) < rounds) (mmapNext hint : Nat) :
    (length = 0 → mmapFindFreeRange regions length rounds mmapNext hint = some none) ∧
    (length ≠ 0 → ∃ answer, mmapFindFreeRange regions length rounds mmapNext hint = some answer ∧
      (answer = none ↔ ∀ base, ¬Placeable regions length base) ∧
      ((answer ≠ none ∧ Lowest regions length (mmapStart mmapNext hint) userMmapLimit answer) ∨
        (Lowest regions length (mmapStart mmapNext hint) userMmapLimit none ∧
          Lowest regions length userMmapBase (mmapStart mmapNext hint) answer))) := by
  refine ⟨fun empty => if_pos (.inl empty), fun some_ => ?_⟩
  obtain ⟨aligned, low, inside⟩ := mmapStart_spec
  have rounds_ (cursor : Nat) : ahead regions cursor < rounds := by
    refine Nat.lt_of_le_of_lt (countP_mono_left fun region _ further => ?_) enough
    exact (Bool.and_eq_true_iff.mp further).1
  unfold mmapFindFreeRange
  split
  next long =>
    have nowhere (base : Nat) : ¬Placeable regions length base := by
      intro placeable
      have low := placeable.low
      have high := placeable.high
      omega
    have lowest (cursor stop : Nat) : Lowest regions length cursor stop none :=
      ⟨nofun, fun base placeable => absurd placeable (nowhere base)⟩
    exact ⟨none, rfl, by simp [nowhere], .inr ⟨lowest _ _, lowest _ _⟩⟩
  next fits =>
    obtain ⟨first, found, lowest⟩ := mmapPass_spec paged le_rfl aligned low (rounds_ _)
    rw [found]
    cases first with
    | some base =>
      obtain ⟨placeable, -⟩ := lowest.sound base rfl
      exact ⟨some base, rfl, by simpa using ⟨base, placeable⟩, .inl ⟨by simp, lowest⟩⟩
    | none =>
      obtain ⟨answer, found', lowest'⟩ := mmapPass_spec paged inside (by decide) le_rfl (rounds_ _)
      refine ⟨answer, found', ⟨?_, ?_⟩, .inr ⟨lowest, lowest'⟩⟩
      · rintro rfl base placeable
        have high := placeable.high
        by_cases below : base < mmapStart mmapNext hint
        · simpa using lowest'.least base placeable placeable.low below
        · simpa using lowest.least base placeable (by omega) (by omega)
      intro nowhere
      by_contra something
      obtain ⟨base, rfl⟩ := Option.ne_none_iff_exists'.mp something
      exact nowhere base (lowest'.sound base rfl).1

/-- A page behind a region at the bottom of the window. -/
theorem mmapFindFreeRange_lowest_sample :
    ∃ answer, mmapFindFreeRange [⟨true, userMmapBase, pageSize⟩] pageSize 2 0 0 = some answer ∧
      (answer = none ↔ ∀ base, ¬Placeable [⟨true, userMmapBase, pageSize⟩] pageSize base) := by
  obtain ⟨answer, found, none_iff, -⟩ := (@mmapFindFreeRange_lowest
    [⟨true, userMmapBase, pageSize⟩] pageSize 2 (by decide) (by decide) 0 0).2 (by decide)
  exact ⟨answer, found, none_iff⟩

/-- No bytes fit everywhere, but the search refuses them. -/
theorem mmapFindFreeRange_nothing :
    mmapFindFreeRange [] 0 1 0 0 = some none ∧ Placeable [] 0 userMmapBase :=
  ⟨rfl, by decide, by decide, by decide, by simp⟩

end SrvrOS.Process
