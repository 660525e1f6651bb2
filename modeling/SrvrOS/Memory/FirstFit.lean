import SrvrOS.Memory.Pmm

/-!
# The hinted frame search is first fit

No frame between the minimum and the floor of a search hint is free, and no run of a run hint's
length starts between its minimum and its floor. Allocation keeps hints sound; a release rewinds
each hint past every run the released frames could complete.
-/

namespace SrvrOS.Memory

open Lib Runs Function Option Nat List Pmm SearchHint

variable {lower firstFree minimumFrame n bound : Nat} {after : Pmm}

/-- No frame from the minimum up to the floor is free. -/
def SearchHint.Sound (free : Nat → Bool) (bound : Nat) (hint : SearchHint) : Prop :=
  hint.valid = true → hint.minimum ≤ hint.floor ∧
    ∀ frame, hint.minimum ≤ frame → frame < hint.floor → frame < bound → free frame = false

/-- No run of the hint's length starts from the minimum up to the floor. -/
def RunHint.Sound (free : Nat → Bool) (bound : Nat) (hint : RunHint) : Prop :=
  hint.valid = true → hint.minimum ≤ hint.floor ∧ 0 < hint.count ∧
    NoRun free bound hint.count hint.minimum hint.floor

theorem RunHint.Sound.mono {free free' : Nat → Bool} {hint : RunHint}
    (sound : hint.Sound free bound) (fewer : ∀ f, free' f = true → free f = true) :
    hint.Sound free' bound := by
  intro valid
  obtain ⟨ordered, pos, none⟩ := sound valid
  exact ⟨ordered, pos, none.mono fewer⟩

/-- A search hint as a hint for runs of one frame. -/
def SearchHint.asRun (hint : SearchHint) : RunHint :=
  { minimum := hint.minimum, count := 1, floor := hint.floor, valid := hint.valid }

theorem SearchHint.sound_iff {free : Nat → Bool} {hint : SearchHint} :
    hint.Sound free bound ↔ hint.asRun.Sound free bound := by
  constructor
  · intro sound valid
    exact ⟨(sound valid).1, one_pos, NoRun.of_used (sound valid).2⟩
  intro sound valid
  obtain ⟨ordered, -, none⟩ := sound valid
  refine ⟨ordered, fun f lo hi inside => Bool.eq_false_iff.mpr fun isFree => ?_⟩
  refine none f lo hi ⟨one_pos, inside, fun j above below => ?_⟩
  have same : j = f := by
    simp only [asRun] at below
    omega
  rwa [same]

namespace Pmm

/-- The free counter is the number of clear bits, and every frame has a 64-bit address. -/
structure Counted (pmm : Pmm) : Prop where
  bounded : pmm.frameCount ≤ 2 ^ 52
  counted : pmm.freeCount = freeBelow pmm.isFree pmm.frameCount

/-- What holds between calls. -/
structure Inv (pmm : Pmm) : Prop extends Counted pmm where
  search : ∀ slot, slot < hintCount → (pmm.searchHints slot).Sound pmm.isFree pmm.frameCount
  runs : ∀ slot, slot < hintCount → (pmm.runHints slot).Sound pmm.isFree pmm.frameCount

variable {pmm : Pmm}

/-! ## Marking frames -/

section Marking

variable (pmm : Pmm) (used : Bool) (tag : FrameTag) (f : Nat)

@[simp] theorem setFrameTag_kept :
    (pmm.setFrameTag f tag).bitmap = pmm.bitmap ∧
      (pmm.setFrameTag f tag).frameCount = pmm.frameCount ∧
      (pmm.setFrameTag f tag).freeCount = pmm.freeCount ∧
      (pmm.setFrameTag f tag).searchHints = pmm.searchHints ∧
      (pmm.setFrameTag f tag).runHints = pmm.runHints := by
  unfold setFrameTag
  split <;> exact ⟨rfl, rfl, rfl, rfl, rfl⟩

@[simp] theorem markFrame_kept :
    (pmm.markFrame used tag f).frameCount = pmm.frameCount ∧
      (pmm.markFrame used tag f).searchHints = pmm.searchHints ∧
      (pmm.markFrame used tag f).runHints = pmm.runHints := by
  cases used <;> simp [markFrame, bitmapSet]

theorem isFree_markFrame (j : Nat) :
    (pmm.markFrame used tag f).isFree j =
      if j = f then !used else pmm.isFree j := by
  by_cases same : j = f <;> cases used <;>
    simp [isFree, bitmapGet, markFrame, bitmapSet, Bitmap.get_setBit, Bitmap.get_clearBit]

theorem markFrame_freeCount :
    (pmm.markFrame used tag f).freeCount = (pmm.bitmapSet f used).freeCount := by
  simp [markFrame]

end Marking

variable {f : Nat} {tag : FrameTag}

theorem Counted.markFrame (counted : Counted pmm) {used : Bool}
    (inside : f < pmm.frameCount) : Counted (pmm.markFrame used tag f) where
  bounded := by simpa using counted.bounded
  counted := by
    have change := freeBelow_change inside fun j different =>
      (pmm.isFree_markFrame used tag f j).trans (if_neg different)
    rw [isFree_markFrame, ← counted.counted] at change
    rw [markFrame_freeCount, bitmapSet]
    cases used <;> cases wasUsed : pmm.bitmapGet f <;>
      simp [isFree] at change ⊢ <;> grind

section MarkFrames

variable (used : Bool) (tag : FrameTag)

@[simp] theorem markFrames_kept (f : Nat) :
    (markFrames used tag n f pmm).frameCount = pmm.frameCount ∧
      (markFrames used tag n f pmm).searchHints = pmm.searchHints ∧
      (markFrames used tag n f pmm).runHints = pmm.runHints := by
  induction n generalizing f pmm with
  | zero => exact ⟨rfl, rfl, rfl⟩
  | succ n ih => simp [markFrames, ih]

theorem isFree_markFrames (n f : Nat) (pmm : Pmm) (j : Nat) :
    (markFrames used tag n f pmm).isFree j =
      if f ≤ j ∧ j < f + n then !used else pmm.isFree j := by
  induction n generalizing f pmm with
  | zero => rw [if_neg (by omega)]; rfl
  | succ n ih =>
    rw [markFrames, ih, isFree_markFrame]
    by_cases later : f + 1 ≤ j ∧ j < f + 1 + n
    · rw [if_pos later, if_pos (by omega)]
    rw [if_neg later]
    by_cases here : j = f
    · rw [if_pos here, if_pos (by omega)]
    · rw [if_neg here, if_neg (by omega)]

variable {n f : Nat}

theorem Counted.markFrames {pmm : Pmm} (counted : Counted pmm)
    (inside : f + n ≤ pmm.frameCount) : Counted (markFrames used tag n f pmm) := by
  induction n generalizing f pmm with
  | zero => exact counted
  | succ n ih =>
    exact ih (counted.markFrame (by omega)) (by simp only [markFrame_kept]; omega)

end MarkFrames

/-! ## Hints under a change of the bitmap -/

theorem Inv.markUsed (inv : Inv pmm) (tag : FrameTag)
    (inside : f + n ≤ pmm.frameCount) : Inv (markFrames true tag n f pmm) := by
  have fewer : ∀ j, (markFrames true tag n f pmm).isFree j = true →
      pmm.isFree j = true := by
    intro j now
    rw [isFree_markFrames] at now
    split at now
    · simp at now
    · exact now
  refine ⟨inv.toCounted.markFrames true tag inside, fun s small => ?_, fun s small => ?_⟩
  · rw [sound_iff]
    simpa using (sound_iff.mp (inv.search s small)).mono fewer
  · simpa using (inv.runs s small).mono fewer

theorem every_update {Hint : Type} {hints : Store Hint} {sound : Hint → Prop} {s : Nat}
    {new : Hint} (old : ∀ j, j < hintCount → sound (hints j)) (holds : sound new) :
    ∀ j, j < hintCount → sound (update hints s new j) :=
  (forall_update_iff hints fun j hint => j < hintCount → sound hint).mpr
    ⟨fun _ => holds, fun j _ => old j⟩

variable {s floor : Nat}

theorem Inv.setSearchFloor (inv : Inv pmm) (ordered : (pmm.searchHints s).minimum ≤ floor)
    (none : ∀ f, (pmm.searchHints s).minimum ≤ f → f < floor →
      f < pmm.frameCount → pmm.isFree f = false) : Inv (pmm.setSearchFloor s floor) := by
  exact ⟨⟨inv.bounded, inv.counted⟩, every_update inv.search fun _ => ⟨ordered, none⟩, inv.runs⟩

theorem Inv.setRunFloor (inv : Inv pmm) (ordered : (pmm.runHints s).minimum ≤ floor)
    (pos : 0 < (pmm.runHints s).count)
    (none : NoRun pmm.isFree pmm.frameCount (pmm.runHints s).count (pmm.runHints s).minimum floor) :
    Inv (pmm.setRunFloor s floor) := by
  exact ⟨⟨inv.bounded, inv.counted⟩, inv.search,
    every_update inv.runs fun _ => ⟨ordered, pos, none⟩⟩

/-! ## Selecting hints -/

/-- Selection leaves the bitmap alone and returns a valid hint for the minimum. -/
structure SearchSelected (pmm : Pmm) (minimum slot : Nat) (after : Pmm) : Prop where
  small : slot < hintCount
  valid : (after.searchHints slot).valid = true
  minimum_eq : (after.searchHints slot).minimum = minimum
  inv : Inv after
  bitmap : after.bitmap = pmm.bitmap
  frameCount : after.frameCount = pmm.frameCount

theorem selectSearchHint_spec (inv : Inv pmm) (minimum : Nat) :
    SearchSelected pmm minimum (pmm.selectSearchHint minimum).1
      (pmm.selectSearchHint minimum).2 := by
  rw [selectSearchHint]
  split
  · next s hit =>
    have isHint := find?_some hit
    have member := mem_of_find?_eq_some hit
    simp only [Bool.and_eq_true, beq_iff_eq] at isHint
    exact ⟨mem_range.mp member, isHint.1, isHint.2, inv, rfl, rfl⟩
  have small : pmm.nextSearchHint % hintCount < hintCount := mod_lt _ (by decide)
  refine ⟨small, by simp, by simp, ⟨⟨inv.bounded, inv.counted⟩, every_update inv.search ?_,
    inv.runs⟩, rfl, rfl⟩
  exact fun _ => ⟨le_rfl, fun f lo hi => absurd lo (not_le.mpr hi)⟩

/-- As `SearchSelected`, for the run hints; the search hints stay. -/
structure RunSelected (pmm : Pmm) (minimum count slot : Nat) (after : Pmm) : Prop where
  small : slot < hintCount
  valid : (after.runHints slot).valid = true
  minimum_eq : (after.runHints slot).minimum = minimum
  count_eq : (after.runHints slot).count = count
  inv : Inv after
  bitmap : after.bitmap = pmm.bitmap
  frameCount : after.frameCount = pmm.frameCount
  searchHints : after.searchHints = pmm.searchHints

theorem selectRunHint_spec (inv : Inv pmm) (minimum : Nat) {n : Nat} (pos : 0 < n) :
    RunSelected pmm minimum n (pmm.selectRunHint minimum n).1
      (pmm.selectRunHint minimum n).2 := by
  rw [selectRunHint]
  split
  · next s hit =>
    have isHint := find?_some hit
    have member := mem_of_find?_eq_some hit
    simp only [Bool.and_eq_true, beq_iff_eq] at isHint
    exact ⟨mem_range.mp member, isHint.1.1, isHint.1.2, isHint.2, inv, rfl, rfl, rfl⟩
  have small : pmm.nextRunHint % hintCount < hintCount := mod_lt _ (by decide)
  refine ⟨small, by simp, by simp, by simp, ⟨⟨inv.bounded, inv.counted⟩, inv.search,
    every_update inv.runs ?_⟩, rfl, rfl, rfl⟩
  exact fun _ => ⟨le_rfl, pos, fun start lo hi => absurd lo (not_le.mpr hi)⟩

/-! ## The search loop -/

/-- What the loop knows about the first free frame at or above `lower` when it has seen
the frames before `frame`. -/
structure FirstSeen (pmm : Pmm) (lower frame firstFree : Nat) : Prop where
  unmet : firstFree = pmm.frameCount → ∀ other, lower ≤ other → other < frame →
    other < pmm.frameCount → pmm.isFree other = false
  met : firstFree ≠ pmm.frameCount → lower ≤ firstFree ∧ firstFree < frame ∧
    ∀ other, lower ≤ other → other < firstFree → pmm.isFree other = false

theorem FirstSeen.used_frames {f skipped : Nat} (seen : FirstSeen pmm lower f firstFree)
    (used : ∀ j, f ≤ j → j < f + skipped → pmm.isFree j = false) :
    FirstSeen pmm lower (f + skipped) firstFree where
  unmet := by
    intro none j lo hi inside
    by_cases old : j < f
    · exact seen.unmet none j lo old inside
    · exact used j (by omega) hi
  met := by
    intro hit
    obtain ⟨lo, hi, rest⟩ := seen.met hit
    exact ⟨lo, by omega, rest⟩

theorem FirstSeen.free_frame (seen : FirstSeen pmm lower f firstFree)
    (above : lower ≤ f) (inside : f < pmm.frameCount) :
    FirstSeen pmm lower (f + 1) (if firstFree = pmm.frameCount then f else firstFree) where
  unmet := by
    intro none
    split at none
    · omega
    · next hit => exact (hit none).elim
  met := by
    intro _
    split
    · next none =>
      exact ⟨above, by omega, fun j lo hi => seen.unmet none j lo hi (by omega)⟩
    next hit =>
    obtain ⟨lo, hi, rest⟩ := seen.met hit
    exact ⟨lo, by omega, rest⟩

theorem isFree_of_full (full : pmm.bitmap (f / 8) = 0xff#8) : pmm.isFree f = false := by
  simp [isFree, bitmapGet, Bitmap.get_of_full full]

theorem byte_used (aligned : f % 8 = 0) (full : pmm.bitmap (f / 8) = 0xff#8) :
    ∀ j, f ≤ j → j < f + 8 → pmm.isFree j = false := by
  intro j lo hi
  have same : j / 8 = f / 8 := by omega
  exact isFree_of_full (by rw [same]; exact full)

theorem eightFull_used (aligned : f % 64 = 0) (full : pmm.eightFull (f / 8) = true) :
    ∀ j, f ≤ j → j < f + 64 → pmm.isFree j = false := by
  intro j lo hi
  obtain ⟨offset, byte⟩ : ∃ offset, j / 8 = f / 8 + offset :=
    ⟨j / 8 - f / 8, by omega⟩
  have each := all_eq_true.mp full offset (mem_range.mpr (by omega))
  exact isFree_of_full (by rw [byte]; exact eq_of_beq each)

/-- What the search loop returns. -/
structure SearchResult (pmm : Pmm) (count lower : Nat) (result : Option Nat × Nat) : Prop where
  found : ∀ start, result.1 = some start →
    LowestRun pmm.isFree pmm.frameCount count lower start ∧ lower ≤ result.2
  failed : result.1 = none → ∀ upper, NoRun pmm.isFree pmm.frameCount count lower upper
  frontier : ∀ frame, lower ≤ frame → frame < result.2 → frame < pmm.frameCount →
    pmm.isFree frame = false

theorem FirstSeen.frontier (seen : FirstSeen pmm lower f firstFree)
    (ended : firstFree = pmm.frameCount → pmm.frameCount ≤ f) :
    ∀ j, lower ≤ j → j < firstFree → j < pmm.frameCount →
      pmm.isFree j = false := by
  intro j lo hi inside
  by_cases none : firstFree = pmm.frameCount
  · exact seen.unmet none j lo (by omega) inside
  · exact (seen.met none).2.2 j lo hi

theorem SearchResult.of_end {n f length : Nat}
    (progress : Progress pmm.isFree pmm.frameCount n lower f length)
    (seen : FirstSeen pmm lower f firstFree) (ended : pmm.frameCount ≤ f) :
    SearchResult pmm n lower (none, firstFree) where
  found := by intro start hit; cases hit
  failed := fun _ => progress.exhausted ended
  frontier := seen.frontier fun _ => ended

theorem search_spec {n turns f runStart runLength : Nat}
    (progress : Progress pmm.isFree pmm.frameCount n lower f runLength)
    (started : runLength ≠ 0 → runStart = f - runLength)
    (seen : FirstSeen pmm lower f firstFree) (enough : pmm.frameCount ≤ f + turns) :
    SearchResult pmm n lower (pmm.search n turns f runStart runLength firstFree) := by
  induction turns generalizing f runStart runLength firstFree with
  | zero => exact SearchResult.of_end progress seen enough
  | succ turns ih =>
    rw [search]
    by_cases ended : pmm.frameCount ≤ f
    · rw [if_pos ended]
      exact SearchResult.of_end progress seen ended
    rw [if_neg ended]
    have skip {skipped : Nat} (ne : 0 < skipped)
        (used : ∀ j, f ≤ j → j < f + skipped → pmm.isFree j = false) :
        SearchResult pmm n lower
          (pmm.search n turns (f + skipped) runStart 0 firstFree) :=
      ih (progress.used_places ne used) (fun none => (none rfl).elim)
        (seen.used_frames used) (by omega)
    by_cases eight : f % 64 = 0 ∧ 64 ≤ pmm.frameCount - f ∧ pmm.eightFull (f / 8) = true
    · rw [if_pos eight]
      exact skip (by decide) (eightFull_used eight.1 eight.2.2)
    rw [if_neg eight]
    by_cases one : f % 8 = 0 ∧ 8 ≤ pmm.frameCount - f ∧ pmm.bitmap (f / 8) = 0xff#8
    · rw [if_pos one]
      exact skip (by decide) (byte_used one.1 one.2.2)
    rw [if_neg one]
    by_cases clear : pmm.bitmapGet f = false
    · rw [if_pos clear]
      have isFree : pmm.isFree f = true := by simp [isFree, clear]
      have within := progress.within
      have seenNext := seen.free_frame (by omega) (by omega)
      have startEq : (if runLength = 0 then f else runStart) = f - runLength := by
        split
        · omega
        · next ne => exact started ne
      by_cases full : runLength + 1 = n
      · rw [if_pos full]
        have lowest := progress.found isFree full (by omega)
        have notEnd : (if firstFree = pmm.frameCount then f else firstFree) ≠
            pmm.frameCount := by
          split <;> omega
        refine ⟨fun start hit => ?_, fun none => (by cases none),
          seenNext.frontier fun same => (notEnd same).elim⟩
        rw [startEq] at hit
        cases hit
        exact ⟨lowest, (seenNext.met notEnd).1⟩
      rw [if_neg full]
      have short := progress.short
      exact ih (progress.free_place isFree (by omega))
        (fun _ => by omega) seenNext (by omega)
    rw [if_neg clear]
    refine skip (by decide) fun j lo hi => ?_
    have same : j = f := by omega
    simp [same, isFree, Bool.eq_true_of_not_eq_false clear]

/-! ## Allocation -/

/-- The address of the lowest run, by a scan of every frame from the minimum. -/
def linearAddress (pmm : Pmm) (count minimumFrame : Nat) : Nat :=
  match linearFit pmm.isFree pmm.frameCount count minimumFrame with
  | some start => start * frameSize
  | none => 0

theorem linearAddress_eq {j : Pmm} (bitmap : j.bitmap = pmm.bitmap)
    (frameCount : j.frameCount = pmm.frameCount) :
    j.linearAddress n minimumFrame = pmm.linearAddress n minimumFrame := by
  have free : j.isFree = pmm.isFree := by
    funext f
    simp [isFree, bitmapGet, bitmap]
  rw [linearAddress, linearAddress, free, frameCount]

/-- The state once both hints for the request are selected. -/
structure Prepared (pmm : Pmm) (count minimum hint runHint : Nat) : Prop where
  inv : Inv pmm
  small : hint < hintCount
  valid : (pmm.searchHints hint).valid = true
  minimum_eq : (pmm.searchHints hint).minimum = minimum
  runSmall : runHint < hintCount
  runValid : (pmm.runHints runHint).valid = true
  runMinimum_eq : (pmm.runHints runHint).minimum = minimum
  count_eq : (pmm.runHints runHint).count = count

variable {n minimum hint runHint : Nat}

section

variable (prepared : Prepared pmm n minimum hint runHint)

include prepared

theorem Prepared.searched :
    SearchResult pmm n (pmm.startFrame hint runHint)
      (pmm.search n pmm.frameCount (pmm.startFrame hint runHint) 0 0 pmm.frameCount) := by
  have pos : 0 < n := by
    have sound := prepared.inv.runs runHint prepared.runSmall prepared.runValid
    rw [prepared.count_eq] at sound
    exact sound.2.1
  refine search_spec (Progress.start_scan pos) (fun none => (none rfl).elim) ⟨?_, ?_⟩
    (by omega)
  · intro _ j lo hi
    omega
  · intro hit
    exact (hit rfl).elim

theorem Prepared.none_below :
    minimum ≤ pmm.startFrame hint runHint ∧
      NoRun pmm.isFree pmm.frameCount n minimum (pmm.startFrame hint runHint) := by
  obtain ⟨ordered, noneFree⟩ := prepared.inv.search hint prepared.small prepared.valid
  obtain ⟨_, _, noRun⟩ := prepared.inv.runs runHint prepared.runSmall prepared.runValid
  rw [prepared.minimum_eq] at ordered noneFree
  rw [prepared.runMinimum_eq, prepared.count_eq] at noRun
  have below : NoRun pmm.isFree pmm.frameCount n minimum (pmm.searchHints hint).floor :=
    NoRun.of_used noneFree
  rw [startFrame]
  split
  · exact ⟨by omega, noRun⟩
  · exact ⟨ordered, below⟩

/-- With the shared floor as the start, the frames below the first free frame the search
met are used. -/
theorem Prepared.frontier (shared : pmm.startFrame hint runHint = (pmm.searchHints hint).floor)
    (f : Nat) (lo : minimum ≤ f)
    (hi : f < (pmm.search n pmm.frameCount (pmm.startFrame hint runHint) 0 0 pmm.frameCount).2)
    (inside : f < pmm.frameCount) : pmm.isFree f = false := by
  obtain ⟨_, noneFree⟩ := prepared.inv.search hint prepared.small prepared.valid
  rw [prepared.minimum_eq] at noneFree
  by_cases below : f < (pmm.searchHints hint).floor
  · exact noneFree f lo below inside
  · exact prepared.searched.frontier f (by omega) hi inside

theorem Prepared.found (tag : FrameTag) {start : Nat}
    (answer : pmm.search n pmm.frameCount (pmm.startFrame hint runHint) 0 0 pmm.frameCount =
      (some start, firstFree)) :
    LowestRun pmm.isFree pmm.frameCount n minimum start ∧
      Inv ((markFrames true tag n start pmm).setRunFloor runHint (start + n)) ∧
      (pmm.startFrame hint runHint = (pmm.searchHints hint).floor →
        Inv (((markFrames true tag n start pmm).setRunFloor runHint
          (start + n)).setSearchFloor hint
            (if firstFree = start then start + n else firstFree))) := by
  have r := prepared.searched
  obtain ⟨ordered, noneBelow⟩ := prepared.none_below
  have frontier := prepared.frontier
  rw [answer] at r frontier
  obtain ⟨fromFloor, firstAbove⟩ := r.found start rfl
  have lowest := fromFloor.of_floor ordered noneBelow
  have inside := lowest.run.inside
  have atLeast := lowest.atLeast
  have pos := lowest.run.nonempty
  have marked (f : Nat) : (markFrames true tag n start pmm).isFree f =
      if start ≤ f ∧ f < start + n then false else pmm.isFree f := by
    simpa using isFree_markFrames true tag n start pmm f
  have markedInv := prepared.inv.markUsed tag inside
  have noRun : NoRun (markFrames true tag n start pmm).isFree pmm.frameCount n minimum
      (start + n) := by
    intro j lo hi run
    by_cases old : j < start
    · refine lowest.noneBelow j lo old ⟨run.nonempty, run.inside, fun f lo hi => ?_⟩
      have isFree := run.allFree f lo hi
      rw [marked] at isFree
      split at isFree
      · cases isFree
      · exact isFree
    have isFree := run.allFree j le_rfl (by omega)
    rw [marked, if_pos (by omega)] at isFree
    cases isFree
  have runInv : Inv ((markFrames true tag n start pmm).setRunFloor runHint
      (start + n)) := by
    refine markedInv.setRunFloor ?_ ?_ ?_
    · simp only [markFrames_kept, prepared.runMinimum_eq]
      omega
    · simpa [prepared.count_eq] using pos
    · simpa [prepared.count_eq, prepared.runMinimum_eq] using noRun
  refine ⟨lowest, runInv, fun shared => runInv.setSearchFloor ?_ ?_⟩
  · simp only [setRunFloor, markFrames_kept, prepared.minimum_eq]
    split <;> omega
  intro f lo hi below
  simp only [setRunFloor, markFrames_kept, prepared.minimum_eq] at lo
  simp only [setRunFloor, markFrames_kept] at below
  have same : ((markFrames true tag n start pmm).setRunFloor runHint
      (start + n)).isFree f = (markFrames true tag n start pmm).isFree f := rfl
  rw [same, marked]
  split
  · rfl
  next outside =>
  refine frontier shared f lo ?_ below
  split at hi <;> simp only <;> omega

end

theorem Prepared.failed (prepared : Prepared pmm n minimum hint runHint)
    (answer : pmm.search n pmm.frameCount (pmm.startFrame hint runHint) 0 0 pmm.frameCount =
      (none, firstFree)) :
    (∀ upper, NoRun pmm.isFree pmm.frameCount n minimum upper) ∧
      Inv (pmm.setRunFloor runHint (max pmm.frameCount (pmm.runHints runHint).minimum)) ∧
      (pmm.startFrame hint runHint = (pmm.searchHints hint).floor →
        Inv ((pmm.setRunFloor runHint
          (max pmm.frameCount (pmm.runHints runHint).minimum)).setSearchFloor hint
            (max firstFree (pmm.searchHints hint).minimum))) := by
  have r := prepared.searched
  obtain ⟨ordered, noneBelow⟩ := prepared.none_below
  have frontier := prepared.frontier
  rw [answer] at r frontier
  have noRun : ∀ upper, NoRun pmm.isFree pmm.frameCount n minimum upper := by
    intro upper start lo hi
    by_cases below : start < pmm.startFrame hint runHint
    · exact noneBelow start lo below
    · exact r.failed rfl upper start (by omega) hi
  have pos := (prepared.inv.runs runHint prepared.runSmall prepared.runValid).2.1
  have runInv : Inv (pmm.setRunFloor runHint
      (max pmm.frameCount (pmm.runHints runHint).minimum)) := by
    refine prepared.inv.setRunFloor (le_max_right _ _) pos ?_
    rw [prepared.count_eq, prepared.runMinimum_eq]
    exact noRun _
  refine ⟨noRun, runInv, fun shared => runInv.setSearchFloor (le_max_right _ _) ?_⟩
  intro f lo hi below
  have atLeast : minimum ≤ f := by rw [← prepared.minimum_eq]; exact lo
  exact frontier shared f atLeast (by rw [prepared.minimum_eq] at hi; omega) below

/-- The search with selected hints answers as the scan of every frame does, and the hints
stay sound. -/
theorem Prepared.allocHinted_spec (prepared : Prepared pmm n minimum hint runHint) :
    (pmm.allocHinted n hint runHint tag).1 = pmm.linearAddress n minimum ∧
      Inv (pmm.allocHinted n hint runHint tag).2 := by
  rw [allocHinted]
  cases answer : pmm.search n pmm.frameCount (pmm.startFrame hint runHint) 0 0
      pmm.frameCount with
  | mk hit firstFree =>
  cases hit with
  | some start =>
    obtain ⟨lowest, runInv, sharedInv⟩ := prepared.found tag answer
    have inRange : start * frameSize < 2 ^ 64 := by
      have bounded := prepared.inv.bounded
      have inside := lowest.run.inside
      have ne := lowest.run.nonempty
      simp only [frameSize]
      omega
    refine ⟨by simp [linearAddress, linearFit_eq_some lowest, Word.wrap_of_lt inRange], ?_⟩
    by_cases shared : pmm.startFrame hint runHint = (pmm.searchHints hint).floor
    · simpa [shared] using sharedInv shared
    · simpa [shared] using runInv
  | none =>
    obtain ⟨noRun, runInv, sharedInv⟩ := prepared.failed answer
    refine ⟨by simp [linearAddress, linearFit_eq_none noRun], ?_⟩
    by_cases shared : pmm.startFrame hint runHint = (pmm.searchHints hint).floor
    · simp only [shared]
      exact sharedInv shared
    · simpa [shared] using runInv

theorem Inv.allocFrom_spec (inv : Inv pmm) (pos : 0 < n) (minimum : Nat) (tag : FrameTag) :
    (pmm.allocFrom n minimum tag).1 = pmm.linearAddress n minimum ∧
      Inv (pmm.allocFrom n minimum tag).2 := by
  have selected := selectSearchHint_spec inv minimum
  have runSelected := selectRunHint_spec selected.inv minimum pos
  have prepared : Prepared _ n minimum _ _ :=
    { inv := runSelected.inv
      small := selected.small
      valid := by rw [runSelected.searchHints]; exact selected.valid
      minimum_eq := by rw [runSelected.searchHints]; exact selected.minimum_eq
      runSmall := runSelected.small
      runValid := runSelected.valid
      runMinimum_eq := runSelected.minimum_eq
      count_eq := runSelected.count_eq }
  obtain ⟨a, after⟩ := prepared.allocHinted_spec
  rw [linearAddress_eq (runSelected.bitmap.trans selected.bitmap)
    (runSelected.frameCount.trans selected.frameCount)] at a
  exact ⟨a, after⟩

/-! ## The call -/

/-- The frame at which an aligned search starts, in exact arithmetic. -/
def alignedFrame (minimum : Nat) : Nat := (minimum + (frameSize - 1)) / frameSize

variable {minimum : Nat}

theorem alignUp_frame (fits : minimum ≤ uint64Max - (frameSize - 1)) :
    alignUp minimum frameSize / frameSize = alignedFrame minimum := by
  have inRange : minimum + frameSize - 1 < 2 ^ 64 := by
    simp only [uint64Max, frameSize] at *
    omega
  rw [alignUp, Word.wrap_of_lt inRange, alignedFrame]
  simp only [frameSize]
  omega

theorem Inv.linearAddress_of_few (inv : Inv pmm) (few : pmm.freeCount < n) :
    pmm.linearAddress n minimumFrame = 0 := by
  have none : ∀ upper, NoRun pmm.isFree pmm.frameCount n minimumFrame upper := by
    intro upper start _ _ run
    have enough := run.count_le
    rw [← inv.counted] at enough
    omega
  rw [linearAddress, linearFit_eq_none none]

theorem Inv.linearAddress_of_high (inv : Inv pmm) (high : uint64Max - (frameSize - 1) < minimum) :
    pmm.linearAddress n (alignedFrame minimum) = 0 := by
  have bounded := inv.bounded
  have above : pmm.frameCount ≤ alignedFrame minimum := by
    simp only [alignedFrame, uint64Max, frameSize] at *
    omega
  have none : ∀ upper, NoRun pmm.isFree pmm.frameCount n (alignedFrame minimum) upper := by
    intro upper start lo _ run
    have inside := run.inside
    have ne := run.nonempty
    omega
  rw [linearAddress, linearFit_eq_none none]

theorem Inv.alloc_spec (inv : Inv pmm) {minimum a : Nat}
    (answer : pmm.allocFramesAboveTagged n minimum tag = some (a, after)) :
    a = pmm.linearAddress n (alignedFrame minimum) ∧ Inv after := by
  rw [allocFramesAboveTagged] at answer
  split at answer
  · next refused =>
    cases answer
    refine ⟨Eq.symm ?_, inv⟩
    rcases refused with empty | high
    · simp [linearAddress, linearFit, empty]
    · exact inv.linearAddress_of_high high
  next accepted =>
  split at answer
  · cases answer
  split at answer
  · next few =>
    cases answer
    exact ⟨(inv.linearAddress_of_few few).symm, inv⟩
  obtain ⟨pos, fits⟩ := not_or.mp accepted
  rw [alignUp_frame (not_lt.mp fits), some.injEq] at answer
  have spec := inv.allocFrom_spec (Nat.pos_of_ne_zero pos) (alignedFrame minimum) tag
  rw [answer] at spec
  exact spec

/-! ## Release -/

theorem releaseFrames_eq {pmm : Pmm} (released : releaseFrames n f pmm = some after) :
    after = markFrames false .free n f pmm := by
  induction n generalizing f pmm with
  | zero =>
    cases released
    rfl
  | succ n ih =>
    simp only [releaseFrames, ite_none_left_eq_some] at released
    exact ih released.2.2.2

section Rewind

variable {free free' : Nat → Bool} {bound f stop : Nat} {hint : RunHint}

theorem rewindSearch_asRun (hint : SearchHint) :
    (rewindSearch f stop hint).asRun = rewindRun f stop hint.asRun := by
  have first : earliestStart f hint.asRun = max f hint.minimum := by
    simp [earliestStart, asRun]
  simp only [rewindSearch, rewindRun, first, apply_ite asRun]
  rfl

/-- A run from the minimum on that starts before the earliest start ends before every freed
frame. -/
theorem earliestStart_spec (pos : 0 < hint.count) {start j : Nat}
    (old : start < earliestStart f hint) (lo : hint.minimum ≤ start)
    (inFreed : f ≤ j) : start + hint.count ≤ j := by
  rw [earliestStart] at old
  split at old <;> omega

theorem rewindRun_sound (sound : hint.Sound free bound)
    (freed : ∀ j, free' j = if f ≤ j ∧ j < stop then true else free j) :
    (rewindRun f stop hint).Sound free' bound := by
  intro valid
  have stays : (rewindRun f stop hint).valid = hint.valid ∧
      (rewindRun f stop hint).minimum = hint.minimum ∧
      (rewindRun f stop hint).count = hint.count := by
    rw [rewindRun]
    split
    · dsimp only
      split <;> exact ⟨rfl, rfl, rfl⟩
    · exact ⟨rfl, rfl, rfl⟩
  obtain ⟨ordered, pos, none⟩ := sound (stays.1 ▸ valid)
  have floor : hint.minimum ≤ (rewindRun f stop hint).floor ∧
      (rewindRun f stop hint).floor ≤ hint.floor ∧
      ∀ start j, hint.minimum ≤ start → start < (rewindRun f stop hint).floor →
        start ≤ j → f ≤ j → j < stop → start + hint.count ≤ j := by
    rw [rewindRun]
    rw [stays.1] at valid
    split
    · dsimp only
      split
      · next low =>
        refine ⟨le_max_right _ _, low.le, ?_⟩
        intro start j lo hi _ inFreed _
        exact earliestStart_spec pos hi lo inFreed
      next high =>
      refine ⟨ordered, le_rfl, ?_⟩
      intro start j lo hi _ inFreed _
      exact earliestStart_spec pos (by omega) lo inFreed
    next outside =>
    refine ⟨ordered, le_rfl, fun start j lo _ fromStart _ hi => (outside ⟨valid, ?_⟩).elim⟩
    omega
  rw [stays.2.1, stays.2.2]
  refine ⟨floor.1, pos, fun start lo hi run => ?_⟩
  refine none start lo (by omega) ⟨run.nonempty, run.inside, fun j fromStart inRun => ?_⟩
  have isFree := run.allFree j fromStart inRun
  rw [freed] at isFree
  split at isFree
  · next inFreed =>
    have := floor.2.2 start j lo hi fromStart inFreed.1 inFreed.2
    omega
  · exact isFree

end Rewind

theorem Inv.free_spec (inv : Inv pmm) {a : Nat}
    (answer : pmm.freeFrameRange a n = some after) : Inv after := by
  simp only [freeFrameRange, ite_none_left_eq_some, map_eq_some_iff] at answer
  obtain ⟨accepted, released, done, rfl⟩ := answer
  cases releaseFrames_eq done
  have counted := inv.toCounted.markFrames false .free
    (by omega : a / frameSize + n ≤ pmm.frameCount)
  have freed := isFree_markFrames false .free n (a / frameSize) pmm
  refine ⟨⟨counted.bounded, counted.counted⟩, fun s small => ?_, fun s small => ?_⟩
  · simp only [rewindHints, if_pos small, markFrames_kept]
    rw [sound_iff, rewindSearch_asRun]
    exact rewindRun_sound (sound_iff.mp (inv.search s small)) freed
  · simp only [rewindHints, if_pos small, markFrames_kept]
    exact rewindRun_sound (inv.runs s small) freed

/-! ## Initialisation -/

/-- The counter is exact and no hint is valid yet. -/
structure Fresh (pmm : Pmm) : Prop extends Counted pmm where
  search : ∀ slot, slot < hintCount → (pmm.searchHints slot).valid = false
  runs : ∀ slot, slot < hintCount → (pmm.runHints slot).valid = false

theorem Fresh.inv (fresh : Fresh pmm) : Inv pmm where
  toCounted := fresh.toCounted
  search := by
    intro s small valid
    rw [fresh.search s small] at valid
    cases valid
  runs := by
    intro s small valid
    rw [fresh.runs s small] at valid
    cases valid

theorem Fresh.markFrom (fresh : Fresh pmm) (used : Bool) (left f : Nat) :
    Fresh (markFrom used left f pmm) := by
  induction left generalizing f pmm with
  | zero => exact fresh
  | succ left ih =>
    rw [markFrom]
    split
    · next inside =>
      refine ih ⟨fresh.toCounted.markFrame inside, ?_, ?_⟩ (f + 1)
      · simpa using fresh.search
      · simpa using fresh.runs
    · exact ih fresh (f + 1)

theorem Fresh.markEntries (fresh : Fresh pmm) (memmap : List MemmapEntry) :
    Fresh (memmap.foldl (fun pmm entry =>
      if entry.type = .usable then pmm.markRange entry.base entry.length false else pmm) pmm) := by
  induction memmap generalizing pmm with
  | nil => exact fresh
  | cons entry rest ih =>
    rw [foldl_cons]
    split
    · exact ih (fresh.markFrom false _ _)
    · exact ih fresh

theorem mappedFrames_le (memmap : List MemmapEntry) : mappedFrames memmap ≤ 2 ^ 52 := by
  have small : Word.wrap 64 (findHighestManagedAddress memmap + frameSize - 1) < 2 ^ 64 :=
    mod_lt _ (by decide)
  rw [mappedFrames, alignUp]
  simp only [frameSize] at *
  omega

variable {memmap : List MemmapEntry} {old : Pmm}

theorem pmmInit_inv (started : pmmInit old memmap = some pmm) : Inv pmm := by
  simp only [pmmInit, ite_none_left_eq_some, some.injEq] at started
  obtain ⟨-, -, rfl⟩ := started
  have bounded := mappedFrames_le memmap
  refine (Fresh.markFrom (Fresh.markEntries ⟨⟨bounded, ?_⟩, ?_, ?_⟩ memmap) true _ _).inv
  · refine (freeBelow_eq_zero fun f inside => isFree_of_full ?_).symm
    have inBitmap : f / 8 < alignUp (mappedFrames memmap) 8 / 8 := by
      have inRange : mappedFrames memmap + 8 - 1 < 2 ^ 64 := by omega
      rw [alignUp, Word.wrap_of_lt inRange]
      change f < mappedFrames memmap at inside
      omega
    exact if_pos inBitmap
  · intro s small
    simp [small]
  · intro s small
    simp [small]

/-! ## Runs -/

theorem step_inv (s : Option Pmm) (request : Request) (inv : ∀ pmm, s = some pmm → Inv pmm) :
    ∀ pmm, (step s request).2 = some pmm → Inv pmm := by
  intro after done
  cases s with
  | none => cases done
  | some pmm =>
    cases request with
    | alloc n minimum tag =>
      simp only [step, map_eq_some_iff] at done
      obtain ⟨⟨a, after'⟩, answer, rfl⟩ := done
      exact ((inv pmm rfl).alloc_spec answer).2
    | free a n => exact (inv pmm rfl).free_spec done

/-- Every state that a run from `pmm_init` reaches without halting satisfies the invariant. -/
theorem run_inv {requests : List Request}
    (reached : (run step (pmmInit old memmap) requests).2 = some pmm) : Inv pmm :=
  run_invariant step (fun s => ∀ pmm, s = some pmm → Inv pmm) step_inv
    (fun _ started => pmmInit_inv started) requests pmm reached

/-- After any memory map and any calls the free counter is exact. -/
theorem freeCount_exact (before : Pmm) (memmap : List MemmapEntry) (requests : List Request) :
    (run step (pmmInit before memmap) requests).2.all fun pmm =>
      pmm.freeCount == freeBelow pmm.isFree pmm.frameCount := by
  rw [Option.all_eq_true]
  exact fun pmm reached => beq_iff_eq.mpr (run_inv reached).counted

theorem allocFramesAboveTagged_isSome {n minimum : Nat}
    (valid : tag.valid = true) (notFree : tag ≠ .free) :
    (pmm.allocFramesAboveTagged n minimum tag).isSome = true := by
  rw [allocFramesAboveTagged]
  split
  · rfl
  rw [if_neg (by simp [valid, notFree])]
  split <;> rfl

/-- After any memory map and any calls, an allocation returns the lowest run of free frames at or
above the aligned minimum, or 0 when there is none, as a scan of every frame does. -/
theorem alloc_is_first_fit (before : Pmm) (memmap : List MemmapEntry) (requests : List Request)
    {pmm : Pmm} (reached : (run step (pmmInit before memmap) requests).2 = some pmm)
    (count minimum : Nat) (tag : FrameTag) :
    (tag.valid = true → tag ≠ .free →
      (pmm.allocFramesAboveTagged count minimum tag).isSome = true) ∧
    ∀ address after, pmm.allocFramesAboveTagged count minimum tag = some (address, after) →
      address = pmm.linearAddress count (alignedFrame minimum) ∧
      ((∃ start, LowestRun pmm.isFree pmm.frameCount count (alignedFrame minimum) start ∧
          address = start * frameSize) ∨
        ((∀ start, alignedFrame minimum ≤ start →
            ¬ RunAt pmm.isFree pmm.frameCount count start) ∧ address = 0)) := by
  refine ⟨allocFramesAboveTagged_isSome, fun address after answer => ?_⟩
  obtain ⟨linear, -⟩ := (run_inv reached).alloc_spec answer
  refine ⟨linear, ?_⟩
  have spec := linearFit_spec pmm.isFree pmm.frameCount count (alignedFrame minimum)
  rw [linear, linearAddress]
  cases found : linearFit pmm.isFree pmm.frameCount count (alignedFrame minimum) with
  | some start =>
    rw [found] at spec
    exact .inl ⟨start, spec, rfl⟩
  | none =>
    rw [found] at spec
    exact .inr ⟨fun start lo => spec (start + 1) start lo (lt_succ_self _), rfl⟩

def sampleMap : List MemmapEntry := [{ base := 0x100000, length := 0x4000, type := .usable }]

/-- The static variables before `pmm_init`. -/
def blank : Pmm :=
  { bitmap := fun _ => 0#8, frameTags := fun _ => .free, tagCounts := fun _ => 0,
    frameCount := 0, freeCount := 0, searchHints := fun _ => ⟨0, 0, false⟩,
    runHints := fun _ => ⟨0, 0, 0, false⟩, nextSearchHint := 0, nextRunHint := 0 }

theorem alloc_is_first_fit_sample :
    ∃ pmm, (run step (pmmInit blank sampleMap)
        [.alloc 1 0 .general, .alloc 1 0 .user, .free 0x101000 1]).2 = some pmm ∧
      ((FrameTag.user.valid = true → FrameTag.user ≠ .free →
        (pmm.allocFramesAboveTagged 1 0 .user).isSome = true) ∧
      ∀ address after, pmm.allocFramesAboveTagged 1 0 .user = some (address, after) →
        address = pmm.linearAddress 1 (alignedFrame 0) ∧
        ((∃ start, LowestRun pmm.isFree pmm.frameCount 1 (alignedFrame 0) start ∧
            address = start * frameSize) ∨
          ((∀ start, alignedFrame 0 ≤ start → ¬ RunAt pmm.isFree pmm.frameCount 1 start) ∧
            address = 0))) := by
  have survived : (run step (pmmInit blank sampleMap)
      [.alloc 1 0 .general, .alloc 1 0 .user, .free 0x101000 1]).2.isSome = true := by
    decide +kernel
  obtain ⟨pmm, reached⟩ := isSome_iff_exists.mp survived
  exact ⟨pmm, reached, alloc_is_first_fit blank sampleMap _ reached 1 0 .user⟩

end Pmm

end SrvrOS.Memory
