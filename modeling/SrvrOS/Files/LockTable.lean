import SrvrOS.Files.Lock

/-!
# The lock table by bytes

For each process, file and byte the table says which type of lock is held. Joining
neighbours does not change that, and cutting and adding change it on the requested range
only.
-/

namespace SrvrOS.Files

open Lib List Slots Lock

variable {κ : Type} {locks next rest : List (Lock κ)}

/-- A process holds a lock of a type on a byte of a file. -/
def Holds (locks : List (Lock κ)) (pid : Nat) (content : κ) (byte : Nat) (type : LockType) : Prop :=
  ∃ lock ∈ locks, lock.pid = pid ∧ lock.content = content ∧ lock.type = type ∧
    lock.start ≤ byte ∧ byte < lock.stop

/-- A lock covers something and is not an unlock. -/
def Lock.Proper (lock : Lock κ) : Prop := lock.start < lock.stop ∧ lock.type ≠ .unlck

/-- Locks of one process on one file do not overlap. -/
def Lock.Apart (lock other : Lock κ) : Prop :=
  lock.pid = other.pid → lock.content = other.content →
    lock.stop ≤ other.start ∨ other.stop ≤ lock.start

theorem Lock.Apart.symm {l j : Lock κ} (apart : l.Apart j) : j.Apart l :=
  fun pid c => (apart pid.symm c.symm).symm

/-- The locks of each process by themselves. -/
structure Tidy (locks : List (Lock κ)) : Prop where
  proper : ∀ lock ∈ locks, lock.Proper
  apart : locks.Pairwise Lock.Apart

/-- Two lists of locks that say the same about every byte. -/
def Same (locks next : List (Lock κ)) : Prop :=
  ∀ pid content byte type, Holds locks pid content byte type ↔ Holds next pid content byte type

theorem Same.trans {third : List (Lock κ)} (first : Same locks next) (second : Same next third) :
    Same locks third := fun pid c b type =>
  (first pid c b type).trans (second pid c b type)

theorem Same.of_perm (perm : locks.Perm next) : Same locks next := by
  intro pid c b type
  simp [Holds, perm.mem_iff]

theorem Tidy.perm (tidy : Tidy locks) (perm : locks.Perm next) : Tidy next :=
  ⟨fun l mem => tidy.proper l (perm.mem_iff.mpr mem),
    tidy.apart.perm perm fun apart => Apart.symm apart⟩

variable {l : Lock κ} {c : κ}

theorem holds_cons {pid b : Nat} {type : LockType} :
    Holds (l :: locks) pid c b type ↔
      (l.pid = pid ∧ l.content = c ∧ l.type = type ∧
        l.start ≤ b ∧ b < l.stop) ∨ Holds locks pid c b type := by
  simp [Holds]

/-! ## Joining -/

section Join

variable [DecidableEq κ] {l j : Lock κ}

theorem joins_iff : l.joins j = true ↔
    l.pid = j.pid ∧ l.content = j.content ∧ l.type = j.type ∧
      l.start ≤ j.stop ∧ j.start ≤ l.stop := by
  simp [joins, and_assoc]

theorem Same.join (joins : l.joins j = true) : Same (l :: j :: rest) (l.join j :: rest) := by
  obtain ⟨samePid, sameContent, sameType, left, right⟩ := joins_iff.mp joins
  intro pid c b type
  simp only [holds_cons, Lock.join, ← samePid, ← sameContent, ← sameType, ← or_assoc]
  refine or_congr_left ⟨?_, ?_⟩
  · rintro (⟨isPid, isContent, isType, lower, upper⟩ | ⟨isPid, isContent, isType, lower, upper⟩)
    · exact ⟨isPid, isContent, isType, by omega, by omega⟩
    · exact ⟨isPid, isContent, isType, by omega, by omega⟩
  rintro ⟨isPid, isContent, isType, lower, upper⟩
  by_cases first : l.start ≤ b ∧ b < l.stop
  · exact .inl ⟨isPid, isContent, isType, first⟩
  · exact .inr ⟨isPid, isContent, isType, by omega, by omega⟩

theorem Tidy.join (tidy : Tidy (l :: j :: rest)) (joins : l.joins j = true) :
    Tidy (l.join j :: rest) := by
  obtain ⟨samePid, sameContent, sameType, left, right⟩ := joins_iff.mp joins
  obtain ⟨proper, apart⟩ := tidy
  obtain ⟨fromLock, apart⟩ := pairwise_cons.mp apart
  obtain ⟨fromOther, apart⟩ := pairwise_cons.mp apart
  have lockProper := proper l (by simp)
  refine ⟨fun candidate mem => ?_, pairwise_cons.mpr ⟨fun candidate mem => ?_, apart⟩⟩
  · rcases mem_cons.mp mem with rfl | old
    · refine ⟨?_, lockProper.2⟩
      have := lockProper.1
      simp only [Lock.join]
      omega
    · exact proper candidate (by simp [old])
  intro pid c
  have first := fromLock candidate (by simp [mem]) pid c
  have second := fromOther candidate mem (samePid ▸ pid) (sameContent ▸ c)
  have wide := (proper candidate (by simp [mem])).1
  simp only [Lock.join]
  omega

end Join

variable {α : Type}

theorem swapRemove_perm {list : List α} {i : Nat} (inside : i < list.length) :
    (swapRemove list i).Perm (list.eraseIdx i) := by
  unfold swapRemove
  split
  next empty => simp [getLast?_eq_none_iff.mp empty] at inside
  rename_i last found
  have whole : (list.set i last).dropLast ++ [last] = list.set i last := by
    refine dropLast_append_getLast? last ?_
    rw [getLast?_eq_getElem?, length_set, getElem?_set]
    rw [getLast?_eq_getElem?] at found
    split
    · simp
    · exact found
  have moved := set_perm_cons_eraseIdx inside last
  rw [← whole] at moved
  exact (perm_cons last).mp ((perm_append_singleton last _).symm.trans moved)

theorem swapRemove_set_perm {list : List α} {i j : Nat} (ordered : i < j)
    (inside : j < list.length) {v : α} :
    ∃ rest, list.Perm (list.get ⟨i, Nat.lt_trans ordered inside⟩ :: list.get ⟨j, inside⟩ :: rest) ∧
      (swapRemove (list.set i v) j).Perm (v :: rest) := by
  have short : i < (list.eraseIdx j).length := by
    rw [length_eraseIdx_of_lt inside]
    omega
  refine ⟨(list.eraseIdx j).eraseIdx i, ?_, ?_⟩
  · have far := getElem_cons_eraseIdx_perm inside
    have near : ((list.eraseIdx j).get ⟨i, short⟩ :: (list.eraseIdx j).eraseIdx i).Perm
        (list.eraseIdx j) := getElem_cons_eraseIdx_perm short
    have same : (list.eraseIdx j).get ⟨i, short⟩ = list.get ⟨i, Nat.lt_trans ordered inside⟩ := by
      exact getElem_eraseIdx_of_lt short ordered
    rw [same] at near
    exact far.symm.trans (((near.symm.cons _)).trans (List.Perm.swap _ _ _))
  have removed : (swapRemove (list.set i v) j).Perm ((list.set i v).eraseIdx j) :=
    swapRemove_perm (by simpa)
  rw [eraseIdx_set_gt ordered] at removed
  exact removed.trans (set_perm_cons_eraseIdx short v)

section Update

variable [DecidableEq κ] {next : List (Lock κ)}

theorem joinAfter_spec {i j : Nat} (ordered : i < j) (tidy : Tidy next) :
    Tidy (joinAfter next i j) ∧ Same next (joinAfter next i j) := by
  have still : Same next next := fun _ _ _ _ => Iff.rfl
  fun_induction joinAfter next i j with
  | case1 => exact ⟨tidy, still⟩
  | case2 next j inside l found joins ih =>
    obtain ⟨first, here⟩ := List.getElem?_eq_some_iff.mp found
    obtain ⟨rest, before, after⟩ := swapRemove_set_perm ordered inside
    simp only [List.get_eq_getElem, here] at before
    have joined := (tidy.perm before).join joins
    obtain ⟨kept, same⟩ := ih (Nat.lt_succ_self i) (joined.perm after.symm) fun _ _ _ _ => Iff.rfl
    exact ⟨kept, ((Same.of_perm before).trans (Same.join joins)).trans
      ((Same.of_perm after.symm).trans same)⟩
  | case3 next j inside l found stays ih => exact ih (by omega) tidy still
  | case4 => exact ⟨tidy, still⟩

theorem joinAll_spec {i fuel : Nat} (tidy : Tidy next) :
    Tidy (joinAll next i fuel) ∧ Same next (joinAll next i fuel) := by
  induction fuel generalizing next i with
  | zero => exact ⟨tidy, fun _ _ _ _ => Iff.rfl⟩
  | succ fuel ih =>
    simp only [joinAll]
    split
    · obtain ⟨kept, same⟩ := joinAfter_spec (Nat.lt_succ_self i) tidy
      obtain ⟨final, same'⟩ := ih kept
      exact ⟨final, same.trans same'⟩
    · exact ⟨tidy, fun _ _ _ _ => Iff.rfl⟩

/-! ## Cutting -/

variable {pid start stop b : Nat} {c : κ} {old : Lock κ}

omit [DecidableEq κ] in
theorem overlaps_iff : l.overlaps start stop = true ↔
    l.start < stop ∧ start < l.stop := by
  simp [overlaps, fileLockRangesOverlap]

theorem cut_piece {old piece : Lock κ}
    (mem : piece ∈ old.cut pid c start stop) (proper : old.Proper) :
    piece.Proper ∧ piece.pid = old.pid ∧ piece.content = old.content ∧ piece.type = old.type ∧
      old.start ≤ piece.start ∧ piece.stop ≤ old.stop ∧
      (old.pid = pid → old.content = c → piece.stop ≤ start ∨ stop ≤ piece.start) := by
  obtain ⟨wide, isLock⟩ := proper
  unfold cut at mem
  split at mem
  next elsewhere =>
    rw [mem_singleton.mp mem]
    refine ⟨⟨wide, isLock⟩, rfl, rfl, rfl, Nat.le_refl _, Nat.le_refl _, fun isPid isContent => ?_⟩
    have clear : ¬old.overlaps start stop = true := by
      rcases elsewhere with j | j | clear
      · exact absurd isPid j
      · exact absurd isContent j
      · simpa using clear
    rw [overlaps_iff] at clear
    omega
  rename_i hit
  simp only [Bool.not_eq_true', Bool.not_eq_false, not_or, Classical.not_not] at hit
  have overlap := overlaps_iff.mp hit.2.2
  rcases mem_append.mp mem with left | right
  · split at left
    next before =>
      rw [mem_singleton.mp left]
      exact ⟨⟨before, isLock⟩, rfl, rfl, rfl, Nat.le_refl _, Nat.le_of_lt overlap.2,
        fun _ _ => .inl (Nat.le_refl _)⟩
    · cases left
  split at right
  next behind =>
    rw [mem_singleton.mp right]
    exact ⟨⟨behind, isLock⟩, rfl, rfl, rfl, Nat.le_of_lt overlap.1, Nat.le_refl _,
      fun _ _ => .inr (Nat.le_refl _)⟩
  · cases right

theorem cut_covers (inside : old.start ≤ b ∧ b < old.stop)
    (outside : old.pid = pid → old.content = c → b < start ∨ stop ≤ b) :
    ∃ piece ∈ old.cut pid c start stop, piece.start ≤ b ∧ b < piece.stop := by
  unfold cut
  split
  · exact ⟨old, by simp, inside⟩
  rename_i hit
  simp only [Bool.not_eq_true', Bool.not_eq_false, not_or, Classical.not_not] at hit
  rcases outside hit.1 hit.2.1 with before | behind
  · refine ⟨{ old with stop := start }, ?_, inside.1, before⟩
    simp [show old.start < start by omega]
  · refine ⟨{ old with start := stop }, ?_, behind, inside.2⟩
    simp [show stop < old.stop by omega]

theorem cut_apart (range : start < stop) : (old.cut pid c start stop).Pairwise Lock.Apart := by
  unfold cut
  split
  · exact pairwise_singleton _ _
  split
  · split
    · refine pairwise_cons.mpr ⟨fun piece mem => ?_, pairwise_singleton _ _⟩
      rw [mem_singleton.mp mem]
      exact fun _ _ => .inl (Nat.le_of_lt range)
    · exact pairwise_singleton _ _
  split
  · exact pairwise_singleton _ _
  · exact .nil

/-! ## The update -/

variable {t t' : LockTable κ} {type type' : LockType} {pid : Nat}

theorem mem_nextLocks :
    l ∈ nextLocks t pid c start stop type ↔
      (∃ old ∈ t.locks, l ∈ old.cut pid c start stop) ∨
        type ≠ .unlck ∧ l = ⟨pid, c, start, stop, type⟩ := by
  simp only [nextLocks]
  split
  next isLock => simp [isLock]
  next unlock => simp [unlock]

theorem nextLocks_tidy (tidy : Tidy t.locks) (range : start < stop) :
    Tidy (nextLocks t pid c start stop type) := by
  constructor
  · intro l mem
    rcases mem_nextLocks.mp mem with ⟨old, known, piece⟩ | ⟨isLock, rfl⟩
    · exact (cut_piece piece (tidy.proper old known)).1
    · exact ⟨range, isLock⟩
  refine pairwise_append.mpr ⟨pairwise_flatMap.mpr ⟨fun old _ => cut_apart range, ?_⟩, ?_,
    fun piece mem new last => ?_⟩
  · refine tidy.apart.imp_of_mem fun {old j} known known' apart piece fromOld piece' fromOther => ?_
    obtain ⟨-, pidOf, contentOf, -, lower, upper, -⟩ := cut_piece fromOld (tidy.proper old known)
    obtain ⟨-, pidOf', contentOf', -, lower', upper', -⟩ :=
      cut_piece fromOther (tidy.proper j known')
    intro samePid sameContent
    have outer := apart (by rw [← pidOf, samePid, pidOf'])
      (by rw [← contentOf, sameContent, contentOf'])
    omega
  · split
    · exact pairwise_singleton _ _
    · exact .nil
  obtain ⟨old, known, fromOld⟩ := mem_flatMap.mp mem
  obtain ⟨-, pidOf, contentOf, -, -, -, outside⟩ := cut_piece fromOld (tidy.proper old known)
  split at last
  · rw [mem_singleton.mp last]
    intro samePid sameContent
    exact outside (pidOf.symm.trans samePid) (contentOf.symm.trans sameContent)
  · cases last

theorem holds_nextLocks (tidy : Tidy t.locks) {pid' : Nat} {c' : κ} :
    Holds (nextLocks t pid c start stop type) pid' c' b type' ↔
      if pid' = pid ∧ c' = c ∧ start ≤ b ∧ b < stop then
        type' = type ∧ type ≠ .unlck
      else Holds t.locks pid' c' b type' := by
  constructor
  · rintro ⟨l, mem, rfl, rfl, rfl, lower, upper⟩
    rcases mem_nextLocks.mp mem with ⟨old, known, piece⟩ | ⟨isLock, rfl⟩
    · obtain ⟨-, pidOf, contentOf, typeOf, lower', upper', outside⟩ :=
        cut_piece piece (tidy.proper old known)
      rw [if_neg]
      · exact ⟨old, known, pidOf.symm, contentOf.symm, typeOf.symm, by omega, by omega⟩
      rintro ⟨samePid, sameContent, first, last⟩
      have away := outside (pidOf.symm.trans samePid) (contentOf.symm.trans sameContent)
      omega
    · rw [if_pos ⟨rfl, rfl, lower, upper⟩]
      exact ⟨rfl, isLock⟩
  split
  next within =>
    obtain ⟨rfl, rfl, lower, upper⟩ := within
    rintro ⟨rfl, isLock⟩
    exact ⟨_, mem_nextLocks.mpr (.inr ⟨isLock, rfl⟩), rfl, rfl, rfl, lower, upper⟩
  rename_i without
  rintro ⟨old, known, rfl, rfl, rfl, lower, upper⟩
  have covered : ∃ piece ∈ old.cut pid c start stop,
      piece.start ≤ b ∧ b < piece.stop := by
    refine cut_covers ⟨lower, upper⟩ fun samePid sameContent => ?_
    by_contra inside
    exact without ⟨samePid, sameContent, by omega, by omega⟩
  obtain ⟨piece, mem, lower', upper'⟩ := covered
  obtain ⟨-, pidOf, contentOf, typeOf, -⟩ := cut_piece mem (tidy.proper old known)
  exact ⟨piece, mem_nextLocks.mpr (.inl ⟨old, known, mem⟩), pidOf, contentOf, typeOf,
    lower', upper'⟩

/-- A successful update changes what is held on the range of the caller, and nowhere else. -/
theorem fileLockUpdate_some (tidy : Tidy t.locks) (range : start < stop)
    (updated : fileLockUpdate t pid c start stop type = some t') :
    Tidy t'.locks ∧ ∀ pid' c' b type',
      Holds t'.locks pid' c' b type' ↔
        if pid' = pid ∧ c' = c ∧ start ≤ b ∧ b < stop then
          type' = type ∧ type ≠ .unlck
        else Holds t.locks pid' c' b type' := by
  unfold fileLockUpdate at updated
  dsimp only at updated
  split at updated
  · cases updated
  rename_i fits
  simp only [Option.some.injEq] at updated
  obtain ⟨kept, same⟩ := joinAll_spec (nextLocks_tidy tidy range)
  generalize joinAll (nextLocks t pid c start stop type) 0
    (nextLocks t pid c start stop type).length = joined at fits kept same updated
  have listed : t'.locks = joined := by
    rw [← updated, LockTable.locks]
    have plain : used (fun i => if i < maxFileLocks then joined[i]? else none)
        maxFileLocks = used (fun i => joined[i]?) maxFileLocks :=
      used_congr fun i inside => if_pos inside
    rw [plain, used_ofList, take_of_length_le (Nat.le_of_not_lt fits)]
  rw [listed]
  exact ⟨kept, fun pid' c' b type' =>
    (same pid' c' b type').symm.trans (holds_nextLocks tidy)⟩

/-! ## Conflicts -/

omit [DecidableEq κ] in
/-- Two processes hold locks on one byte only to read it. -/
def Shared (locks : List (Lock κ)) : Prop :=
  ∀ pid pid' content byte type type', pid ≠ pid' → Holds locks pid content byte type →
    Holds locks pid' content byte type' → type = .rdlck ∧ type' = .rdlck

theorem Holds.no_conflict {pid' b : Nat} (tidy : Tidy t.locks)
    (clear : fileLockConflict t pid c start stop type = none) (inside : start ≤ b ∧ b < stop)
    (j : pid' ≠ pid) (holds : Holds t.locks pid' c b type') : type ≠ .wrlck ∧ type' = .rdlck := by
  obtain ⟨l, mem, rfl, rfl, rfl, lower, upper⟩ := holds
  have none_ := find?_eq_none.mp clear l mem
  have overlap : l.overlaps start stop = true := overlaps_iff.mpr ⟨by omega, by omega⟩
  simp only [j, overlap, ne_eq, not_false_eq_true, decide_true, Bool.true_and, Bool.or_eq_true,
    decide_eq_true_eq, not_or] at none_
  have isLock := (tidy.proper l mem).2
  refine ⟨none_.1, ?_⟩
  cases kind : l.type with
  | rdlck => rfl
  | wrlck => exact absurd kind none_.2
  | unlck => exact absurd kind isLock

theorem Shared.update (shared : Shared t.locks) (tidy : Tidy t.locks) (range : start < stop)
    (clear : type = .unlck ∨ fileLockConflict t pid c start stop type = none)
    (updated : fileLockUpdate t pid c start stop type = some t') :
    Shared t'.locks := by
  obtain ⟨-, holds⟩ := fileLockUpdate_some tidy range updated
  have against {j b : Nat} {theirs mine : LockType} (apart : j ≠ pid)
      (inside : start ≤ b ∧ b < stop) (new : mine = type ∧ type ≠ .unlck)
      (old : Holds t.locks j c b theirs) : mine = .rdlck ∧ theirs = .rdlck := by
    obtain ⟨rfl, isLock⟩ := new
    obtain ⟨notWrite, reads⟩ := old.no_conflict tidy (clear.resolve_left isLock) inside apart
    refine ⟨?_, reads⟩
    cases mine with
    | rdlck => rfl
    | wrlck => exact absurd rfl notWrite
    | unlck => exact absurd rfl isLock
  intro first second file b left right apart held held'
  rw [holds] at held held'
  split at held
  next inside =>
    obtain ⟨rfl, rfl, range⟩ := inside
    rw [if_neg fun claimed => apart claimed.1.symm] at held'
    exact against apart.symm range held held'
  split at held'
  next inside =>
    obtain ⟨rfl, rfl, range⟩ := inside
    exact (against apart range held' held).symm
  · exact shared first second file b left right apart held held'

/-! ## Releasing -/

theorem locks_release : (fileLockReleasePath t pid c).locks =
    t.locks.filter fun l => !(decide (l.pid = pid) && decide (l.content = c)) :=
  used_filter

theorem Tidy.release (tidy : Tidy t.locks) : Tidy (fileLockReleasePath t pid c).locks := by
  rw [locks_release]
  exact ⟨fun l mem => tidy.proper l (mem_of_mem_filter mem), tidy.apart.filter _⟩

theorem Shared.release (shared : Shared t.locks) : Shared (fileLockReleasePath t pid c).locks := by
  have weaker {first b : Nat} {file : κ} {kind : LockType}
      (held : Holds (fileLockReleasePath t pid c).locks first file b kind) :
      Holds t.locks first file b kind := by
    obtain ⟨l, mem, rest⟩ := held
    rw [locks_release] at mem
    exact ⟨l, mem_of_mem_filter mem, rest⟩
  intro first second file b left right apart held held'
  exact shared first second file b left right apart (weaker held) (weaker held')

end Update

end SrvrOS.Files
