import SrvrOS.Lib.Slots

/-!
# Record locks

The lock table of `kernel/src/process.c`. `file_lock_update` cuts a range out of the locks of the
process, adds the new lock and joins neighbours, and gives up if the result does not fit. What a
file is, is a parameter.
-/

namespace SrvrOS.Files

open Lib

/-- `PROCESS_MAX_FILE_LOCKS`. -/
def maxFileLocks : Nat := 64

/-- `SRV_F_RDLCK`, `SRV_F_WRLCK` and `SRV_F_UNLCK`. -/
inductive LockType where
  | rdlck | wrlck | unlck
deriving DecidableEq

variable {κ : Type}

/-- A used `struct process_file_lock`: the bytes from `start` up to but not including `stop`. -/
structure Lock (κ : Type) where
  pid : Nat
  content : κ
  start : Nat
  stop : Nat
  type : LockType
deriving DecidableEq

/-- `file_locks`. -/
abbrev LockTable (κ : Type) := Slots (Lock κ)

def LockTable.locks (table : LockTable κ) : List (Lock κ) := Slots.used table maxFileLocks

def fileLockRangesOverlap (start stop start' stop' : Nat) : Bool :=
  decide (start < stop') && decide (start' < stop)

namespace Lock

variable [DecidableEq κ]

def overlaps (lock : Lock κ) (start stop : Nat) : Bool :=
  fileLockRangesOverlap lock.start lock.stop start stop

/-- What is left of a lock when a process changes a range of a file. -/
def cut (pid : Nat) (content : κ) (start stop : Nat) (old : Lock κ) : List (Lock κ) :=
  if old.pid ≠ pid ∨ old.content ≠ content ∨ !old.overlaps start stop then [old]
  else
    (if old.start < start then [{ old with stop := start }] else []) ++
    (if stop < old.stop then [{ old with start := stop }] else [])

/-- Two locks of one process on one file, of the same type, that overlap or touch. -/
def joins (lock other : Lock κ) : Bool :=
  decide (lock.pid = other.pid) && decide (lock.content = other.content) &&
    decide (lock.type = other.type) && decide (lock.start ≤ other.stop) &&
    decide (other.start ≤ lock.stop)

def join (lock other : Lock κ) : Lock κ :=
  { lock with start := min other.start lock.start, stop := max other.stop lock.stop }

end Lock

/-- The last element takes the place of the one at the index. -/
def swapRemove {α : Type} (list : List α) (index : Nat) : List α :=
  match list.getLast? with
  | none => list
  | some last => (list.set index last).dropLast

theorem swapRemove_length {α : Type} {list : List α} {i : Nat} (inside : i < list.length) :
    (swapRemove list i).length + 1 = list.length := by
  unfold swapRemove
  split
  next empty => simp [List.getLast?_eq_none_iff.mp empty] at inside
  · simp only [List.length_dropLast, List.length_set]
    omega

section Update

variable [DecidableEq κ]

/-- The inner loop over `j` of `file_lock_update`. -/
def joinAfter (next : List (Lock κ)) (i j : Nat) : List (Lock κ) :=
  if inside : j < next.length then
    match next[i]? with
    | none => next
    | some lock =>
      if lock.joins next[j] then
        joinAfter (swapRemove (next.set i (lock.join next[j])) j) i (i + 1)
      else joinAfter next i (j + 1)
  else next
termination_by (next.length, next.length - j)
decreasing_by
  · refine Prod.Lex.left _ _ ?_
    have removed : (swapRemove (next.set i (lock.join next[j])) j).length + 1 =
        (next.set i (lock.join next[j])).length := swapRemove_length (by simpa)
    simp only [List.length_set] at removed
    omega
  · refine Prod.Lex.right _ ?_
    omega

/-- The outer loop over `i`. -/
def joinAll (next : List (Lock κ)) (i : Nat) : Nat → List (Lock κ)
  | 0 => next
  | fuel + 1 => if i < next.length then joinAll (joinAfter next i (i + 1)) (i + 1) fuel else next

/-- The replacement table of `file_lock_update` before neighbours are joined. -/
def nextLocks (table : LockTable κ) (pid : Nat) (content : κ) (start stop : Nat)
    (type : LockType) : List (Lock κ) :=
  table.locks.flatMap (Lock.cut pid content start stop) ++
    if type ≠ .unlck then [⟨pid, content, start, stop, type⟩] else []

/-- `file_lock_update`; nothing if the new table has no room. -/
def fileLockUpdate (table : LockTable κ) (pid : Nat) (content : κ) (start stop : Nat)
    (type : LockType) : Option (LockTable κ) :=
  let next := nextLocks table pid content start stop type
  let joined := joinAll next 0 next.length
  if maxFileLocks < joined.length then none
  else some fun index => if index < maxFileLocks then joined[index]? else none

def fileLockConflict (table : LockTable κ) (pid : Nat) (content : κ) (start stop : Nat)
    (type : LockType) : Option (Lock κ) :=
  table.locks.find? fun lock =>
    decide (lock.pid ≠ pid) && decide (lock.content = content) && lock.overlaps start stop &&
      (decide (type = .wrlck) || decide (lock.type = .wrlck))

def fileLockReleasePath (table : LockTable κ) (pid : Nat) (content : κ) : LockTable κ :=
  fun index => (table index).filter fun lock =>
    !(decide (lock.pid = pid) && decide (lock.content = content))

end Update

/-! ## Ranges -/

/-- `struct srv_flock` as far as it is read. -/
structure LockRequest where
  type : Int
  whence : Int
  start : Int
  len : Int
deriving DecidableEq

/-- `file_lock_type_valid`, with the type. -/
def lockType : Int → Option LockType
  | 1 => some .rdlck
  | 2 => some .wrlck
  | 3 => some .unlck
  | _ => none

def int64Max : Int := 2 ^ 63 - 1

def int64Min : Int := -2 ^ 63

/-- `file_lock_range_for_fd` once the base is known. -/
def lockRangeFrom (base : Nat) (request : LockRequest) : Option (Nat × Nat) :=
  if int64Max < base then none
  else if 0 < request.start ∧ int64Max - request.start < base ∨
      request.start < 0 ∧ base < int64Min - request.start then none
  else
    let point := base + request.start
    if point < 0 then none
    else if request.len < 0 then
      if request.len = int64Min ∨ point < -request.len then none
      else some ((point + request.len).toNat, point.toNat)
    else if request.len = 0 then some (point.toNat, 2 ^ 64 - 1)
    else
      let stop := point.toNat + request.len.toNat
      if int64Max.toNat + 1 < stop then none else some (point.toNat, stop)

end SrvrOS.Files
